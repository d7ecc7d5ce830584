import MonitoringDemos.Transition
import MonitoringDemos.Kauth.ActionString

/-! The kext with its listener invocations in flight: the thread that starts and stops
it takes one step for each statement that touches a global, an invocation one step for
each kernel call. `kauth_unlisten_scope` stops new entries and waits for nobody. -/
namespace MonitoringDemos.Kauth
open Transition

/-! ### The system -/

/-- Where the system thread stands: the statement it executes next. -/
inductive Pc where
  | unloaded
  /-- `InstallListener` of `kauth_demo_start`; `failed` is `err != KERN_SUCCESS`. -/
  | install (failed : Bool)
  | loaded
  /-- `kauth_unlisten_scope` of `RemoveListener`. -/
  | unlisten
  | clearListener
  | tagfree
  | clearTag
  deriving DecidableEq, Repr

structure Kext where
  gMallocTag : Option Nat
  /-- The tags passed to `OSMalloc_Tagfree`, and the next one to be allocated. -/
  released : List Nat
  nextTag : Nat
  /-- `gListener != NULL`. -/
  gListener : Bool
  /-- The scope calls the listener. -/
  registered : Bool
  pc : Pc
  invocations : List (Prog KauthResult)

def Kext.initial : Kext := ⟨none, [], 0, false, false, .unloaded, []⟩

/-- What the kernel answers to the call an invocation is at. -/
inductive Answer where
  | asserted
  | malloced (block : Option Nat)
  | freed
  | path (err : Int32) (path : List UInt8)
  deriving DecidableEq, Repr

inductive Label where
  /-- `kauth_demo_start` up to `OSMalloc_Tagalloc`, which may fail. -/
  | start (allocated : Bool)
  /-- `kauth_listen_scope`, which may fail. -/
  | listen (installed : Bool)
  | stop | unlisten | clearListener | tagfree | clearTag
  | enter (action : UInt32) (vp dvp : Option Vnode)
  | call (invocation : Nat) (answer : Answer)

def Prog.answer : Prog α → Answer → Option (Prog α)
  | .assert _ next, .asserted => some next
  | .osMalloc _ next, .malloced block => some (next block)
  | .osFree _ _ next, .freed => some next
  | .vnGetpath _ _ next, .path err path => some (next err path)
  | _, _ => none

/-- Each call reads `gMallocTag` when it is executed. A failed start goes on to `stop`. -/
def step (mask : VnodeAction → UInt32) (s : Kext) : Label → Option Kext
  | .start allocated =>
    if s.pc = .unloaded then
      if allocated then
        some { s with gMallocTag := some s.nextTag, nextTag := s.nextTag + 1, pc := .install false }
      else some { s with gMallocTag := none, pc := .install true }
    else none
  | .listen installed =>
    match s.pc with
    | .install failed => some { s with
        gListener := installed
        registered := installed
        pc := if failed then .unlisten else .loaded }
    | _ => none
  | .stop => if s.pc = .loaded then some { s with pc := .unlisten } else none
  | .unlisten =>
    if s.pc = .unlisten then
      if s.gListener then some { s with registered := false, pc := .clearListener }
      else some { s with pc := .tagfree }
    else none
  | .clearListener =>
    if s.pc = .clearListener then some { s with gListener := false, pc := .tagfree } else none
  | .tagfree =>
    if s.pc = .tagfree then
      match s.gMallocTag with
      | some tag => some { s with released := tag :: s.released, pc := .clearTag }
      | none => some { s with pc := .unloaded }
    else none
  | .clearTag =>
    if s.pc = .clearTag then some { s with gMallocTag := none, pc := .unloaded } else none
  | .enter action vp dvp =>
    if s.registered then
      some { s with invocations := s.invocations ++ [vnodeScopeListener mask action vp dvp] }
    else none
  | .call i answer => do
    let prog ← s.invocations[i]?
    let prog ← prog.answer answer
    return { s with invocations := s.invocations.set i prog }

/-- What a step can do, one case for each branch of `step` that is enabled. -/
inductive Steps (mask : VnodeAction → UInt32) (s : Kext) : Label → Kext → Prop where
  | allocated : s.pc = .unloaded → Steps mask s (.start true)
      { s with gMallocTag := some s.nextTag, nextTag := s.nextTag + 1, pc := .install false }
  | unallocated : s.pc = .unloaded → Steps mask s (.start false)
      { s with gMallocTag := none, pc := .install true }
  | listen : s.pc = .install failed → Steps mask s (.listen installed) { s with
      gListener := installed, registered := installed, pc := if failed then .unlisten else .loaded }
  | stop : s.pc = .loaded → Steps mask s .stop { s with pc := .unlisten }
  | unlisten : s.pc = .unlisten → s.gListener = true →
      Steps mask s .unlisten { s with registered := false, pc := .clearListener }
  | unlistened : s.pc = .unlisten → s.gListener = false →
      Steps mask s .unlisten { s with pc := .tagfree }
  | clearListener : s.pc = .clearListener →
      Steps mask s .clearListener { s with gListener := false, pc := .tagfree }
  | tagfree : s.pc = .tagfree → s.gMallocTag = some tag →
      Steps mask s .tagfree { s with released := tag :: s.released, pc := .clearTag }
  | untagged : s.pc = .tagfree → s.gMallocTag = none →
      Steps mask s .tagfree { s with pc := .unloaded }
  | clearTag : s.pc = .clearTag →
      Steps mask s .clearTag { s with gMallocTag := none, pc := .unloaded }
  | enter : s.registered = true → Steps mask s (.enter action vp dvp)
      { s with invocations := s.invocations ++ [vnodeScopeListener mask action vp dvp] }
  | call : s.invocations[i]? = some prog → prog.answer answer = some prog' →
      Steps mask s (.call i answer) { s with invocations := s.invocations.set i prog' }

theorem steps_of_step {mask : VnodeAction → UInt32} {s t : Kext} {l : Label}
    (stepped : step mask s l = some t) : Steps mask s l t := by
  cases l with
  | start allocated =>
    simp only [step, Option.ite_none_right_eq_some] at stepped
    obtain ⟨pc, taken⟩ := stepped
    cases allocated <;> cases taken
    · exact .unallocated pc
    · exact .allocated pc
  | listen installed =>
    simp only [step] at stepped
    split at stepped
    · cases stepped
      exact .listen (by assumption)
    · contradiction
  | unlisten =>
    simp only [step, Option.ite_none_right_eq_some] at stepped
    obtain ⟨pc, taken⟩ := stepped
    cases on : s.gListener with
    | true =>
      rw [if_pos on] at taken
      cases taken
      exact .unlisten pc on
    | false =>
      rw [if_neg (by simp [on])] at taken
      cases taken
      exact .unlistened pc on
  | tagfree =>
    simp only [step, Option.ite_none_right_eq_some] at stepped
    obtain ⟨pc, taken⟩ := stepped
    split at taken <;> cases taken
    · exact .tagfree pc (by assumption)
    · exact .untagged pc (by assumption)
  | stop | clearListener | clearTag =>
    simp only [step, Option.ite_none_right_eq_some] at stepped
    obtain ⟨pc, taken⟩ := stepped
    cases taken
    first | exact .stop pc | exact .clearListener pc | exact .clearTag pc
  | enter action vp dvp =>
    simp only [step, Option.ite_none_right_eq_some] at stepped
    obtain ⟨on, taken⟩ := stepped
    cases taken
    exact .enter on
  | call i answer =>
    simp only [step, Option.bind_eq_bind, Option.bind_eq_some_iff] at stepped
    obtain ⟨prog, found, prog', answered, same⟩ := stepped
    cases same
    exact .call found answered

/-! ### Safety -/

/-- `gMallocTag` is neither NULL nor released. -/
def Kext.Live (s : Kext) : Prop := ∃ tag, s.gMallocTag = some tag ∧ tag ∉ s.released

/-- The next call is `OSMalloc` or `OSFree`. -/
def Prog.atAllocator : Prog α → Bool
  | .osMalloc .. | .osFree .. => true
  | _ => false

/-- No invocation is about to call the allocator with a dead tag. -/
def Kext.Safe (s : Kext) : Prop := ∀ prog ∈ s.invocations, prog.atAllocator = true → s.Live

/-- An `OSMalloc` or `OSFree` lies ahead on some branch. -/
inductive Prog.Uses : Prog α → Prop where
  | osMalloc : Uses (.osMalloc size next)
  | osFree : Uses (.osFree block size next)
  | assert : Uses next → Uses (.assert holds next)
  | vnGetpath (err : Int32) (path : List UInt8) :
      Uses (next err path) → Uses (.vnGetpath vp block next)

/-- The tag is released while no invocation needs it any more, and none is entered
without one. -/
def Guard (s : Kext) : Label → Prop
  | .tagfree => ∀ prog ∈ s.invocations, ¬ prog.Uses
  | .enter .. => s.gMallocTag ≠ none
  | _ => True

theorem uses_atAllocator {prog : Prog α} (calls : prog.atAllocator = true) : prog.Uses := by
  cases prog with
  | osMalloc => exact .osMalloc
  | osFree => exact .osFree
  | _ => contradiction

/-- A call does not bring allocator calls that were not ahead before. -/
theorem uses_answer {prog prog' : Prog α} (answered : prog.answer answer = some prog')
    (uses : prog'.Uses) : prog.Uses := by
  cases prog with
  | ret a => cases answer <;> contradiction
  | assert holds next =>
    cases answer <;> try contradiction
    cases answered
    exact .assert uses
  | osMalloc => exact .osMalloc
  | osFree => exact .osFree
  | vnGetpath vp block next =>
    cases answer <;> try contradiction
    cases answered
    exact .vnGetpath _ _ uses

/-- What guarded steps preserve. -/
structure Inv (s : Kext) : Prop where
  users : ∀ prog ∈ s.invocations, prog.Uses → s.Live
  listener : s.registered = true → s.gListener = true
  quiet : s.gListener = true → s.pc = .loaded ∨ s.pc = .unlisten ∨ s.pc = .clearListener
  unlisted : s.pc = .clearListener → s.registered = false
  unloaded : s.pc = .unloaded → s.gMallocTag = none
  held : s.pc ≠ .clearTag → ∀ tag, s.gMallocTag = some tag → tag ∉ s.released
  dead : s.pc = .clearTag → ¬ s.Live
  fresh : ∀ tag, tag ∈ s.released ∨ s.gMallocTag = some tag → tag < s.nextTag

theorem inv_initial : Inv Kext.initial where
  users := nofun
  listener := nofun
  quiet := nofun
  unlisted := nofun
  unloaded _ := rfl
  held := nofun
  dead := nofun
  fresh := by rintro tag (member | held) <;> contradiction

/-- A tag that no statement has touched stays live. -/
theorem live_of_held {s : Kext} (inv : Inv s) (open_ : s.pc ≠ .clearTag)
    (allocated : s.gMallocTag ≠ none) : s.Live := by
  obtain ⟨tag, held⟩ := Option.ne_none_iff_exists'.mp allocated
  exact ⟨tag, held, inv.held open_ tag held⟩

/-- An unloaded kext has no invocation with allocator calls ahead. -/
theorem unused_of_unloaded {s : Kext} (inv : Inv s) (unloaded : s.pc = .unloaded) :
    ∀ prog ∈ s.invocations, ¬ prog.Uses := by
  intro prog member uses
  obtain ⟨tag, held, _⟩ := inv.users prog member uses
  rw [inv.unloaded unloaded] at held
  contradiction

/-- The listener handle is NULL unless the kext is loaded or unlistening. -/
theorem no_listener {s : Kext} (inv : Inv s) (loaded : s.pc ≠ .loaded) (unlisten : s.pc ≠ .unlisten)
    (clear : s.pc ≠ .clearListener) : s.gListener = false := by
  by_contra on
  rw [Bool.not_eq_false] at on
  rcases inv.quiet on with at_ | at_ | at_ <;> contradiction

theorem inv_step {mask : VnodeAction → UInt32} {s t : Kext} {l : Label} (inv : Inv s)
    (guarded : Guard s l) (stepped : Steps mask s l t) : Inv t := by
  cases stepped with
  | allocated pc =>
    have off := no_listener inv (by simp [pc]) (by simp [pc]) (by simp [pc])
    have unused := unused_of_unloaded inv pc
    refine ⟨fun prog member uses => absurd uses (unused prog member), inv.listener,
      fun on => absurd (on.symm.trans off) nofun, nofun, nofun, ?_, nofun, ?_⟩
    · rintro _ tag held member
      cases held
      exact absurd (inv.fresh _ (Or.inl member)) (Nat.lt_irrefl _)
    · rintro tag (member | held)
      · exact Nat.lt_succ_of_lt (inv.fresh tag (Or.inl member))
      · cases held
        exact Nat.lt_succ_self _
  | unallocated pc =>
    have off := no_listener inv (by simp [pc]) (by simp [pc]) (by simp [pc])
    have unused := unused_of_unloaded inv pc
    refine ⟨fun prog member uses => absurd uses (unused prog member), inv.listener,
      fun on => absurd (on.symm.trans off) nofun, nofun, nofun, nofun, nofun, ?_⟩
    rintro tag (member | held)
    · exact inv.fresh tag (Or.inl member)
    · contradiction
  | @listen failed installed pc =>
    have held := inv.held (by simp [pc])
    cases failed with
    | true =>
      exact ⟨inv.users, id, fun _ => Or.inr (Or.inl rfl), nofun, nofun, fun _ => held, nofun,
        inv.fresh⟩
    | false =>
      exact ⟨inv.users, id, fun _ => Or.inl rfl, nofun, nofun, fun _ => held, nofun, inv.fresh⟩
  | stop pc =>
    have held := inv.held (by simp [pc])
    exact ⟨inv.users, inv.listener, fun _ => Or.inr (Or.inl rfl), nofun, nofun, fun _ => held,
      nofun, inv.fresh⟩
  | unlisten pc on =>
    have held := inv.held (by simp [pc])
    exact ⟨inv.users, nofun, fun _ => Or.inr (Or.inr rfl), fun _ => rfl, nofun, fun _ => held,
      nofun, inv.fresh⟩
  | unlistened pc off =>
    have held := inv.held (by simp [pc])
    exact ⟨inv.users, inv.listener, fun on => absurd (on.symm.trans off) nofun, nofun, nofun,
      fun _ => held, nofun, inv.fresh⟩
  | clearListener pc =>
    have held := inv.held (by simp [pc])
    have off := inv.unlisted pc
    exact ⟨inv.users, fun on => absurd (on.symm.trans off) nofun, nofun, nofun, nofun,
      fun _ => held, nofun, inv.fresh⟩
  | @tagfree tag pc held =>
    have off := no_listener inv (by simp [pc]) (by simp [pc]) (by simp [pc])
    refine ⟨fun prog member uses => absurd uses (guarded prog member), inv.listener,
      fun on => absurd (on.symm.trans off) nofun, nofun, nofun, nofun, ?_, ?_⟩
    · rintro _ ⟨tag', same, live⟩
      cases held.symm.trans same
      exact live List.mem_cons_self
    · rintro tag' (member | same)
      · rcases List.mem_cons.mp member with rfl | older
        · exact inv.fresh tag' (Or.inr held)
        · exact inv.fresh tag' (Or.inl older)
      · exact inv.fresh tag' (Or.inr same)
  | untagged pc none =>
    have off := no_listener inv (by simp [pc]) (by simp [pc]) (by simp [pc])
    have held := inv.held (by simp [pc])
    exact ⟨inv.users, inv.listener, fun on => absurd (on.symm.trans off) nofun, nofun,
      fun _ => none, fun _ => held, nofun, inv.fresh⟩
  | clearTag pc =>
    have off := no_listener inv (by simp [pc]) (by simp [pc]) (by simp [pc])
    refine ⟨fun prog member uses => absurd (inv.users prog member uses) (inv.dead pc),
      inv.listener, fun on => absurd (on.symm.trans off) nofun, nofun, fun _ => rfl, nofun, nofun, ?_⟩
    rintro tag (member | held)
    · exact inv.fresh tag (Or.inl member)
    · contradiction
  | enter on =>
    have open_ : s.pc ≠ .clearTag := by
      intro pc
      have off := no_listener inv (by simp [pc]) (by simp [pc]) (by simp [pc])
      exact absurd ((inv.listener on).symm.trans off) nofun
    have live : s.Live := live_of_held inv open_ guarded
    exact ⟨fun _ _ _ => live, inv.listener, inv.quiet, inv.unlisted, inv.unloaded, inv.held,
      inv.dead, inv.fresh⟩
  | @call i prog answer prog' found answered =>
    refine ⟨?_, inv.listener, inv.quiet, inv.unlisted, inv.unloaded, inv.held, inv.dead, inv.fresh⟩
    intro other member uses
    rcases List.mem_or_eq_of_mem_set member with old | rfl
    · exact inv.users other old uses
    · exact inv.users prog (List.mem_of_getElem? found) (uses_answer answered uses)

theorem safe_of_inv {s : Kext} (inv : Inv s) : s.Safe :=
  fun prog member calls => inv.users prog member (uses_atAllocator calls)

/-- In every run of guarded steps each allocator call finds a live tag. -/
theorem guarded_run_safe {mask : VnodeAction → UInt32}
    (run : Run (restrict (stepOf (step mask)) Guard) Kext.initial labels s) : s.Safe :=
  safe_of_inv (run.invariant (fun _ _ _ inv taken => inv_step inv taken.1 (steps_of_step taken.2))
    inv_initial)

/-- The values of `KAUTH_VNODE_*`. -/
def kauthVnode : VnodeAction → UInt32
  | .readData => 0x2
  | .writeData => 0x4
  | .execute => 0x8
  | .delete => 0x10
  | .appendData => 0x20
  | .deleteChild => 0x40
  | .readAttributes => 0x80
  | .writeAttributes => 0x100
  | .readExtattributes => 0x200
  | .writeExtattributes => 0x400
  | .readSecurity => 0x800
  | .writeSecurity => 0x1000
  | .takeOwnership => 0x2000
  | .synchronize => 0x100000
  | .linktarget => 0x2000000
  | .checkimmutable => 0x4000000
  | .access => 0x80000000
  | .noimmutable => 0x40000000

/-- A loaded kext with one invocation on its way. -/
def entered : Kext :=
  ⟨some 0, [], 1, true, true, .loaded, [vnodeScopeListener kauthVnode 2 (some ⟨1, false⟩) none]⟩

theorem guarded_run_safe_entered : entered.Safe := by
  have run : Run (restrict (stepOf (step kauthVnode)) Guard) Kext.initial
      [.start true, .listen true, .enter 2 (some ⟨1, false⟩) none] entered := by
    refine .next ⟨trivial, rfl⟩ (.next ⟨trivial, rfl⟩ (.next ⟨?_, rfl⟩ (.stay _)))
    exact Option.some_ne_none 0
  exact guarded_run_safe run

/-! ### The guard is exact -/

/-- Without a live tag an invocation with allocator calls ahead can reach one. -/
theorem uses_violates {mask : VnodeAction → UInt32} {prog : Prog KauthResult} (uses : prog.Uses)
    {s : Kext} (member : prog ∈ s.invocations) (dead : ¬ s.Live) :
    ∃ labels t, Run (stepOf (step mask)) s labels t ∧ ¬ t.Safe := by
  induction uses generalizing s with
  | osMalloc | osFree => exact ⟨[], s, .stay s, fun safe => dead (safe _ member rfl)⟩
  | @assert next holds _ ih =>
    obtain ⟨i, inside, found⟩ := List.getElem_of_mem member
    have moved : stepOf (step mask) s (.call i .asserted)
        { s with invocations := s.invocations.set i next } := by
      simp only [stepOf, step, List.getElem?_eq_getElem inside, found]
      rfl
    obtain ⟨labels, t, run, violated⟩ :=
      ih (s := { s with invocations := s.invocations.set i next }) (List.mem_set inside next) dead
    exact ⟨_, t, .next moved run, violated⟩
  | @vnGetpath next vp block err path _ ih =>
    obtain ⟨i, inside, found⟩ := List.getElem_of_mem member
    have moved : stepOf (step mask) s (.call i (.path err path))
        { s with invocations := s.invocations.set i (next err path) } := by
      simp only [stepOf, step, List.getElem?_eq_getElem inside, found]
      rfl
    obtain ⟨labels, t, run, violated⟩ :=
      ih (s := { s with invocations := s.invocations.set i (next err path) })
        (List.mem_set inside _) dead
    exact ⟨_, t, .next moved run, violated⟩

/-- Every invocation allocates: a path, or the action string. -/
theorem listener_uses (mask : VnodeAction → UInt32) (action : UInt32) (vp dvp : Option Vnode) :
    (vnodeScopeListener mask action vp dvp).Uses := by
  cases vp with
  | some vp => exact .assert (.assert .osMalloc)
  | none =>
    cases dvp with
    | some dvp => exact .assert (.assert (.assert (.assert .osMalloc)))
    | none =>
      have fits := Nat.not_lt.mpr (actionStrLen_le mask false action none)
      refine .assert (.assert (.assert (.assert (.assert (.assert (.assert ?_))))))
      dsimp only [Prog.bind]
      rw [if_neg fits]
      exact .osMalloc

/-- A step that does not meet the guard lets an allocator call find a dead tag. -/
theorem unguarded_violates {mask : VnodeAction → UInt32} {s t : Kext} {l : Label} (inv : Inv s)
    (unguarded : ¬ Guard s l) (stepped : step mask s l = some t) :
    ∃ labels u, Run (stepOf (step mask)) t labels u ∧ ¬ u.Safe := by
  cases steps_of_step stepped with
  | tagfree pc held =>
    obtain ⟨prog, needed⟩ := not_forall.mp unguarded
    obtain ⟨member, uses⟩ := Classical.not_imp.mp needed
    refine uses_violates (Classical.not_not.mp uses) member ?_
    rintro ⟨tag', same, live⟩
    cases held.symm.trans same
    exact live List.mem_cons_self
  | untagged pc none =>
    obtain ⟨prog, needed⟩ := not_forall.mp unguarded
    obtain ⟨member, uses⟩ := Classical.not_imp.mp needed
    obtain ⟨tag, held, _⟩ := inv.users prog member (Classical.not_not.mp uses)
    rw [none] at held
    contradiction
  | @enter action vp dvp on =>
    have none : s.gMallocTag = none := Classical.not_not.mp unguarded
    refine uses_violates (listener_uses mask action vp dvp) (List.mem_append_right _ List.mem_cons_self) ?_
    rintro ⟨tag, held, _⟩
    cases none.symm.trans held
  | _ => exact absurd trivial unguarded

/-- A kext unloaded while an invocation is between entry and its first allocation. -/
def stopInside : List Label :=
  [.start true, .listen true, .enter 2 (some ⟨1, false⟩) none, .stop, .unlisten, .clearListener,
    .tagfree, .call 0 .asserted, .call 0 .asserted]

/-- A start without a tag whose listener is entered before it is removed again. -/
def startUntagged : List Label :=
  [.start false, .listen true, .enter 2 (some ⟨1, false⟩) none, .call 0 .asserted,
    .call 0 .asserted]

theorem allocator_dead_tag :
    (∃ s, Run (stepOf (step kauthVnode)) Kext.initial stopInside s ∧ ¬ s.Safe) ∧
      ∃ s, Run (stepOf (step kauthVnode)) Kext.initial startUntagged s ∧ ¬ s.Safe := by
  constructor
  · refine ⟨_, exec_run (by rfl), ?_⟩
    intro safe
    obtain ⟨tag, held, live⟩ := safe _ List.mem_cons_self rfl
    cases held
    exact live List.mem_cons_self
  · refine ⟨_, exec_run (by rfl), ?_⟩
    intro safe
    obtain ⟨tag, held, _⟩ := safe _ List.mem_cons_self rfl
    contradiction

end MonitoringDemos.Kauth
