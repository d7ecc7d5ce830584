import MonitoringDemos.Interleaving
import MonitoringDemos.Kauth.Balance
import MonitoringDemos.Kauth.Lifecycle

/-! What the invocations of a kext ask of the kernel while they are interleaved with each
other and with starts and stops: each of them as if it were alone, and all their books
together. -/
namespace MonitoringDemos.Kauth
open Interleaving Ledger Transition

/-! ### The journal of a run -/

/-- What an invocation is entered with. -/
structure Entry where
  action : UInt32
  vp : Option Vnode
  dvp : Option Vnode

def Label.entry : Label → List Entry
  | .enter action vp dvp => [⟨action, vp, dvp⟩]
  | _ => []

def entries (labels : List Label) : List Entry := labels.flatMap Label.entry

/-- The call that an answer completes. -/
def Prog.call : Prog α → Answer → Option Call
  | .assert holds _, .asserted => some (.assert holds)
  | .osMalloc size _, .malloced block => some (.osMalloc size block)
  | .osFree block size _, .freed => some (.osFree block size)
  | .vnGetpath vp block _, .path err path => some (.vnGetpath vp block err path)
  | _, _ => none

def Kext.made (s : Kext) : Label → List (Nat × Call)
  | .call i answer => ((s.invocations[i]?.bind (·.call answer)).map (i, ·)).toList
  | _ => []

/-- The calls of a run in their order, each with the invocation that makes it. -/
def journal (mask : VnodeAction → UInt32) (s : Kext) : List Label → List (Nat × Call)
  | [] => []
  | l :: ls =>
    match step mask s l with
    | none => []
    | some t => s.made l ++ journal mask t ls

/-! ### Invocations in flight -/

theorem answer_call {prog prog' : Prog α} (answered : prog.answer answer = some prog') :
    ∃ call, prog.call answer = some call ∧
      ∀ later result, prog'.Runs later result → prog.Runs (call :: later) result := by
  cases prog with
  | ret a => cases answer <;> contradiction
  | assert holds next =>
    cases answer <;> try contradiction
    cases answered
    exact ⟨_, rfl, fun later _ runs => ⟨later, rfl, runs⟩⟩
  | osMalloc size next =>
    cases answer <;> try contradiction
    cases answered
    exact ⟨_, rfl, fun later _ runs => ⟨_, later, rfl, runs⟩⟩
  | osFree block size next =>
    cases answer <;> try contradiction
    cases answered
    exact ⟨_, rfl, fun later _ runs => ⟨later, rfl, runs⟩⟩
  | vnGetpath vp block next =>
    cases answer <;> try contradiction
    cases answered
    exact ⟨_, rfl, fun later _ runs => ⟨_, _, later, rfl, runs⟩⟩

/-- Every program can be brought to its end. -/
theorem runs_exist (prog : Prog α) : ∃ calls result, prog.Runs calls result := by
  induction prog with
  | ret a => exact ⟨[], a, rfl, rfl⟩
  | assert holds next ih =>
    obtain ⟨calls, result, runs⟩ := ih
    exact ⟨_, result, calls, rfl, runs⟩
  | osMalloc size next ih =>
    obtain ⟨calls, result, runs⟩ := ih none
    exact ⟨_, result, none, calls, rfl, runs⟩
  | osFree block size next ih =>
    obtain ⟨calls, result, runs⟩ := ih
    exact ⟨_, result, calls, rfl, runs⟩
  | vnGetpath vp block next ih =>
    obtain ⟨calls, result, runs⟩ := ih 0 []
    exact ⟨_, result, 0, [], calls, rfl, runs⟩

/-- What the invocations have done so far: each has come to where it is by the calls that
it has made itself. -/
structure Traced (mask : VnodeAction → UInt32) (s : Kext) (arrived : List Entry)
    (made : List (Nat × Call)) : Prop where
  listed : arrived.length = s.invocations.length
  tags : ∀ call ∈ made, call.1 < s.invocations.length
  runs : ∀ i prog entry, s.invocations[i]? = some prog → arrived[i]? = some entry →
    ∀ later result, prog.Runs later result →
      (vnodeScopeListener mask entry.action entry.vp entry.dvp).Runs (own i made ++ later) result

theorem traced_initial (mask : VnodeAction → UInt32) : Traced mask .initial [] [] where
  listed := rfl
  tags := List.forall_mem_nil _
  runs := by
    intro i prog entry found
    simp [Kext.initial] at found

theorem Traced.enter (traced : Traced mask s arrived made) (action : UInt32)
    (vp dvp : Option Vnode) :
    Traced mask { s with invocations := s.invocations ++ [vnodeScopeListener mask action vp dvp] }
      (arrived ++ [⟨action, vp, dvp⟩]) made where
  listed := by
    rw [List.length_append, List.length_append, traced.listed]
    rfl
  tags call member := by
    rw [List.length_append]
    exact Nat.lt_add_right _ (traced.tags call member)
  runs := by
    intro i prog entry found listed later result runs
    rcases Nat.lt_trichotomy i s.invocations.length with older | same | outside
    · rw [List.getElem?_append_left older] at found
      rw [List.getElem?_append_left (traced.listed ▸ older)] at listed
      exact traced.runs i prog entry found listed later result runs
    · subst same
      rw [List.getElem?_concat_length] at found
      rw [← traced.listed, List.getElem?_concat_length] at listed
      cases found
      cases listed
      have silent := own_outside fun call member => Nat.ne_of_lt (traced.tags call member)
      rw [silent]
      exact runs
    · rw [List.getElem?_eq_none] at found
      · contradiction
      · rw [List.length_append]
        exact outside

theorem Traced.call (traced : Traced mask s arrived made) (found : s.invocations[i]? = some prog)
    (answered : prog.answer answer = some prog') :
    Traced mask { s with invocations := s.invocations.set i prog' } arrived
      (made ++ s.made (.call i answer)) := by
  obtain ⟨call, called, completes⟩ := answer_call answered
  have inside := (List.getElem?_eq_some_iff.mp found).1
  have added : s.made (.call i answer) = [(i, call)] := by
    simp [Kext.made, found, called]
  rw [added]
  refine ⟨?_, ?_, ?_⟩
  · rw [List.length_set]
    exact traced.listed
  · intro other member
    rw [List.length_set]
    rcases List.mem_append.mp member with older | new
    · exact traced.tags other older
    · cases List.mem_singleton.mp new
      exact inside
  · intro j other entry current listed later result runs
    by_cases same : i = j
    · subst same
      rw [List.getElem?_set_self inside] at current
      cases current
      rw [own_concat, List.append_assoc]
      exact traced.runs i prog entry found listed _ result (completes later result runs)
    · rw [List.getElem?_set_ne same] at current
      rw [own_concat_other same]
      exact traced.runs j other entry current listed later result runs

theorem traced_step (traced : Traced mask s arrived made) (stepped : step mask s l = some t) :
    Traced mask t (arrived ++ l.entry) (made ++ s.made l) := by
  cases steps_of_step stepped with
  | enter on => simpa [Kext.made, Label.entry] using traced.enter _ _ _
  | call found answered => simpa [Label.entry] using traced.call found answered
  | _ => simpa [Kext.made, Label.entry] using ⟨traced.listed, traced.tags, traced.runs⟩

theorem traced_run (run : Run (stepOf (step mask)) s labels t)
    (traced : Traced mask s arrived made) :
    Traced mask t (arrived ++ entries labels) (made ++ journal mask s labels) := by
  induction run generalizing arrived made with
  | stay s =>
    rw [entries, journal, List.flatMap_nil, List.append_nil, List.append_nil]
    exact traced
  | @next s l t ls u head _ ih =>
    have later := ih (traced_step traced head)
    have stepped : step mask s l = some t := head
    rw [List.append_assoc, List.append_assoc] at later
    rw [entries, List.flatMap_cons, journal, stepped]
    exact later

/-! ### The books of an invocation -/

/-- The account of an invocation that is back. -/
theorem account_of_runs (runs : (vnodeScopeListener mask action vp dvp).Runs calls result) :
    ∃ err paths, Account calls err 0 paths ∧
      (result = .deny ↔ err = 0 ∧ ∃ answer ∈ paths, demoPath <:+: answer.2) := by
  cases invocation_of_runs runs with
  | stages one two three four five six =>
    obtain ⟨vpAccount, vpLooked⟩ := nextPath_account account_nil one
    obtain ⟨dvpAccount, dvpLooked⟩ := nextPath_account vpAccount two
    have described := nextString_account dvpAccount three
    rw [Multiset.add_zero, Multiset.add_comm (pathHeld _)] at described
    have cleans := (freeActionStr_cleansUp four).append
      ((freePath_cleansUp five).append (freePath_cleansUp six))
    refine ⟨_, _, described.cleanUp cleans, ?_⟩
    exact verdict_deny_iff vpLooked dvpLooked _

/-- What an invocation that has come to `prog` holds. -/
theorem Traced.settles (traced : Traced mask s arrived made) (i : Nat) :
    ∃ held, settle 0 (events (own i made)) = some held := by
  by_cases inside : i < s.invocations.length
  · have listed := List.getElem?_eq_getElem (traced.listed.symm ▸ inside)
    obtain ⟨later, result, runs⟩ := runs_exist s.invocations[i]
    have whole := traced.runs i _ _ (List.getElem?_eq_getElem inside) listed later result runs
    obtain ⟨_, _, account, _⟩ := account_of_runs whole
    have settled := account.settled
    rw [events_append, settle_append] at settled
    obtain ⟨held, own, _⟩ := Option.bind_eq_some_iff.mp settled
    exact ⟨held, own⟩
  · have silent := own_outside fun call member => Nat.ne_of_lt
      (Nat.lt_of_lt_of_le (traced.tags call member) (Nat.le_of_not_lt inside))
    exact ⟨0, by rw [silent]; rfl⟩

/-! ### The tags -/

/-- Every tag that has been allocated is released or the one in use. -/
structure Tagged (s : Kext) : Prop where
  once : s.released.Nodup
  known : ∀ tag, tag < s.nextTag ↔ tag ∈ s.released ∨ s.gMallocTag = some tag
  held : s.pc ≠ .clearTag → ∀ tag, s.gMallocTag = some tag → tag ∉ s.released
  dead : s.pc = .clearTag → ∀ tag, s.gMallocTag = some tag → tag ∈ s.released
  unloaded : s.pc = .unloaded → s.gMallocTag = none

theorem tagged_initial : Tagged .initial where
  once := List.nodup_nil
  known tag := by simp [Kext.initial]
  held _ _ found := by simp [Kext.initial] at found
  dead pc := by simp [Kext.initial] at pc
  unloaded _ := rfl

/-- A step that leaves the tags alone. -/
theorem Tagged.keep (tagged : Tagged s) (gMallocTag : t.gMallocTag = s.gMallocTag)
    (released : t.released = s.released) (nextTag : t.nextTag = s.nextTag)
    (open_ : s.pc ≠ .clearTag) (goes : t.pc ≠ .clearTag) (stays : t.pc ≠ .unloaded) : Tagged t where
  once := released ▸ tagged.once
  known := by
    rw [gMallocTag, released, nextTag]
    exact tagged.known
  held _ := by
    rw [gMallocTag, released]
    exact tagged.held open_
  dead pc := absurd pc goes
  unloaded pc := absurd pc stays

theorem tagged_step (s : Kext) (l : Label) (t : Kext) (tagged : Tagged s)
    (stepped : stepOf (step mask) s l t) : Tagged t := by
  have untouched : t.gMallocTag = s.gMallocTag → t.released = s.released → t.nextTag = s.nextTag →
      t.pc = s.pc → Tagged t := by
    intro gMallocTag released nextTag pc
    refine ⟨released ▸ tagged.once, ?_, ?_, ?_, ?_⟩
    · rw [gMallocTag, released, nextTag]
      exact tagged.known
    all_goals rw [gMallocTag, pc]
    · rw [released]
      exact tagged.held
    · rw [released]
      exact tagged.dead
    · exact tagged.unloaded
  cases steps_of_step stepped with
  | allocated pc =>
    have none := tagged.unloaded pc
    have fresh : s.nextTag ∉ s.released := fun member =>
      Nat.lt_irrefl _ ((tagged.known s.nextTag).mpr (.inl member))
    refine ⟨tagged.once, fun tag => ?_, fun _ tag found => ?_, nofun, nofun⟩
    · have known := tagged.known tag
      simp only [none, reduceCtorEq, or_false] at known
      change tag < s.nextTag + 1 ↔ _
      rw [← known, Option.some.injEq]
      omega
    · cases found
      exact fresh
  | unallocated pc =>
    have none := tagged.unloaded pc
    exact ⟨tagged.once, none ▸ tagged.known, nofun, nofun, nofun⟩
  | @listen failed installed pc =>
    apply tagged.keep <;> cases failed <;> simp [pc]
  | stop pc => apply tagged.keep <;> simp [pc]
  | unlisten pc on => apply tagged.keep <;> simp [pc]
  | unlistened pc off => apply tagged.keep <;> simp [pc]
  | clearListener pc => apply tagged.keep <;> simp [pc]
  | @tagfree tag pc found =>
    have fresh := tagged.held (by simp [pc]) tag found
    refine ⟨List.nodup_cons.mpr ⟨fresh, tagged.once⟩, fun other => ?_, nofun, ?_, nofun⟩
    · have known := tagged.known other
      rw [known, List.mem_cons, found, Option.some.injEq, eq_comm]
      tauto
    · intro _ other same
      cases found.symm.trans same
      exact List.mem_cons_self
  | untagged pc none =>
    refine ⟨tagged.once, tagged.known, fun _ => tagged.held (by simp [pc]), nofun, fun _ => none⟩
  | clearTag pc =>
    refine ⟨tagged.once, fun tag => ?_, nofun, nofun, fun _ => rfl⟩
    have known := tagged.known tag
    have dead := tagged.dead pc tag
    simp only [reduceCtorEq, or_false]
    tauto
  | enter on => exact untouched rfl rfl rfl rfl
  | call found answered => exact untouched rfl rfl rfl rfl

/-! ### Runs of the kext -/

/-- However the invocations are interleaved, with each other and with starts and stops, and
whatever is answered: what is held of the allocator is what they hold each, and one that is
back holds nothing and has denied its action when it had to. Every tag is released at most
once, and by the time the kext is unloaded it is. -/
theorem kext_settled (run : Run (stepOf (step mask)) .initial labels s) :
    (∃ held : Nat → Multiset (Nat × Nat),
      settle 0 (events ((journal mask .initial labels).map Prod.snd)) =
        some (∑ i ∈ Finset.range s.invocations.length, held i) ∧
      ∀ i, settle 0 (events (own i (journal mask .initial labels))) = some (held i) ∧
        ∀ result, s.invocations[i]? = some (.ret result) → held i = 0 ∧
          (result = .deny ↔ (∀ call ∈ own i (journal mask .initial labels), call.Succeeded) ∧
            ∃ answer ∈ answers (own i (journal mask .initial labels)), demoPath <:+: answer.2)) ∧
    s.released.Nodup ∧ (s.pc = .unloaded → ∀ tag, tag ∈ s.released ↔ tag < s.nextTag) := by
  have traced := traced_run run (traced_initial mask)
  rw [List.nil_append, List.nil_append] at traced
  have tagged : Tagged s := run.invariant tagged_step tagged_initial
  refine ⟨?_, tagged.once, ?_⟩
  · choose held settled using traced.settles
    refine ⟨held, ?_, fun i => ⟨settled i, ?_⟩⟩
    · have each : ∀ i ∈ Finset.range s.invocations.length,
          settle 0 (own i (view Call.event (journal mask .initial labels))) = some (held i) := by
        intro i _
        rw [own_view]
        exact settled i
      have together := settle_interleaved
        (view_tags fun call member => Finset.mem_range.mpr (traced.tags call member)) each
      rw [Finset.sum_const_zero, map_view] at together
      exact together
    · intro result found
      have inside := (List.getElem?_eq_some_iff.mp found).1
      have listed := List.getElem?_eq_getElem (traced.listed.symm ▸ inside)
      have whole := traced.runs i _ _ found listed [] result ⟨rfl, rfl⟩
      rw [List.append_nil] at whole
      obtain ⟨err, paths, account, verdict⟩ := account_of_runs whole
      rw [account.succeeded, account.answered]
      exact ⟨Option.some.inj ((settled i).symm.trans account.settled), verdict⟩
  · intro pc tag
    have known := tagged.known tag
    rw [tagged.unloaded pc] at known
    simpa using known.symm

/-- Two invocations in turns: the first gets a buffer for its path, the second gets none. -/
def inTurns : List Label :=
  [.start true, .listen true, .enter 2 (some ⟨1, false⟩) none, .enter 2 (some ⟨2, false⟩) none,
    .call 0 .asserted, .call 1 .asserted, .call 1 .asserted, .call 0 .asserted,
    .call 0 (.malloced (some 7)), .call 1 (.malloced none)]

theorem kext_settled_inTurns :
    ∃ s, Run (stepOf (step kauthVnode)) .initial inTurns s ∧
      s.invocations[1]? = some (.ret .defer) ∧
      events ((journal kauthVnode .initial inTurns).map Prod.snd) = [.obtain (7, maxPathLen)] ∧
      settle 0 (events (own 1 (journal kauthVnode .initial inTurns))) = some 0 := by
  have run : Run (stepOf (step kauthVnode)) .initial inTurns
      ((exec (step kauthVnode) .initial inTurns).getD .initial) := exec_run (by rfl)
  obtain ⟨⟨held, _, each⟩, _, _⟩ := kext_settled run
  obtain ⟨settled, back⟩ := each 1
  refine ⟨_, run, by rfl, by rfl, ?_⟩
  rw [settled, (back .defer (by rfl)).1]

end MonitoringDemos.Kauth
