import Mathlib.Tactic.Tauto
import MonitoringDemos.Kevent.EventLoop
import MonitoringDemos.Transition

/-! How the demos with a run loop end: `InstallHandleSignalFromRunLoop`, the run loop that
is entered behind it, and signals that may arrive at any point. The answers of the system
are labels, and an `assert` that does not hold ends the process. -/
namespace MonitoringDemos.SignalHandler
open Transition

inductive Signal where
  | sigint | sigabrt | sigterm | sigpipe
  deriving DecidableEq, Repr

def signalsToWatch : List Signal := [.sigint, .sigabrt, .sigterm]

/-- The statement executed next. -/
inductive Pc where
  /-- `signal(signum, SIG_IGN)` for the rest of `signalsToWatch`. -/
  | ignore (todo : List Signal)
  | ignorePipe
  | kqueue
  /-- `kevent` with `EV_ADD | EV_RECEIPT` for the rest of `signalsToWatch`. -/
  | register (todo : List Signal)
  | createDescriptor | createSource | addSource | enableCallBacks
  | releaseSource | releaseDescriptor
  /-- Back in `main`, in front of `CFRunLoopRun`. -/
  | installed
  | running
  /-- `CFRunLoopRun` has returned. -/
  | stopped
  | aborted
  | killed (signum : Signal)
  deriving DecidableEq, Repr

def ignoring : List Signal → Pc
  | [] => .ignorePipe
  | todo => .ignore todo

def registering : List Signal → Pc
  | [] => .createDescriptor
  | todo => .register todo

structure Process where
  pc : Pc
  /-- The signals whose disposition is `SIG_IGN`. -/
  ignored : List Signal
  /-- The signals that `kq` listens for. -/
  watched : List Signal
  /-- What `kq` has seen; nobody reads it. -/
  pending : List Signal
  /-- The retain counts of `kqRef` and `kqSource`. -/
  kqRef : Nat
  kqSource : Nat
  callBacksEnabled : Bool
  /-- How often `HandleSignalFromRunLoop` has been called. -/
  handled : Nat
  deriving DecidableEq, Repr

def start : Process := ⟨ignoring signalsToWatch, [], [], [], 0, 0, false, 0⟩

inductive Label where
  /-- What `signal` returns is not `SIG_ERR`. -/
  | signal (accepted : Bool)
  | kqueue (kq : Int32)
  | kevent (changeCount : Int32) (flags : UInt16) (data : Int64)
  /-- What a `Create` function returns is not `NULL`. -/
  | create (created : Bool)
  /-- A function without a result. -/
  | call
  | arrive (signum : Signal)
  /-- A turn of the run loop. -/
  | turn
  deriving DecidableEq, Repr

namespace Process

def goto (s : Process) (pc : Pc) : Process := { s with pc }

/-- `assert(condition)` in front of `next`. -/
def asserted (s : Process) (condition : Bool) (next : Process) : Process :=
  if condition then next else s.goto .aborted

/-- A signal that is not ignored ends the process; `kq` sees the ignored ones, too. -/
def receive (s : Process) (signum : Signal) : Process :=
  if signum ∈ s.ignored then
    if signum ∈ s.watched then { s with pending := signum :: s.pending } else s
  else s.goto (.killed signum)

/-- `HandleSignalFromRunLoop`: its callback is disabled before it is called, and it stops
the loop. -/
def handleSignalFromRunLoop (s : Process) : Process :=
  { s with callBacksEnabled := false, handled := s.handled + 1, pc := .stopped }

end Process

def Pc.alive : Pc → Bool
  | .aborted | .killed _ => false
  | _ => true

def step (s : Process) : Label → Option Process
  | .signal accepted =>
    match s.pc with
    | .ignore (signum :: todo) =>
      some (s.asserted accepted { s with ignored := signum :: s.ignored, pc := ignoring todo })
    | .ignorePipe =>
      some (s.asserted accepted { s with ignored := .sigpipe :: s.ignored, pc := .kqueue })
    | _ => none
  | .kqueue kq =>
    match s.pc with
    | .kqueue => some (s.asserted (0 ≤ kq) (s.goto (registering signalsToWatch)))
    | _ => none
  | .kevent changeCount flags data =>
    match s.pc with
    | .register (signum :: todo) =>
      some (s.asserted (changeCount = 1 ∧ flags &&& Kevent.evError ≠ 0 ∧ data = 0)
        { s with watched := signum :: s.watched, pc := registering todo })
    | _ => none
  | .create created =>
    match s.pc with
    | .createDescriptor => some (s.asserted created { s with kqRef := 1, pc := .createSource })
    | .createSource =>
      -- the source retains its descriptor
      some (s.asserted created { s with kqSource := 1, kqRef := s.kqRef + 1, pc := .addSource })
    | _ => none
  | .call =>
    match s.pc with
    | .addSource => some { s with kqSource := s.kqSource + 1, pc := .enableCallBacks }
    | .enableCallBacks => some { s with callBacksEnabled := true, pc := .releaseSource }
    | .releaseSource => some { s with kqSource := s.kqSource - 1, pc := .releaseDescriptor }
    | .releaseDescriptor => some { s with kqRef := s.kqRef - 1, pc := .installed }
    | .installed => some (s.goto .running)
    | _ => none
  | .arrive signum => if s.pc.alive then some (s.receive signum) else none
  | .turn =>
    match s.pc with
    | .running =>
      some (if s.callBacksEnabled ∧ s.pending ≠ [] then s.handleSignalFromRunLoop else s)
    | _ => none

/-! ### What holds at each statement -/

/-- Who has been ignored so far. -/
def Ignoring (ignored : List Signal) : Pc → Prop
  | .ignore todo => ∀ signum ∈ signalsToWatch, signum ∈ ignored ∨ signum ∈ todo
  | .ignorePipe => ∀ signum ∈ signalsToWatch, signum ∈ ignored
  | .aborted | .killed _ => True
  | _ => ∀ signum, signum ∈ ignored

/-- Whom `kq` listens for. -/
def Watching (watched : List Signal) : Pc → Prop
  | .ignore _ | .ignorePipe | .kqueue => watched = []
  | .register todo => (∀ signum ∈ signalsToWatch, signum ∈ watched ∨ signum ∈ todo) ∧
      ∀ signum ∈ todo, signum ∈ signalsToWatch
  | .aborted | .killed _ => True
  | _ => ∀ signum ∈ signalsToWatch, signum ∈ watched

/-- The references that are held: behind the installation the run loop alone holds the
source, and the source alone its descriptor. -/
def Retained (kqRef kqSource : Nat) : Pc → Prop
  | .createSource => kqRef = 1 ∧ kqSource = 0
  | .addSource | .releaseDescriptor => kqRef = 2 ∧ kqSource = 1
  | .enableCallBacks | .releaseSource => kqRef = 2 ∧ kqSource = 2
  | .installed | .running | .stopped => kqRef = 1 ∧ kqSource = 1
  | .aborted | .killed _ => True
  | _ => kqRef = 0 ∧ kqSource = 0

/-- The callback is called once, and then it stays disabled. -/
def Handling (s : Process) : Pc → Prop
  | .releaseSource | .releaseDescriptor | .installed | .running =>
    s.handled = 0 ∧ s.callBacksEnabled = true
  | .stopped => s.handled = 1 ∧ s.callBacksEnabled = false ∧ s.pending ≠ []
  | _ => s.handled = 0

structure Consistent (s : Process) : Prop where
  ignoring : Ignoring s.ignored s.pc
  watching : Watching s.watched s.pc
  listed : ∀ signum ∈ s.watched, signum ∈ signalsToWatch
  retained : Retained s.kqRef s.kqSource s.pc
  handling : Handling s s.pc

theorem consistent_start : Consistent start where
  ignoring := fun _ member => .inr member
  watching := rfl
  listed := nofun
  retained := ⟨rfl, rfl⟩
  handling := rfl

/-- A process that has ended holds nothing that matters. -/
theorem Consistent.ended (consistent : Consistent s) (ended : pc.alive = false)
    (unhandled : s.handled = 0) : Consistent (s.goto pc) := by
  cases pc with
  | aborted | killed => exact ⟨trivial, trivial, consistent.listed, trivial, unhandled⟩
  | _ => contradiction

theorem Consistent.asserted (consistent : Consistent s) (unhandled : s.handled = 0)
    (next : condition = true → Consistent t) : Consistent (s.asserted condition t) := by
  unfold Process.asserted
  split
  · exact next (by assumption)
  · exact consistent.ended rfl unhandled

theorem Consistent.receive (consistent : Consistent s) (signum : Signal)
    (alive : s.pc.alive = true) : Consistent (s.receive signum) := by
  obtain ⟨ignoring, watching, listed, retained, handling⟩ := id consistent
  unfold Process.receive
  split
  · split
    · refine ⟨ignoring, watching, listed, retained, ?_⟩
      -- the pending signals only grow
      revert handling
      cases pc : s.pc with
      | stopped => exact fun ⟨once, disabled, _⟩ => ⟨once, disabled, List.cons_ne_nil _ _⟩
      | _ => exact id
    · exact consistent
  · rename_i unignored
    apply consistent.ended rfl
    revert alive ignoring handling
    cases pc : s.pc with
    | stopped => exact fun _ ignoring => absurd (ignoring signum) unignored
    | running | installed | releaseDescriptor | releaseSource => exact fun _ _ handling => handling.1
    | _ => exact fun _ _ handling => handling

/-- What `signal` answers. -/
theorem Consistent.signal (consistent : Consistent s) (stepped : step s (.signal accepted) = some t) :
    Consistent t := by
  obtain ⟨ignoring, watching, listed, retained, handling⟩ := id consistent
  simp only [step] at stepped
  split at stepped
  · rename_i signum todo pc
    cases stepped
    rw [pc] at ignoring watching retained handling
    apply consistent.asserted handling
    intro _
    have either : ∀ other ∈ signalsToWatch, other ∈ signum :: s.ignored ∨ other ∈ todo := by
      intro other member
      have before := ignoring other member
      simp only [List.mem_cons] at before ⊢
      tauto
    cases todo with
    | nil =>
      have all : ∀ other ∈ signalsToWatch, other ∈ signum :: s.ignored :=
        fun other member => (either other member).resolve_right nofun
      exact ⟨all, watching, listed, retained, handling⟩
    | cons next todo => exact ⟨either, watching, listed, retained, handling⟩
  · rename_i pc
    cases stepped
    rw [pc] at ignoring watching retained handling
    apply consistent.asserted handling
    intro _
    refine ⟨fun other => ?_, watching, listed, retained, handling⟩
    cases other with
    | sigpipe => exact List.mem_cons_self
    | sigint => exact List.mem_cons_of_mem _ (ignoring .sigint (by decide))
    | sigabrt => exact List.mem_cons_of_mem _ (ignoring .sigabrt (by decide))
    | sigterm => exact List.mem_cons_of_mem _ (ignoring .sigterm (by decide))
  · contradiction

theorem Consistent.kqueue (consistent : Consistent s) (stepped : step s (.kqueue kq) = some t) :
    Consistent t := by
  obtain ⟨ignoring, watching, listed, retained, handling⟩ := id consistent
  simp only [step] at stepped
  split at stepped
  · rename_i pc
    cases stepped
    rw [pc] at ignoring watching retained handling
    apply consistent.asserted handling
    intro _
    exact ⟨ignoring, ⟨fun _ member => .inr member, fun _ member => member⟩, listed, retained, handling⟩
  · contradiction

theorem Consistent.kevent (consistent : Consistent s)
    (stepped : step s (.kevent changeCount flags data) = some t) : Consistent t := by
  obtain ⟨ignoring, watching, listed, retained, handling⟩ := id consistent
  simp only [step] at stepped
  split at stepped
  · rename_i signum todo pc
    cases stepped
    rw [pc] at ignoring watching retained handling
    apply consistent.asserted handling
    intro _
    obtain ⟨either, inside⟩ := watching
    have either : ∀ other ∈ signalsToWatch, other ∈ signum :: s.watched ∨ other ∈ todo := by
      intro other member
      have before := either other member
      simp only [List.mem_cons] at before ⊢
      tauto
    have listed : ∀ other ∈ signum :: s.watched, other ∈ signalsToWatch :=
      List.forall_mem_cons.mpr ⟨inside signum List.mem_cons_self, listed⟩
    cases todo with
    | nil =>
      have all : ∀ other ∈ signalsToWatch, other ∈ signum :: s.watched :=
        fun other member => (either other member).resolve_right nofun
      exact ⟨ignoring, all, listed, retained, handling⟩
    | cons next todo =>
      have rest : ∀ other ∈ next :: todo, other ∈ signalsToWatch :=
        fun other member => inside other (List.mem_cons_of_mem _ member)
      exact ⟨ignoring, ⟨either, rest⟩, listed, retained, handling⟩
  · contradiction

theorem Consistent.create (consistent : Consistent s) (stepped : step s (.create created) = some t) :
    Consistent t := by
  obtain ⟨ignoring, watching, listed, retained, handling⟩ := id consistent
  simp only [step] at stepped
  split at stepped
  · rename_i pc
    cases stepped
    rw [pc] at ignoring watching retained handling
    apply consistent.asserted handling
    intro _
    exact ⟨ignoring, watching, listed, ⟨rfl, retained.2⟩, handling⟩
  · rename_i pc
    cases stepped
    rw [pc] at ignoring watching retained handling
    apply consistent.asserted handling
    intro _
    exact ⟨ignoring, watching, listed, ⟨congrArg (· + 1) retained.1, rfl⟩, handling⟩
  · contradiction

theorem Consistent.call (consistent : Consistent s) (stepped : step s .call = some t) :
    Consistent t := by
  obtain ⟨ignoring, watching, listed, retained, handling⟩ := id consistent
  simp only [step] at stepped
  split at stepped
  · rename_i pc
    cases stepped
    rw [pc] at ignoring watching retained handling
    exact ⟨ignoring, watching, listed, ⟨retained.1, congrArg (· + 1) retained.2⟩, handling⟩
  · rename_i pc
    cases stepped
    rw [pc] at ignoring watching retained handling
    exact ⟨ignoring, watching, listed, retained, handling, rfl⟩
  · rename_i pc
    cases stepped
    rw [pc] at ignoring watching retained handling
    exact ⟨ignoring, watching, listed, ⟨retained.1, congrArg (· - 1) retained.2⟩, handling⟩
  · rename_i pc
    cases stepped
    rw [pc] at ignoring watching retained handling
    exact ⟨ignoring, watching, listed, ⟨congrArg (· - 1) retained.1, retained.2⟩, handling⟩
  · rename_i pc
    cases stepped
    rw [pc] at ignoring watching retained handling
    exact ⟨ignoring, watching, listed, retained, handling⟩
  · contradiction

/-- A turn of the run loop: the callback is called when `kq` has seen a signal. -/
theorem step_turn (stepped : step s .turn = some t) : s.pc = .running ∧
    t = if s.callBacksEnabled ∧ s.pending ≠ [] then s.handleSignalFromRunLoop else s := by
  simp only [step] at stepped
  split at stepped
  · rename_i pc
    exact ⟨pc, (Option.some.inj stepped).symm⟩
  · contradiction

theorem Consistent.turn (consistent : Consistent s) (stepped : step s .turn = some t) :
    Consistent t := by
  obtain ⟨pc, rfl⟩ := step_turn stepped
  split
  · rename_i seen
    obtain ⟨ignoring, watching, listed, retained, handling⟩ := consistent
    rw [pc] at ignoring watching retained handling
    exact ⟨ignoring, watching, listed, retained, congrArg (· + 1) handling.1, rfl, seen.2⟩
  · exact consistent

theorem step_arrive (stepped : step s (.arrive signum) = some t) : t = s.receive signum :=
  (Option.some.inj (Option.ite_none_right_eq_some.mp stepped).2).symm

theorem receive_pc {s : Process} (ignored : signum ∈ s.ignored) : (s.receive signum).pc = s.pc := by
  unfold Process.receive
  rw [if_pos ignored]
  split <;> rfl

theorem consistent_step (consistent : Consistent s) (stepped : stepOf step s l t) :
    Consistent t := by
  cases l with
  | signal accepted => exact consistent.signal stepped
  | kqueue kq => exact consistent.kqueue stepped
  | kevent changeCount flags data => exact consistent.kevent stepped
  | create created => exact consistent.create stepped
  | call => exact consistent.call stepped
  | turn => exact consistent.turn stepped
  | arrive signum =>
    obtain ⟨alive, same⟩ := Option.ite_none_right_eq_some.mp stepped
    cases same
    exact consistent.receive signum alive

theorem consistent_run (run : Run (stepOf step) start ls s) : Consistent s :=
  run.invariant (fun _ _ _ consistent stepped => consistent_step consistent stepped) consistent_start

/-! ### How the run loop ends -/

/-- Some signal that `kq` listens for arrives. -/
def Heard (ls : List Label) : Prop := ∃ signum ∈ signalsToWatch, .arrive signum ∈ ls

/-- A turn behind a signal: `pending` is what had been seen before. -/
def Noticed (pending : List Signal) (ls : List Label) : Prop :=
  ∃ before after, ls = before ++ .turn :: after ∧ (pending ≠ [] ∨ Heard before)

theorem noticed_cons (l : Label) (pending : List Signal) (ls : List Label) :
    Noticed pending (l :: ls) ↔
      (l = .turn ∧ pending ≠ []) ∨ ∃ before after, ls = before ++ .turn :: after ∧
        (pending ≠ [] ∨ Heard (l :: before)) := by
  constructor
  · rintro ⟨before, after, split, seen⟩
    cases before with
    | nil =>
      cases split
      refine .inl ⟨rfl, seen.resolve_right ?_⟩
      rintro ⟨_, _, member⟩
      contradiction
    | cons first before =>
      cases split
      exact .inr ⟨before, after, rfl, seen⟩
  · rintro (⟨rfl, seen⟩ | ⟨before, after, rfl, seen⟩)
    · exact ⟨[], ls, rfl, .inl seen⟩
    · exact ⟨l :: before, after, rfl, seen⟩

theorem heard_cons (l : Label) (ls : List Label) :
    Heard (l :: ls) ↔ (∃ signum ∈ signalsToWatch, l = .arrive signum) ∨ Heard ls := by
  simp only [Heard, List.mem_cons, ← exists_or, ← and_or_left, eq_comm]

/-- A run loop that has been stopped stays so, whatever arrives. -/
theorem stopped_run (run : Run (stepOf step) s ls t) (consistent : Consistent s)
    (stopped : s.pc = .stopped) : t.pc = .stopped := by
  induction run with
  | stay => exact stopped
  | @next s l middle _ _ head _ ih =>
    refine ih (consistent_step consistent head) ?_
    cases l with
    | arrive signum =>
      have ignoring := consistent.ignoring
      rw [stopped] at ignoring
      rw [step_arrive head, receive_pc (ignoring signum)]
      exact stopped
    | _ => simp [stepOf, step, stopped] at head

/-- What can happen in a run loop. -/
theorem running_step (consistent : Consistent s) (running : s.pc = .running)
    (stepped : stepOf step s l t) :
    (∃ signum, l = .arrive signum ∧ t.pc = .running ∧
      (t.pending ≠ [] ↔ s.pending ≠ [] ∨ signum ∈ signalsToWatch)) ∨
    (l = .turn ∧ s.pending ≠ [] ∧ t.pc = .stopped) ∨ (l = .turn ∧ s.pending = [] ∧ t = s) := by
  have ignoring := consistent.ignoring
  have watching := consistent.watching
  have handling := consistent.handling
  rw [running] at ignoring watching handling
  cases l with
  | arrive signum =>
    cases step_arrive stepped
    refine .inl ⟨signum, rfl, (receive_pc (ignoring signum)).trans running, ?_⟩
    unfold Process.receive
    rw [if_pos (ignoring signum)]
    split
    · rename_i watched
      exact ⟨fun _ => .inr (consistent.listed signum watched), fun _ => List.cons_ne_nil _ _⟩
    · rename_i unwatched
      refine ⟨.inl, fun seen => seen.resolve_right fun listed => ?_⟩
      exact unwatched (watching signum listed)
  | turn =>
    obtain ⟨_, rfl⟩ := step_turn stepped
    by_cases seen : s.pending = []
    · exact .inr (.inr ⟨rfl, seen, if_neg fun both => both.2 seen⟩)
    · refine .inr (.inl ⟨rfl, seen, ?_⟩)
      rw [if_pos ⟨handling.2, seen⟩]
      rfl
  | _ => simp [stepOf, step, running] at stepped

theorem running_run (run : Run (stepOf step) s ls t) (consistent : Consistent s)
    (running : s.pc = .running) :
    (t.pc = .running ∨ t.pc = .stopped) ∧ (t.pc = .stopped ↔ Noticed s.pending ls) := by
  induction run with
  | stay s =>
    refine ⟨.inl running, fun stopped => ?_, ?_⟩
    · rw [running] at stopped
      contradiction
    · rintro ⟨before, after, split, _⟩
      simp at split
  | @next s l middle ls t head rest ih =>
    have kept := consistent_step consistent head
    rcases running_step consistent running head with
      ⟨signum, rfl, still, seen⟩ | ⟨rfl, seen, stopped⟩ | ⟨rfl, unseen, rfl⟩
    · obtain ⟨ended, stops⟩ := ih kept still
      refine ⟨ended, stops.trans ?_⟩
      rw [noticed_cons, or_iff_right (fun both => nomatch both.1)]
      apply exists_congr; intro before
      apply exists_congr; intro after
      rw [seen, heard_cons, or_assoc]
      simp
    · have ended := stopped_run rest kept stopped
      exact ⟨.inr ended, fun _ => (noticed_cons _ _ _).mpr (.inl ⟨rfl, seen⟩), fun _ => ended⟩
    · obtain ⟨ended, stops⟩ := ih kept running
      refine ⟨ended, stops.trans ?_⟩
      rw [noticed_cons, or_iff_right (fun both => both.2 unseen)]
      apply exists_congr; intro before
      apply exists_congr; intro after
      rw [heard_cons]
      simp

/-- Once the run loop has been entered, no signal of the four ends the process. The loop
returns at the first turn behind a `SIGINT`, `SIGABRT` or `SIGTERM` that has arrived since
`kq` listens for it, before the loop or in it, and at no other; the callback is called then
and never again. -/
theorem stops_iff (run : Run (stepOf step) start ls s) (entered : s.pc = .running)
    (later : Run (stepOf step) s ls' t) :
    (t.pc = .running ∨ t.pc = .stopped) ∧ (t.pc = .stopped ↔ Noticed s.pending ls') ∧
      t.handled = if t.pc = .stopped then 1 else 0 := by
  have consistent := consistent_run run
  obtain ⟨ended, stops⟩ := running_run later consistent entered
  have handling := (consistent_run (run.append later)).handling
  refine ⟨ended, stops, ?_⟩
  rcases ended with running | stopped
  · rw [running] at handling ⊢
    exact handling.1
  · rw [stopped] at handling ⊢
    exact handling.1

/-- The answers that the asserts expect, and a signal in front of the loop. -/
def installation : List Label :=
  [.signal true, .signal true, .signal true, .signal true, .kqueue 3,
    .kevent 1 0x4000 0, .kevent 1 0x4000 0, .kevent 1 0x4000 0, .create true, .create true,
    .call, .call, .call, .call, .arrive .sigterm, .call]

def entered : Process := (exec step start installation).getD start

theorem stops_iff_entered : ∃ t, step entered .turn = some t ∧ t.pc = .stopped := by
  have run : Run (stepOf step) start installation entered := exec_run rfl
  have turn : Run (stepOf step) entered [.turn] entered.handleSignalFromRunLoop := exec_run rfl
  refine ⟨_, rfl, ((stops_iff run rfl turn).2.1).mpr ⟨[], [], rfl, .inl ?_⟩⟩
  exact List.cons_ne_nil _ _

/-! ### The installation -/

/-- An answer that an `assert` does not expect. -/
def Label.Refused : Label → Prop
  | .signal accepted => accepted = false
  | .kqueue kq => kq < 0
  | .kevent changeCount flags data => changeCount ≠ 1 ∨ flags &&& Kevent.evError = 0 ∨ data ≠ 0
  | .create created => created = false
  | _ => False

theorem asserted_aborts {s t : Process} (going : t.pc ≠ .aborted) (condition : Bool) :
    (s.asserted condition t).pc = .aborted ↔ condition = false := by
  cases condition with
  | true => exact ⟨fun aborted => absurd aborted going, nofun⟩
  | false => exact ⟨fun _ => rfl, fun _ => rfl⟩

theorem ignoring_going (todo : List Signal) : ignoring todo ≠ .aborted := by
  cases todo <;> nofun

theorem registering_going (todo : List Signal) : registering todo ≠ .aborted := by
  cases todo <;> nofun

theorem step_aborts (stepped : stepOf step s l t) : t.pc = .aborted ↔ l.Refused := by
  cases l with
  | signal accepted =>
    simp only [stepOf, step] at stepped
    split at stepped
    · cases stepped
      exact asserted_aborts (ignoring_going _) accepted
    · cases stepped
      exact asserted_aborts (by simp) accepted
    · contradiction
  | kqueue kq =>
    simp only [stepOf, step] at stepped
    split at stepped
    · cases stepped
      have going : (s.goto (registering signalsToWatch)).pc ≠ .aborted := registering_going signalsToWatch
      rw [asserted_aborts going]
      simp [Label.Refused, Int32.not_le]
    · contradiction
  | kevent changeCount flags data =>
    simp only [stepOf, step] at stepped
    split at stepped
    · cases stepped
      rw [asserted_aborts (registering_going _)]
      simp only [Label.Refused, decide_eq_false_iff_not, not_and_or, not_not]
    · contradiction
  | create created =>
    simp only [stepOf, step] at stepped
    split at stepped
    · cases stepped
      exact asserted_aborts (by simp) created
    · cases stepped
      exact asserted_aborts (by simp) created
    · contradiction
  | call =>
    simp only [stepOf, step] at stepped
    split at stepped
    all_goals cases stepped <;> exact ⟨nofun, nofun⟩
  | turn =>
    obtain ⟨pc, rfl⟩ := step_turn stepped
    refine ⟨fun aborted => ?_, nofun⟩
    split at aborted
    · contradiction
    · rw [pc] at aborted
      contradiction
  | arrive signum =>
    have alive := (Option.ite_none_right_eq_some.mp stepped).1
    rw [step_arrive stepped]
    refine ⟨fun aborted => ?_, nofun⟩
    unfold Process.receive at aborted
    split at aborted
    · have still : s.pc = .aborted := by
        split at aborted <;> exact aborted
      rw [still] at alive
      contradiction
    · contradiction

theorem aborted_stuck (aborted : s.pc = .aborted) (l : Label) : step s l = none := by
  cases l <;> simp [step, aborted, Pc.alive]

theorem aborted_run (run : Run (stepOf step) s ls t) (going : s.pc ≠ .aborted) :
    t.pc = .aborted ↔ ∃ l ∈ ls, l.Refused := by
  induction run with
  | stay s => exact ⟨fun aborted => absurd aborted going, nofun⟩
  | @next s l middle ls t head rest ih =>
    simp only [List.mem_cons, exists_eq_or_imp]
    rw [← step_aborts head]
    by_cases aborted : middle.pc = .aborted
    · cases rest with
      | stay => exact ⟨fun _ => .inl aborted, fun _ => aborted⟩
      | next again _ =>
        rw [stepOf, aborted_stuck aborted] at again
        contradiction
    · rw [ih aborted, or_iff_right aborted]

/-- The installation is given up exactly at an answer that an assert does not expect. When
it returns, all four signals are ignored, `kq` listens for the three, the callback is
enabled, the run loop holds the source and the source its descriptor. -/
theorem installation_outcome (run : Run (stepOf step) start ls s) :
    (s.pc = .aborted ↔ ∃ l ∈ ls, l.Refused) ∧
      (s.pc = .installed → (∀ signum, signum ∈ s.ignored) ∧
        (∀ signum, signum ∈ s.watched ↔ signum ∈ signalsToWatch) ∧
        s.kqRef = 1 ∧ s.kqSource = 1 ∧ s.callBacksEnabled = true) := by
  refine ⟨aborted_run run (ignoring_going signalsToWatch), fun installed => ?_⟩
  obtain ⟨ignoring, watching, listed, retained, handling⟩ := consistent_run run
  rw [installed] at ignoring watching retained handling
  exact ⟨ignoring, fun signum => ⟨listed signum, watching signum⟩, retained.1, retained.2, handling.2⟩

theorem installation_outcome_refused :
    ∃ s, exec step start [.signal true, .signal false] = some s ∧ s.pc = .aborted := by
  have run : Run (stepOf step) start [.signal true, .signal false]
      ((exec step start [.signal true, .signal false]).getD start) := exec_run rfl
  refine ⟨_, rfl, (installation_outcome run).1.mpr ⟨.signal false, ?_, rfl⟩⟩
  exact List.mem_cons_of_mem _ List.mem_cons_self

end MonitoringDemos.SignalHandler
