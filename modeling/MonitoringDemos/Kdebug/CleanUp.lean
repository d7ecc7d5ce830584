import MonitoringDemos.Transition
import MonitoringDemos.Kdebug.Tracer

/-! What the tracer undoes before it exits. The kernel traces from the moment it accepts
the request; the exit path goes by `trace_enabled`, which is set one statement later. -/
namespace MonitoringDemos.Kdebug
open Transition

namespace Tracer

/-- The kernel has been told to trace and has accepted. -/
def Accepted (s : Tracer) : Prop := ⟨.enable true, true⟩ ∈ s.log

/-- The kernel has been asked, whatever it has answered. -/
def Requested (s : Tracer) (request : Request) : Prop := ∃ accepted, ⟨request, accepted⟩ ∈ s.log

/-- `KERN_KDENABLE` has been issued with 0, and the pid filter been switched off. -/
def Disabled (s : Tracer) : Prop := s.Requested (.enable false)
def Unfiltered (s : Tracer) : Prop := s.Requested (.pidtr false)

/-- The signal has come between the kernel call and the assignment to `trace_enabled`. -/
def Interrupted (s : Tracer) : Prop := s.signalledAt = some (.assignEnabled true)

theorem accepted_issue (s : Tracer) (request : Request) (accepted : Bool) :
    (s.issue request accepted).Accepted ↔
      request = .enable true ∧ accepted = true ∨ s.Accepted := by
  simp only [Accepted, issue, List.mem_cons, Issued.mk.injEq, eq_comm]

theorem requested_issue (s : Tracer) (request asked : Request) (accepted : Bool) :
    (s.issue request accepted).Requested asked ↔ request = asked ∨ s.Requested asked := by
  simp only [Requested, issue, List.mem_cons, Issued.mk.injEq]
  constructor
  · rintro ⟨outcome, ⟨same, _⟩ | older⟩
    · exact Or.inl same.symm
    · exact Or.inr ⟨outcome, older⟩
  · rintro (rfl | ⟨outcome, older⟩)
    · exact ⟨accepted, Or.inl ⟨rfl, rfl⟩⟩
    · exact ⟨outcome, Or.inr older⟩

/-- A request that is none of those the clean-up is about changes nothing. -/
theorem accepted_issue_other (s : Tracer) (accepted : Bool) (on : request ≠ .enable true) :
    (s.issue request accepted).Accepted ↔ s.Accepted := by
  rw [accepted_issue]
  exact or_iff_right fun ⟨same, _⟩ => on same

theorem disabled_issue_other (s : Tracer) (accepted : Bool) (off : request ≠ .enable false) :
    (s.issue request accepted).Disabled ↔ s.Disabled :=
  (requested_issue ..).trans (or_iff_right off)

end Tracer
open Tracer

/-! ### Phases of a run -/

/-- `main`, with the trace as far as the kernel and `trace_enabled` are concerned. -/
structure Running (s : Tracer) (accepted traceEnabled : Bool) : Prop where
  accepted : s.Accepted ↔ accepted = true
  disabled : ¬ s.Disabled
  traceEnabled : s.traceEnabled = traceEnabled
  exiting : s.exiting = false
  signalled : s.signalledAt = none
  starts : s.starts = []

/-- On the way out: a trace that is not yet disabled will be, unless the signal has come
in the window. -/
structure Leaving (s : Tracer) : Prop where
  window : s.Interrupted → s.Accepted ∧ ¬ s.Disabled ∧ s.traceEnabled = false
  enabled : s.Accepted → s.Interrupted ∨ s.Disabled ∨ s.traceEnabled = true

/-- What holds at each statement. -/
def At (s : Tracer) : Pc → Prop
  | .allocate | .clear false | .dropRemoveFlag | .setbuf | .reinit | .setpidcheck true
  | .setregValcheck | .setenable true | .failed => Running s false false
  | .assignEnabled true => Running s true false
  | .getbuf | .read => Running s true true
  | .exitHandler => Leaving s
  | .setenable false => Leaving s ∧ s.exiting = true ∧ s.traceEnabled = true
  | .assignEnabled false => Leaving s ∧ s.exiting = true ∧ s.Disabled
  | .setpidcheck false => Leaving s ∧ s.exiting = true ∧ s.traceEnabled = false
  | .clear true | .exited => Leaving s ∧ s.exiting = true ∧ s.traceEnabled = false ∧
      (0 < s.pid → s.Unfiltered)

/-- A failure starts the exit path only where nothing has started it before. -/
def Once (s : Tracer) : Prop := ∀ earlier, .failure :: earlier <:+ s.starts → earlier = []

def Inv (s : Tracer) : Prop := At s s.pc ∧ Once s

theorem once_nil (none_ : s.starts = []) : Once s := by
  intro earlier suffix
  rw [none_, List.suffix_nil] at suffix
  contradiction

theorem inv_initial (pid : Int32) : Inv (initial pid) := by
  refine ⟨⟨?_, ?_, rfl, rfl, rfl, rfl⟩, once_nil rfl⟩
  · simp [Accepted, initial]
  · simp [Disabled, Requested, initial]

theorem running_issue (running : Running s a e) (on : request ≠ .enable true)
    (off : request ≠ .enable false) : Running (s.issue request accepted) a e := by
  obtain ⟨kernel, disabled, enabled, exiting, signalled, starts⟩ := running
  refine ⟨?_, ?_, enabled, exiting, signalled, starts⟩
  · exact (accepted_issue_other s accepted on).trans kernel
  · rwa [disabled_issue_other s accepted off]

theorem leaving_issue (leaving : Leaving s) (on : request ≠ .enable true)
    (off : request ≠ .enable false) : Leaving (s.issue request accepted) := by
  have kernel := accepted_issue_other s accepted on
  have disabled := disabled_issue_other s accepted off
  refine ⟨?_, ?_⟩
  · rw [kernel, disabled]
    exact leaving.window
  · rw [kernel, disabled]
    exact leaving.enabled

/-- From `main` the exit path is entered with `trace_enabled` true to the kernel. -/
theorem leaving_of_running (running : Running s on on) : Leaving s := by
  refine ⟨?_, ?_⟩
  · intro interrupted
    exact absurd (running.signalled.symm.trans interrupted) nofun
  · intro accepted
    exact Or.inr (Or.inr (running.traceEnabled.trans (running.accepted.mp accepted)))

theorem running_pc (running : Running s a e) (pc : Pc) : Running { s with pc } a e :=
  ⟨running.accepted, running.disabled, running.traceEnabled, running.exiting, running.signalled,
    running.starts⟩

theorem leaving_pc (leaving : Leaving s) (pc : Pc) : Leaving { s with pc } :=
  ⟨leaving.window, leaving.enabled⟩

/-! ### The kernel calls -/

/-- In `main` a failure starts the exit path. -/
theorem inv_ukdbgExit (running : Running s on on) : Inv s.ukdbgExit := by
  obtain ⟨window, enabled⟩ := leaving_of_running running
  refine ⟨⟨window, enabled⟩, ?_⟩
  intro earlier suffix
  have started : s.ukdbgExit.starts = [.failure] := congrArg (Start.failure :: ·) running.starts
  rw [started, List.suffix_cons_iff, List.suffix_nil] at suffix
  exact suffix.elim List.tail_eq_of_cons_eq nofun

theorem inv_checked (running : Running s on on) (enable : request ≠ .enable true)
    (disable : request ≠ .enable false) (behind : ∀ s', Running s' on on → At s' next) :
    Inv (s.checked request accepted next) := by
  have issued : Running (s.issue request accepted) on on := running_issue running enable disable
  unfold checked
  split
  · exact ⟨behind _ (running_pc issued next), once_nil issued.starts⟩
  · exact inv_ukdbgExit issued

theorem tolerated_running (running : Running s a e) (request : Request) (accepted : Bool)
    (next : Pc) : s.tolerated request accepted next = s.checked request accepted next := by
  unfold tolerated checked
  rw [running.exiting]
  cases accepted <;> rfl

theorem tolerated_exiting {s : Tracer} (exiting : s.exiting = true) (request : Request)
    (accepted : Bool) (next : Pc) :
    s.tolerated request accepted next = { s.issue request accepted with pc := next } := by
  unfold tolerated
  rw [exiting]
  cases accepted <;> rfl

/-! ### The exit path -/

theorem at_behindPid (leaving : Leaving s) (exiting : s.exiting = true)
    (enabled : s.traceEnabled = false) (unfiltered : 0 < s.pid → s.Unfiltered) :
    At s s.behindPid := by
  unfold behindPid
  split
  · exact ⟨leaving, exiting, enabled, unfiltered⟩
  · exact ⟨leaving, exiting, enabled, unfiltered⟩

theorem at_behindTrace (leaving : Leaving s) (exiting : s.exiting = true)
    (enabled : s.traceEnabled = false) : At s s.behindTrace := by
  unfold behindTrace
  split
  · exact ⟨leaving, exiting, enabled⟩
  · exact at_behindPid leaving exiting enabled fun filtered => absurd filtered ‹_›

theorem inv_ukdbgExitHandler (leaving : Leaving s) (once : Once s) : Inv s.ukdbgExitHandler := by
  refine ⟨?_, once⟩
  have entered : Leaving s.ukdbgExitHandler := ⟨leaving.window, leaving.enabled⟩
  cases enabled : s.traceEnabled with
  | true =>
    have next : s.ukdbgExitHandler.pc = .setenable false := if_pos enabled
    rw [next]
    exact ⟨entered, rfl, enabled⟩
  | false =>
    have next : s.ukdbgExitHandler.pc = s.ukdbgExitHandler.behindTrace :=
      if_neg (by simp [enabled])
    rw [next]
    exact at_behindTrace entered rfl enabled

/-- Disabling reaches its end whatever the kernel answers. -/
theorem inv_disable (leaving : Leaving s) (exiting : s.exiting = true)
    (enabled : s.traceEnabled = true) (once : Once s) (accepted : Bool) :
    Inv (s.ukdbgSetenable false accepted) := by
  unfold ukdbgSetenable
  rw [tolerated_exiting exiting]
  have disabled : (s.issue (.enable false) accepted).Disabled :=
    (requested_issue ..).mpr (Or.inl rfl)
  refine ⟨⟨⟨?_, fun _ => Or.inr (Or.inl disabled)⟩, exiting, disabled⟩, once⟩
  intro interrupted
  exact absurd ((leaving.window interrupted).2.2.symm.trans enabled) nofun

theorem inv_disabled (leaving : Leaving s) (exiting : s.exiting = true) (disabled : s.Disabled)
    (once : Once s) : Inv { s with traceEnabled := false, pc := s.behindTrace } := by
  refine ⟨at_behindTrace ⟨?_, fun _ => Or.inr (Or.inl disabled)⟩ exiting rfl, once⟩
  intro interrupted
  exact absurd disabled (leaving.window interrupted).2.1

theorem inv_unfilter (leaving : Leaving s) (exiting : s.exiting = true)
    (enabled : s.traceEnabled = false) (once : Once s) (accepted : Bool) :
    Inv (s.ukdbgSetpidcheck false accepted) := by
  unfold ukdbgSetpidcheck
  rw [tolerated_exiting exiting]
  have issued : Leaving (s.issue (.pidtr false) accepted) := leaving_issue leaving nofun nofun
  have unfiltered : (s.issue (.pidtr false) accepted).Unfiltered :=
    (requested_issue ..).mpr (Or.inl rfl)
  exact ⟨at_behindPid (leaving_pc issued _) exiting enabled fun _ => unfiltered, once⟩

/-! ### Statements -/

theorem inv_ukdbgClear (running : Running s false false) (accepted : Bool) :
    Inv (s.ukdbgClear false accepted) := by
  have issued : Running (s.issue .remove accepted) false false :=
    running_issue running nofun nofun
  unfold ukdbgClear
  split
  · exact ⟨running_pc issued .dropRemoveFlag, once_nil issued.starts⟩
  · exact ⟨running_pc issued .setbuf, once_nil issued.starts⟩

theorem inv_ukdbgReinit (running : Running s false false) (accepted : Bool) :
    Inv (s.ukdbgReinit accepted) := by
  refine inv_checked running nofun nofun ?_
  intro s' later
  split
  · exact later
  · exact later

theorem inv_enable (running : Running s false false) (accepted : Bool) :
    Inv (s.ukdbgSetenable true accepted) := by
  have issued : Running (s.issue (.enable true) accepted) accepted false := by
    have other : Request.enable true ≠ .enable false := by decide
    refine ⟨?_, ?_, running.traceEnabled, running.exiting, running.signalled, running.starts⟩
    · rw [accepted_issue, running.accepted]
      simp
    · rw [disabled_issue_other s accepted other]
      exact running.disabled
  unfold ukdbgSetenable
  rw [tolerated_running running]
  cases accepted with
  | true => exact ⟨running_pc issued (.assignEnabled true), once_nil issued.starts⟩
  | false => exact inv_ukdbgExit issued

/-- On the exit path a refused `KERN_KDREMOVE` does not matter. -/
theorem inv_remove (left : At s (.clear true)) (once : Once s) (accepted : Bool) :
    Inv (s.ukdbgClear true accepted) := by
  obtain ⟨leaving, exiting, enabled, unfiltered⟩ := left
  have issued : Leaving (s.issue .remove accepted) := leaving_issue leaving nofun nofun
  have same : s.ukdbgClear true accepted = { s.issue .remove accepted with pc := .exited } := by
    unfold ukdbgClear
    rw [exiting]
    cases accepted <;> rfl
  rw [same]
  refine ⟨⟨leaving_pc issued .exited, exiting, enabled, ?_⟩, once⟩
  exact fun filtered => (requested_issue ..).mpr (Or.inr (unfiltered filtered))

theorem inv_sysctl (inv : Inv s) (stepped : step s (.sysctl accepted) = some t) : Inv t := by
  obtain ⟨at_, once⟩ := inv
  cases pc : s.pc <;> rw [pc] at at_ <;>
    simp only [step, pc, Option.some.injEq, reduceCtorEq] at stepped <;> subst stepped
  case clear exiting =>
    cases exiting with
    | false => exact inv_ukdbgClear at_ accepted
    | true => exact inv_remove at_ once accepted
  case setbuf => exact inv_checked at_ nofun nofun fun _ later => later
  case reinit => exact inv_ukdbgReinit at_ accepted
  case setpidcheck check =>
    cases check with
    | true =>
      unfold ukdbgSetpidcheck
      rw [tolerated_running at_]
      exact inv_checked at_ nofun nofun fun _ later => later
    | false =>
      obtain ⟨leaving, exiting, enabled⟩ := at_
      exact inv_unfilter leaving exiting enabled once accepted
  case setregValcheck => exact inv_checked at_ nofun nofun fun _ later => later
  case setenable enable =>
    cases enable with
    | true => exact inv_enable at_ accepted
    | false =>
      obtain ⟨leaving, exiting, enabled⟩ := at_
      exact inv_disable leaving exiting enabled once accepted
  case getbuf => exact inv_checked at_ nofun nofun fun _ later => later
  case read => exact inv_checked at_ nofun nofun fun _ later => later

theorem inv_assign (inv : Inv s) (stepped : step s .assign = some t) : Inv t := by
  obtain ⟨at_, once⟩ := inv
  cases pc : s.pc <;> rw [pc] at at_ <;>
    simp only [step, pc, Option.some.injEq, reduceCtorEq] at stepped <;> subst stepped
  case dropRemoveFlag =>
    have dropped : Running { s with setRemoveFlag := false, pc := .dropRemoveFlag } false false :=
      ⟨at_.accepted, at_.disabled, at_.traceEnabled, at_.exiting, at_.signalled, at_.starts⟩
    exact inv_ukdbgExit dropped
  case assignEnabled enable =>
    cases enable with
    | true => exact ⟨⟨at_.accepted, at_.disabled, rfl, at_.exiting, at_.signalled, at_.starts⟩, once⟩
    | false =>
      obtain ⟨leaving, exiting, disabled⟩ := at_
      exact inv_disabled leaving exiting disabled once
  case exitHandler => exact inv_ukdbgExitHandler at_ once

/-- Where the signal can find the program. -/
theorem at_phase {pc : Pc} (at_ : At s pc) : (pc ≠ .assignEnabled true ∧ ∃ on, Running s on on) ∨
    pc = .assignEnabled true ∧ Running s true false ∨ pc ≠ .assignEnabled true ∧ Leaving s := by
  cases pc with
  | clear exiting =>
    cases exiting with
    | false => exact Or.inl ⟨nofun, false, at_⟩
    | true => exact Or.inr (Or.inr ⟨nofun, at_.1⟩)
  | setpidcheck check =>
    cases check with
    | false => exact Or.inr (Or.inr ⟨nofun, at_.1⟩)
    | true => exact Or.inl ⟨nofun, false, at_⟩
  | setenable enable =>
    cases enable with
    | false => exact Or.inr (Or.inr ⟨nofun, at_.1⟩)
    | true => exact Or.inl ⟨nofun, false, at_⟩
  | assignEnabled enable =>
    cases enable with
    | false => exact Or.inr (Or.inr ⟨nofun, at_.1⟩)
    | true => exact Or.inr (Or.inl ⟨rfl, at_⟩)
  | getbuf | read => exact Or.inl ⟨nofun, true, at_⟩
  | exitHandler => exact Or.inr (Or.inr ⟨nofun, at_⟩)
  | exited => exact Or.inr (Or.inr ⟨nofun, at_.1⟩)
  | allocate | dropRemoveFlag | setbuf | reinit | setregValcheck | failed =>
    exact Or.inl ⟨nofun, false, at_⟩

theorem inv_signal (inv : Inv s) (stepped : step s .signal = some t) : Inv t := by
  obtain ⟨at_, once⟩ := inv
  simp only [step, Option.ite_none_right_eq_some, Option.some.injEq] at stepped
  obtain ⟨⟨fresh, _, _⟩, same⟩ := stepped
  subst same
  have started : ∀ earlier, Start.failure :: earlier <:+ .signal :: s.starts → earlier = [] := by
    intro earlier suffix
    exact once earlier ((List.suffix_cons_iff.mp suffix).resolve_left nofun)
  refine ⟨?_, started⟩
  rcases at_phase at_ with ⟨outside, on, running⟩ | ⟨inside, running⟩ | ⟨outside, leaving⟩
  · refine ⟨fun interrupted => absurd (Option.some.inj interrupted) outside, ?_⟩
    exact fun accepted => Or.inr (Or.inr (running.traceEnabled.trans (running.accepted.mp accepted)))
  · refine ⟨?_, fun _ => Or.inl (congrArg some inside)⟩
    exact fun _ => ⟨running.accepted.mpr rfl, running.disabled, running.traceEnabled⟩
  · refine ⟨fun interrupted => absurd (Option.some.inj interrupted) outside, ?_⟩
    intro accepted
    rcases leaving.enabled accepted with interrupted | rest
    · exact absurd (fresh.symm.trans interrupted) nofun
    · exact Or.inr rest

theorem inv_step (s : Tracer) (label : Label) (t : Tracer) (inv : Inv s)
    (stepped : stepOf step s label t) : Inv t := by
  cases label with
  | malloc allocated =>
    simp only [stepOf, step, Option.ite_none_right_eq_some, Option.some.injEq] at stepped
    obtain ⟨pc, same⟩ := stepped
    subst same
    obtain ⟨at_, once⟩ := inv
    rw [pc] at at_
    refine ⟨?_, once⟩
    cases allocated with
    | true => exact running_pc at_ _
    | false => exact running_pc at_ _
  | sysctl accepted => exact inv_sysctl inv stepped
  | assign => exact inv_assign inv stepped
  | signal => exact inv_signal inv stepped

/-! ### Runs -/

/-- What the exit path owes to a trace that the kernel has accepted. -/
structure CleanedUp (s : Tracer) : Prop where
  disabled : s.Accepted → s.Disabled
  unfiltered : s.Accepted → 0 < s.pid → s.Unfiltered

/-- The signal does not come between the kernel call and the assignment. -/
def OutsideWindow (s : Tracer) (label : Label) : Prop :=
  label = .signal → s.pc ≠ .assignEnabled true

theorem run_inv {pid : Int32} (run : Run (stepOf step) (initial pid) labels s) : Inv s :=
  run.invariant inv_step (inv_initial pid)

theorem exited_cleanedUp_iff (inv : Inv s) (exited : s.pc = .exited) :
    CleanedUp s ↔ ¬ s.Interrupted := by
  obtain ⟨at_, _⟩ := inv
  rw [exited] at at_
  obtain ⟨leaving, _, enabled, unfiltered⟩ := at_
  constructor
  · intro clean interrupted
    obtain ⟨accepted, undone, _⟩ := leaving.window interrupted
    exact undone (clean.disabled accepted)
  · intro outside
    refine ⟨?_, fun _ => unfiltered⟩
    intro accepted
    rcases leaving.enabled accepted with interrupted | disabled | on
    · exact absurd interrupted outside
    · exact disabled
    · exact absurd (enabled.symm.trans on) nofun

theorem signalledAt_checked (s : Tracer) (request : Request) (accepted : Bool) (next : Pc) :
    (s.checked request accepted next).signalledAt = s.signalledAt := by
  unfold checked
  split <;> rfl

theorem signalledAt_tolerated (s : Tracer) (request : Request) (accepted : Bool) (next : Pc) :
    (s.tolerated request accepted next).signalledAt = s.signalledAt := by
  unfold tolerated
  split <;> rfl

theorem signalledAt_ukdbgClear (s : Tracer) (exiting accepted : Bool) :
    (s.ukdbgClear exiting accepted).signalledAt = s.signalledAt := by
  unfold ukdbgClear
  split <;> rfl

/-- No step but the arrival of the signal touches the record of it. -/
theorem signalledAt_step (stepped : step s label = some t) (other : label ≠ .signal) :
    t.signalledAt = s.signalledAt := by
  cases label with
  | malloc allocated =>
    simp only [step, Option.ite_none_right_eq_some, Option.some.injEq] at stepped
    rw [← stepped.2]
  | sysctl accepted =>
    cases pc : s.pc <;> simp only [step, pc, Option.some.injEq, reduceCtorEq] at stepped <;>
      subst stepped
    case clear exiting => exact signalledAt_ukdbgClear s exiting accepted
    case setpidcheck | setenable => exact signalledAt_tolerated ..
    all_goals exact signalledAt_checked ..
  | assign =>
    cases pc : s.pc <;> simp only [step, pc, Option.some.injEq, reduceCtorEq] at stepped <;>
      subst stepped <;> rfl
  | signal => contradiction

theorem signal_step (stepped : step s .signal = some t) :
    s.signalledAt = none ∧ t.signalledAt = some s.pc := by
  simp only [step, Option.ite_none_right_eq_some, Option.some.injEq] at stepped
  obtain ⟨⟨fresh, _, _⟩, same⟩ := stepped
  subst same
  exact ⟨fresh, rfl⟩

/-- The one signal stays recorded. -/
theorem interrupted_step (s : Tracer) (label : Label) (t : Tracer) (interrupted : s.Interrupted)
    (stepped : stepOf step s label t) : t.Interrupted := by
  by_cases arrives : label = .signal
  · subst arrives
    exact absurd ((signal_step stepped).1.symm.trans interrupted) nofun
  · exact (signalledAt_step stepped arrives).trans interrupted

theorem run_outsideWindow (run : Run (stepOf step) s labels t) (outside : ¬ t.Interrupted) :
    Run (restrict (stepOf step) OutsideWindow) s labels t := by
  induction run with
  | stay s => exact .stay s
  | next head tail ih =>
    refine .next ⟨?_, head⟩ (ih outside)
    intro arrives inside
    subst arrives
    have interrupted : Interrupted _ := (signal_step head).2.trans (congrArg some inside)
    exact outside (tail.invariant interrupted_step interrupted)

theorem not_interrupted_step (s : Tracer) (label : Label) (t : Tracer) (outside : ¬ s.Interrupted)
    (stepped : restrict (stepOf step) OutsideWindow s label t) : ¬ t.Interrupted := by
  obtain ⟨guard, stepped⟩ := stepped
  intro interrupted
  by_cases arrives : label = .signal
  · subst arrives
    have place := (signal_step stepped).2.symm.trans interrupted
    exact guard rfl (Option.some.inj place)
  · exact outside ((signalledAt_step stepped arrives).symm.trans interrupted)

/-- The exit path is started once by a failure at most, and at its end the clean-up is
complete exactly when the signal has not come in the window. -/
theorem run_cleanedUp_iff {pid : Int32} (run : Run (stepOf step) (initial pid) labels s) :
    Once s ∧ (s.pc = .exited →
      (CleanedUp s ↔ Run (restrict (stepOf step) OutsideWindow) (initial pid) labels s)) := by
  have inv := run_inv run
  refine ⟨inv.2, ?_⟩
  intro exited
  rw [exited_cleanedUp_iff inv exited]
  constructor
  · exact run_outsideWindow run
  · intro guarded
    exact guarded.invariant (P := fun s => ¬ s.Interrupted) not_interrupted_step nofun

/-- The set-up with a pid, up to the acceptance by the kernel. -/
def setUp : List Label :=
  [.malloc true, .sysctl true, .sysctl true, .sysctl true, .sysctl true, .sysctl true, .sysctl true]

/-- The signal comes before the first read. -/
def sampling : List Label :=
  setUp ++ [.assign, .sysctl true, .signal, .assign, .sysctl true, .assign, .sysctl true, .sysctl true]

theorem run_cleanedUp_iff_sampling :
    ∃ s, Run (stepOf step) (initial 42) sampling s ∧ s.pc = .exited ∧ CleanedUp s := by
  have run : Run (stepOf step) (initial 42) sampling _ := exec_run rfl
  have guarded := run_outsideWindow run nofun
  exact ⟨_, run, rfl, ((run_cleanedUp_iff run).2 rfl).mpr guarded⟩

/-- The signal comes one statement too early. -/
def tooEarly : List Label := setUp ++ [.signal, .assign, .sysctl true, .sysctl true]

/-- The kernel goes on tracing. -/
theorem tooEarly_leaks :
    ∃ s, Run (stepOf step) (initial 42) tooEarly s ∧ s.pc = .exited ∧ ¬ CleanedUp s := by
  have run : Run (stepOf step) (initial 42) tooEarly _ := exec_run rfl
  refine ⟨_, run, rfl, ?_⟩
  intro clean
  exact (exited_cleanedUp_iff (run_inv run) rfl).mp clean rfl

end MonitoringDemos.Kdebug
