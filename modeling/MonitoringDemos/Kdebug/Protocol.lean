import MonitoringDemos.Transition
import MonitoringDemos.Kdebug.Tracer

/-! The order in which the tracer asks the kernel, over all answers and all arrivals of
signals: the set-up, the polls, and the requests of the exit path. -/
namespace MonitoringDemos.Kdebug
open Transition Tracer

/-- A step of the tracer when signals may also arrive in the handler: each of them finds the
program as the first one does. -/
def interruptible (s : Tracer) : Label → Option Tracer
  | .signal => step { s with signalledAt := none } .signal
  | label => step s label

/-- A run with one signal is a run with several. -/
theorem run_interruptible (run : Run (stepOf step) s labels t) :
    Run (stepOf interruptible) s labels t := by
  apply run.mono
  intro s label t stepped
  cases label with
  | signal =>
    obtain ⟨⟨fresh, _⟩, _⟩ := Option.ite_none_right_eq_some.mp stepped
    have same : { s with signalledAt := none } = s := by rw [← fresh]
    rw [stepOf, interruptible, same]
    exact stepped
  | _ => exact stepped

/-! ### The sequences -/

def filterRequests (pid : Int32) (check : Bool) : List Request :=
  if 0 < pid then [.pidtr check] else []

def removeRequests (setRemoveFlag : Bool) : List Request := if setRemoveFlag then [.remove] else []

/-- The requests of `main` in front of its loop. -/
def setUpRequests (pid : Int32) : List Request :=
  [.remove, .setbuf kdbgSampleSize, .setup] ++ filterRequests pid true ++ [.setreg, .enable true]

def pollRequests (n : Nat) : List Request := (List.replicate n [Request.getbuf, .readtr]).flatten

/-- The requests of `main` up to a number of turns of its loop. -/
def mainRequests (pid : Int32) (n : Nat) : List Request := setUpRequests pid ++ pollRequests n

/-- The requests of `ukdbg_exit_handler`. -/
def exitRequests (pid : Int32) (traceEnabled setRemoveFlag : Bool) : List Request :=
  (if traceEnabled then [.enable false] else []) ++ filterRequests pid false ++
    removeRequests setRemoveFlag

/-- What `main` asks behind a statement before it is back at the head of its loop. -/
def toLoop (pid : Int32) : Pc → List Request
  | .allocate | .clear false | .failed => setUpRequests pid
  | .setbuf =>
    [.setbuf kdbgSampleSize, .setup] ++ filterRequests pid true ++ [.setreg, .enable true]
  | .reinit => .setup :: filterRequests pid true ++ [.setreg, .enable true]
  | .setpidcheck true => [.pidtr true, .setreg, .enable true]
  | .setregValcheck => [.setreg, .enable true]
  | .setenable true => [.enable true]
  | .read => [.readtr]
  | _ => []

/-- What the handler asks behind one of its statements. -/
def toExit (pid : Int32) (setRemoveFlag : Bool) : Pc → List Request
  | .setenable false => .enable false :: filterRequests pid false ++ removeRequests setRemoveFlag
  | .assignEnabled false => filterRequests pid false ++ removeRequests setRemoveFlag
  | .setpidcheck false => .pidtr false :: removeRequests setRemoveFlag
  | .clear true => [.remove]
  | _ => []

theorem mainRequests_succ (pid : Int32) (n : Nat) :
    mainRequests pid (n + 1) = mainRequests pid n ++ [.getbuf, .readtr] := by
  simp only [mainRequests, pollRequests, List.replicate_succ', List.flatten_append,
    List.flatten_singleton, List.append_assoc]

theorem toExit_behindPid (s : Tracer) :
    toExit s.pid s.setRemoveFlag s.behindPid = removeRequests s.setRemoveFlag := by
  unfold behindPid removeRequests
  split <;> rfl

theorem toExit_behindTrace (s : Tracer) : toExit s.pid s.setRemoveFlag s.behindTrace =
    filterRequests s.pid false ++ removeRequests s.setRemoveFlag := by
  unfold behindTrace filterRequests
  split
  · rfl
  · exact toExit_behindPid s

/-! ### What has been asked -/

def asked (issued : List Issued) : List Request := issued.map Issued.request

theorem asked_concat (issued : List Issued) (request : Request) (accepted : Bool) :
    asked (issued ++ [⟨request, accepted⟩]) = asked issued ++ [request] :=
  List.map_append

/-- The requests that `main` has made. Only the last may have been refused. -/
structure Before (pid : Int32) (traceEnabled setRemoveFlag : Bool) (before : List Issued) :
    Prop where
  order : ∃ n, asked before <+: mainRequests pid n
  accepted : ∀ issued ∈ before.dropLast, issued.accepted = true
  enabled : traceEnabled = true → setUpRequests pid <+: asked before
  removed : setRemoveFlag = false → before = [⟨.remove, false⟩]

/-- No request has been refused, and the exit path has not begun. -/
structure InMain (s : Tracer) : Prop where
  order : ∃ n, asked s.log.reverse ++ toLoop s.pid s.pc = mainRequests s.pid n
  accepted : ∀ issued ∈ s.log, issued.accepted = true
  enabled : s.traceEnabled = true → setUpRequests s.pid <+: asked s.log.reverse
  removes : s.setRemoveFlag = true
  exiting : s.exiting = false
  starts : s.starts = []

/-- Behind what `main` has asked lies what each further signal has cut short on the exit path,
and then what the exit path has asked since. -/
structure Left (s : Tracer) (before : List Issued) (abandoned : List (List Issued))
    (current : List Issued) : Prop where
  log : s.log.reverse = before ++ abandoned.flatten ++ current
  main : Before s.pid s.traceEnabled s.setRemoveFlag before
  cutShort : ∀ part ∈ abandoned, ∃ traceEnabled,
    asked part <+: exitRequests s.pid traceEnabled s.setRemoveFlag
  started : s.starts.length = abandoned.length + 1

/-- On the exit path, at one of its statements. -/
def Leaves (s : Tracer) : Prop := s.exiting = true ∧ ∃ before abandoned current traceEnabled,
  Left s before abandoned current ∧
    asked current ++ toExit s.pid s.setRemoveFlag s.pc =
      exitRequests s.pid traceEnabled s.setRemoveFlag

def Phase (s : Tracer) : Prop :=
  match s.pc with
  | .allocate | .clear false | .failed => InMain s ∧ s.log = []
  | .dropRemoveFlag => s.log = [⟨.remove, false⟩] ∧ s.traceEnabled = false ∧
      s.setRemoveFlag = true ∧ s.starts = []
  | .exitHandler => ∃ before abandoned, Left s before abandoned []
  | .setenable false | .assignEnabled false | .setpidcheck false | .clear true | .exited => Leaves s
  | _ => InMain s

/-- The statements of `main` between its first request and its last. -/
def Pc.OnMain : Pc → Bool
  | .setbuf | .reinit | .setpidcheck true | .setregValcheck | .setenable true
  | .assignEnabled true | .getbuf | .read => true
  | _ => false

theorem phase_onMain (main : InMain s) (onMain : s.pc.OnMain = true) : Phase s := by
  unfold Phase
  split <;> rename_i pc
  all_goals first
    | exact main
    | exact absurd onMain (by rw [pc]; simp [Pc.OnMain])

theorem InMain.before (main : InMain s) :
    Before s.pid s.traceEnabled s.setRemoveFlag s.log.reverse where
  order := by
    obtain ⟨n, order⟩ := main.order
    exact ⟨n, _, order⟩
  accepted issued member :=
    main.accepted issued (List.mem_reverse.mp (List.dropLast_subset _ member))
  enabled := main.enabled
  removed dropped := absurd (main.removes.symm.trans dropped) (by simp)

/-! ### The requests of `main` -/

/-- A request, refused or not, ends what `main` has asked. -/
theorem InMain.before_issue (main : InMain s)
    (order : ∃ n, asked s.log.reverse ++ [request] <+: mainRequests s.pid n) (accepted : Bool) :
    Before s.pid s.traceEnabled s.setRemoveFlag (s.log.reverse ++ [⟨request, accepted⟩]) where
  order := by
    rw [asked_concat]
    exact order
  accepted issued member := by
    rw [List.dropLast_concat] at member
    exact main.accepted issued (List.mem_reverse.mp member)
  enabled on := by
    rw [asked_concat]
    exact (main.enabled on).trans (List.prefix_append _ _)
  removed dropped := absurd (main.removes.symm.trans dropped) (by simp)

/-- A request that is refused starts the exit path. -/
theorem phase_refused (main : InMain s)
    (order : ∃ n, asked s.log.reverse ++ [request] <+: mainRequests s.pid n) :
    Phase (s.issue request false).ukdbgExit := by
  refine ⟨_, [], ⟨?_, main.before_issue order false, List.forall_mem_nil _, ?_⟩⟩
  · simp [ukdbgExit, issue]
  · simp [ukdbgExit, issue, main.starts]

theorem InMain.issue (main : InMain s)
    (order : ∃ n, asked s.log.reverse ++ request :: toLoop s.pid next = mainRequests s.pid n) :
    InMain { s.issue request true with pc := next } where
  order := by
    obtain ⟨n, order⟩ := order
    refine ⟨n, Eq.trans ?_ order⟩
    simp [Tracer.issue, asked]
  accepted issued member := by
    rcases List.mem_cons.mp member with rfl | older
    · rfl
    · exact main.accepted issued older
  enabled on := by
    simp only [Tracer.issue, List.reverse_cons, asked_concat]
    exact (main.enabled on).trans (List.prefix_append _ _)
  removes := main.removes
  exiting := main.exiting
  starts := main.starts

theorem phase_checked (main : InMain s)
    (order : ∃ n, asked s.log.reverse ++ request :: toLoop s.pid next = mainRequests s.pid n)
    (onMain : next.OnMain = true) (accepted : Bool) :
    Phase (s.checked request accepted next) := by
  cases accepted with
  | true => exact phase_onMain (main.issue order) onMain
  | false =>
    obtain ⟨n, order⟩ := order
    exact phase_refused main ⟨n, toLoop s.pid next, by rw [← order]; simp⟩

theorem phase_asks (main : InMain s) (asks : toLoop s.pid s.pc = request :: toLoop s.pid next)
    (onMain : next.OnMain = true) (accepted : Bool) :
    Phase (s.checked request accepted next) := by
  have order := main.order
  rw [asks] at order
  exact phase_checked main order onMain accepted

theorem tolerated_main (main : InMain s) (request : Request) (accepted : Bool) (next : Pc) :
    s.tolerated request accepted next = s.checked request accepted next := by
  unfold tolerated checked
  rw [main.exiting]
  cases accepted <;> rfl

/-- The head of the loop is reached with a whole number of polls. -/
theorem InMain.loop (main : InMain s) (loop : toLoop s.pid s.pc = []) :
    ∃ n, asked s.log.reverse = mainRequests s.pid n := by
  obtain ⟨n, order⟩ := main.order
  rw [loop, List.append_nil] at order
  exact ⟨n, order⟩

theorem phase_ukdbgClear (main : InMain s) (first : s.log = []) (pc : s.pc = .clear false)
    (accepted : Bool) : Phase (s.ukdbgClear false accepted) := by
  have order := main.order
  simp only [pc, toLoop] at order
  cases accepted with
  | true =>
    have same : s.ukdbgClear false true = { s.issue .remove true with pc := .setbuf } := by
      simp [ukdbgClear]
    rw [same]
    exact main.issue order
  | false =>
    have same : s.ukdbgClear false false =
        { s.issue .remove false with pc := .dropRemoveFlag } := by
      simp [ukdbgClear, main.exiting]
    rw [same]
    refine ⟨?_, ?_, main.removes, main.starts⟩
    · simp [issue, first]
    · rw [← Bool.not_eq_true]
      intro on
      have whole := main.enabled on
      rw [first] at whole
      exact absurd (List.prefix_nil.mp whole) (by simp [setUpRequests])

theorem phase_dropped {s : Tracer} (log : s.log = [⟨.remove, false⟩])
    (off : s.traceEnabled = false) (starts : s.starts = []) :
    Phase { s with setRemoveFlag := false }.ukdbgExit := by
  have before : Before s.pid s.traceEnabled false [⟨.remove, false⟩] :=
    { order := ⟨0, by simp [asked, mainRequests, setUpRequests]⟩
      accepted := List.forall_mem_nil _
      enabled := fun on => absurd (off.symm.trans on) (by simp)
      removed := fun _ => rfl }
  refine ⟨_, [], ⟨?_, before, List.forall_mem_nil _, ?_⟩⟩
  · simp [ukdbgExit, log]
  · simp [ukdbgExit, starts]

/-- `trace_enabled` is set when the whole set-up has been accepted. -/
theorem phase_enabled (main : InMain s) (pc : s.pc = .assignEnabled true) :
    Phase { s with traceEnabled := true, pc := .getbuf } := by
  obtain ⟨n, order⟩ := main.loop (by rw [pc]; rfl)
  have enabled : InMain { s with traceEnabled := true, pc := .getbuf } :=
    { order := ⟨n, by simpa [toLoop] using order⟩
      accepted := main.accepted
      enabled := fun _ => ⟨pollRequests n, order.symm⟩
      removes := main.removes
      exiting := main.exiting
      starts := main.starts }
  exact enabled

/-! ### The exit path -/

theorem Left.entered (left : Left s before abandoned []) :
    Leaves s.ukdbgExitHandler := by
  refine ⟨rfl, before, abandoned, [], s.traceEnabled, ?_, ?_⟩
  · exact ⟨left.log, left.main, left.cutShort, left.started⟩
  · cases on : s.traceEnabled with
    | true => simp [ukdbgExitHandler, on, toExit, asked, exitRequests]
    | false =>
      have behind := toExit_behindTrace s
      simpa [ukdbgExitHandler, on, asked, exitRequests] using behind

/-- A request on the exit path, whatever the kernel answers. -/
theorem Leaves.issue (leaves : Leaves s)
    (order : toExit s.pid s.setRemoveFlag s.pc = request :: toExit s.pid s.setRemoveFlag next)
    (accepted : Bool) : Leaves { s.issue request accepted with pc := next } := by
  obtain ⟨exiting, before, abandoned, current, traceEnabled, left, sequence⟩ := leaves
  refine ⟨exiting, before, abandoned, current ++ [⟨request, accepted⟩], traceEnabled, ?_, ?_⟩
  · refine ⟨?_, left.main, left.cutShort, left.started⟩
    simp only [Tracer.issue, List.reverse_cons, left.log, List.append_assoc]
  · rw [order] at sequence
    refine Eq.trans ?_ sequence
    rw [asked_concat]
    exact List.append_assoc _ _ _

theorem tolerated_leaves (leaves : Leaves s) (request : Request) (accepted : Bool) (next : Pc) :
    s.tolerated request accepted next = { s.issue request accepted with pc := next } := by
  unfold tolerated
  rw [leaves.1]
  cases accepted <;> rfl

theorem ukdbgClear_leaves (leaves : Leaves s) (accepted : Bool) :
    s.ukdbgClear true accepted = { s.issue .remove accepted with pc := .exited } := by
  unfold ukdbgClear
  rw [leaves.1]
  cases accepted <;> rfl

theorem Leaves.disabled (leaves : Leaves s) (pc : s.pc = .assignEnabled false) :
    Leaves { s with traceEnabled := false, pc := s.behindTrace } := by
  obtain ⟨exiting, before, abandoned, current, traceEnabled, left, sequence⟩ := leaves
  refine ⟨exiting, before, abandoned, current, traceEnabled, ?_, ?_⟩
  · have kept : Before s.pid false s.setRemoveFlag before :=
      ⟨left.main.order, left.main.accepted, fun on => absurd on (by simp), left.main.removed⟩
    exact ⟨left.log, kept, left.cutShort, left.started⟩
  · rw [← sequence, pc]
    exact congrArg (asked current ++ ·) (toExit_behindTrace s)

/-- The statements of `ukdbg_exit_handler`. -/
def Pc.OnExit (pc : Pc) : Prop :=
  pc = .setenable false ∨ pc = .assignEnabled false ∨ pc = .setpidcheck false ∨
    pc = .clear true ∨ pc = .exited

theorem phase_onExit (exit : s.pc.OnExit) : Phase s ↔ Leaves s := by
  unfold Phase
  rcases exit with pc | pc | pc | pc | pc <;> rw [pc]

theorem onExit_behindPid (s : Tracer) : s.behindPid.OnExit := by
  unfold behindPid
  split
  · exact .inr (.inr (.inr (.inl rfl)))
  · exact .inr (.inr (.inr (.inr rfl)))

theorem onExit_behindTrace (s : Tracer) : s.behindTrace.OnExit := by
  unfold behindTrace
  split
  · exact .inr (.inr (.inl rfl))
  · exact onExit_behindPid s

theorem onExit_entered (s : Tracer) : s.ukdbgExitHandler.pc.OnExit := by
  unfold ukdbgExitHandler
  split
  · exact .inl rfl
  · exact onExit_behindTrace s

/-! ### Steps -/

theorem phase_sysctl_main (phase : Phase s) (stepped : step s (.sysctl accepted) = some t)
    (inside : ¬ s.pc.OnExit) : Phase t := by
  unfold Phase at phase
  cases pc : s.pc <;> rw [pc] at phase <;>
    simp only [step, pc, Option.some.injEq, reduceCtorEq] at stepped <;> subst stepped
  case clear exiting =>
    cases exiting with
    | true => exact absurd (.inr (.inr (.inr (.inl pc)))) inside
    | false => exact phase_ukdbgClear phase.1 phase.2 pc accepted
  case setbuf =>
    exact phase_asks phase (by rw [pc]; rfl) rfl _
  case reinit =>
    unfold ukdbgReinit
    by_cases filtered : 0 < s.pid
    · rw [if_pos filtered]
      refine phase_asks phase ?_ rfl _
      simp [pc, toLoop, filterRequests, filtered]
    · rw [if_neg filtered]
      refine phase_asks phase ?_ rfl _
      simp [pc, toLoop, filterRequests, filtered]
  case setpidcheck check =>
    cases check with
    | false => exact absurd (.inr (.inr (.inl pc))) inside
    | true =>
      unfold ukdbgSetpidcheck
      rw [tolerated_main phase]
      exact phase_asks phase (by rw [pc]; rfl) rfl _
  case setregValcheck =>
    exact phase_asks phase (by rw [pc]; rfl) rfl _
  case setenable enable =>
    cases enable with
    | false => exact absurd (.inl pc) inside
    | true =>
      unfold ukdbgSetenable
      rw [tolerated_main phase]
      exact phase_asks phase (by rw [pc]; rfl) rfl _
  case getbuf =>
    obtain ⟨n, polls⟩ := phase.loop (by rw [pc]; rfl)
    refine phase_checked phase ⟨n + 1, ?_⟩ rfl _
    rw [mainRequests_succ, ← polls]
    rfl
  case read =>
    exact phase_asks phase (by rw [pc]; rfl) rfl _

theorem phase_sysctl_exit (leaves : Leaves s) (stepped : step s (.sysctl accepted) = some t)
    (exit : s.pc.OnExit) : Phase t := by
  rcases exit with pc | pc | pc | pc | pc <;>
    simp only [step, pc, Option.some.injEq, reduceCtorEq] at stepped <;> subst stepped
  case inl =>
    unfold ukdbgSetenable
    rw [tolerated_leaves leaves]
    exact (phase_onExit (.inr (.inl rfl))).mpr (leaves.issue (by rw [pc]; rfl) accepted)
  case inr.inr.inl =>
    have order := toExit_behindPid s
    unfold ukdbgSetpidcheck
    rw [tolerated_leaves leaves]
    refine (phase_onExit (onExit_behindPid s)).mpr (leaves.issue ?_ accepted)
    rw [pc, toExit, ← order]
    rfl
  case inr.inr.inr.inl =>
    rw [ukdbgClear_leaves leaves]
    refine (phase_onExit (.inr (.inr (.inr (.inr rfl))))).mpr ?_
    exact leaves.issue (by rw [pc]; rfl) accepted

theorem phase_assign (phase : Phase s) (stepped : step s .assign = some t) : Phase t := by
  cases pc : s.pc <;> simp only [step, pc, Option.some.injEq, reduceCtorEq] at stepped <;>
    subst stepped
  case dropRemoveFlag =>
    rw [Phase, pc] at phase
    obtain ⟨log, off, _, starts⟩ := phase
    exact phase_dropped log off starts
  case assignEnabled enable =>
    cases enable with
    | true =>
      rw [Phase, pc] at phase
      exact phase_enabled phase pc
    | false =>
      have leaves := (phase_onExit (.inr (.inl pc))).mp phase
      exact (phase_onExit (onExit_behindTrace s)).mpr (leaves.disabled pc)
  case exitHandler =>
    rw [Phase, pc] at phase
    obtain ⟨before, abandoned, left⟩ := phase
    exact (phase_onExit (onExit_entered s)).mpr left.entered

/-- The requests of a run: those of `main`, of which only the last may have been refused, a
part of the exit path for each time that a signal has cut it short, and those of the exit
path since. -/
structure Follows (s : Tracer) (before : List Issued) (abandoned : List (List Issued))
    (current : List Issued) : Prop where
  log : s.log.reverse = before ++ abandoned.flatten ++ current
  main : Before s.pid s.traceEnabled s.setRemoveFlag before
  cutShort : ∀ part ∈ abandoned, ∃ traceEnabled,
    asked part <+: exitRequests s.pid traceEnabled s.setRemoveFlag
  parts : abandoned.length = s.starts.length - 1
  running : s.starts = [] → current = []
  exit : ∃ traceEnabled, asked current <+: exitRequests s.pid traceEnabled s.setRemoveFlag ∧
    (s.pc = .exited → asked current = exitRequests s.pid traceEnabled s.setRemoveFlag)

theorem Before.follows (before : Before s.pid s.traceEnabled s.setRemoveFlag s.log.reverse)
    (starts : s.starts = []) (goes : s.pc ≠ .exited) : Follows s s.log.reverse [] [] where
  log := by simp
  main := before
  cutShort := List.forall_mem_nil _
  parts := by rw [starts]; rfl
  running _ := rfl
  exit := ⟨false, List.nil_prefix, fun exited => absurd exited goes⟩

theorem Leaves.follows (leaves : Leaves s) : ∃ before abandoned current,
    Follows s before abandoned current := by
  obtain ⟨_, before, abandoned, current, traceEnabled, left, sequence⟩ := leaves
  have started := left.started
  refine ⟨before, abandoned, current, left.log, left.main, left.cutShort, ?_, ?_, traceEnabled,
    ⟨_, sequence⟩, fun exited => ?_⟩
  · rw [started, Nat.add_sub_cancel]
  · intro running
    rw [running] at started
    contradiction
  · have nothing : toExit s.pid s.setRemoveFlag .exited = [] := rfl
    rw [exited, nothing, List.append_nil] at sequence
    exact sequence

/-- The statements that a signal can interrupt: those of `main`, and those of the handler. -/
theorem phase_cases (phase : Phase s) :
    (s.starts = [] ∧ Before s.pid s.traceEnabled s.setRemoveFlag s.log.reverse ∧
        s.pc ≠ .exited) ∨
      (∃ before abandoned, s.pc = .exitHandler ∧ Left s before abandoned []) ∨
      s.pc.OnExit ∧ Leaves s := by
  by_cases exit : s.pc.OnExit
  · exact .inr (.inr ⟨exit, (phase_onExit exit).mp phase⟩)
  · have goes : s.pc ≠ .exited := fun pc => exit (.inr (.inr (.inr (.inr pc))))
    have ofMain : InMain s → s.starts = [] ∧
        Before s.pid s.traceEnabled s.setRemoveFlag s.log.reverse ∧ s.pc ≠ .exited :=
      fun main => ⟨main.starts, main.before, goes⟩
    unfold Phase at phase
    split at phase
    · exact .inl (ofMain phase.1)
    · exact .inl (ofMain phase.1)
    · exact .inl (ofMain phase.1)
    · obtain ⟨log, off, kept, starts⟩ := phase
      rw [log, kept]
      refine .inl ⟨starts, ⟨⟨0, ?_⟩, List.forall_mem_nil _, ?_, nofun⟩, goes⟩
      · simp [asked, mainRequests, setUpRequests]
      · exact fun on => absurd (off.symm.trans on) (by simp)
    · obtain ⟨before, abandoned, left⟩ := phase
      exact .inr (.inl ⟨before, abandoned, by assumption, left⟩)
    · exact absurd (.inl ‹_›) exit
    · exact absurd (.inr (.inl ‹_›)) exit
    · exact absurd (.inr (.inr (.inl ‹_›))) exit
    · exact absurd (.inr (.inr (.inr (.inl ‹_›)))) exit
    · exact absurd (.inr (.inr (.inr (.inr ‹_›)))) exit
    · exact .inl (ofMain phase)

theorem phase_follows (phase : Phase s) : ∃ before abandoned current,
    Follows s before abandoned current := by
  rcases phase_cases phase with ⟨starts, before, goes⟩ | ⟨before, abandoned, pc, left⟩ | ⟨_, leaves⟩
  · exact ⟨_, _, _, before.follows starts goes⟩
  · have started := left.started
    refine ⟨before, abandoned, [], left.log, left.main, left.cutShort, ?_, fun _ => rfl, false,
      List.nil_prefix, fun exited => absurd (pc.symm.trans exited) (by simp)⟩
    rw [started, Nat.add_sub_cancel]
  · exact leaves.follows

/-- Wherever a signal finds the program, what the exit path has asked is cut short. -/
theorem phase_signal (phase : Phase s) :
    Phase { s with
      signalledAt := some s.pc, pc := .exitHandler, starts := .signal :: s.starts } := by
  rcases phase_cases phase with ⟨starts, main, _⟩ | ⟨before, abandoned, _, left⟩ | ⟨_, leaves⟩
  · exact ⟨_, [], by simp, main, List.forall_mem_nil _, by simp [starts]⟩
  · refine ⟨before, abandoned ++ [[]], ?_, left.main, ?_, ?_⟩
    · simpa using left.log
    · rw [List.forall_mem_append]
      exact ⟨left.cutShort, List.forall_mem_singleton.mpr ⟨false, List.nil_prefix⟩⟩
    · simp [left.started]
  · obtain ⟨_, before, abandoned, current, traceEnabled, left, sequence⟩ := leaves
    refine ⟨before, abandoned ++ [current], ?_, left.main, ?_, ?_⟩
    · simpa using left.log
    · rw [List.forall_mem_append]
      exact ⟨left.cutShort, List.forall_mem_singleton.mpr ⟨traceEnabled, _, sequence⟩⟩
    · simp [left.started]

theorem phase_step (s : Tracer) (label : Label) (t : Tracer) (phase : Phase s)
    (stepped : stepOf interruptible s label t) : Phase t := by
  cases label with
  | malloc allocated =>
    simp only [stepOf, interruptible, step, Option.ite_none_right_eq_some, Option.some.injEq]
      at stepped
    obtain ⟨pc, same⟩ := stepped
    subst same
    rw [Phase, pc] at phase
    obtain ⟨⟨order, accepted, enabled, removes, exiting, starts⟩, first⟩ := phase
    rw [pc] at order
    cases allocated with
    | true => exact ⟨⟨order, accepted, enabled, removes, exiting, starts⟩, first⟩
    | false => exact ⟨⟨order, accepted, enabled, removes, exiting, starts⟩, first⟩
  | sysctl accepted =>
    by_cases exit : s.pc.OnExit
    · exact phase_sysctl_exit ((phase_onExit exit).mp phase) stepped exit
    · exact phase_sysctl_main phase stepped exit
  | assign => exact phase_assign phase stepped
  | signal =>
    simp only [stepOf, interruptible, step, Option.ite_none_right_eq_some, Option.some.injEq]
      at stepped
    rw [← stepped.2]
    exact phase_signal phase

theorem pid_checked (s : Tracer) (request : Request) (accepted : Bool) (next : Pc) :
    (s.checked request accepted next).pid = s.pid := by
  unfold checked
  split <;> rfl

theorem pid_tolerated (s : Tracer) (request : Request) (accepted : Bool) (next : Pc) :
    (s.tolerated request accepted next).pid = s.pid := by
  unfold tolerated
  split <;> rfl

theorem pid_step {pid : Int32} (s : Tracer) (label : Label) (t : Tracer) (same : s.pid = pid)
    (stepped : stepOf interruptible s label t) : t.pid = pid := by
  refine Eq.trans ?_ same
  cases label with
  | malloc allocated =>
    simp only [stepOf, interruptible, step, Option.ite_none_right_eq_some, Option.some.injEq]
      at stepped
    rw [← stepped.2]
  | sysctl accepted =>
    cases pc : s.pc <;>
      simp only [stepOf, interruptible, step, pc, Option.some.injEq, reduceCtorEq] at stepped <;>
      subst stepped
    case clear exiting =>
      unfold ukdbgClear
      split <;> rfl
    case setpidcheck | setenable => exact pid_tolerated ..
    all_goals exact pid_checked ..
  | assign =>
    cases pc : s.pc <;>
      simp only [stepOf, interruptible, step, pc, Option.some.injEq, reduceCtorEq] at stepped <;>
      subst stepped <;> rfl
  | signal =>
    simp only [stepOf, interruptible, step, Option.ite_none_right_eq_some, Option.some.injEq]
      at stepped
    rw [← stepped.2]

theorem phase_initial (pid : Int32) : Phase (initial pid) := by
  refine ⟨⟨⟨0, ?_⟩, ?_, ?_, rfl, rfl, rfl⟩, rfl⟩
  · exact (List.append_nil _).symm
  · exact List.forall_mem_nil _
  · exact fun on => absurd on (by simp [initial])

/-! ### Runs -/

/-- A signal behind the first poll and two on the way out, where `KERN_KDREMOVE` is refused. -/
def thrice : List Label :=
  [.malloc true, .sysctl true, .sysctl true, .sysctl true, .sysctl true, .sysctl true,
    .sysctl true, .assign, .sysctl true, .sysctl true, .signal, .assign, .sysctl true, .signal,
    .signal, .assign, .sysctl true, .assign, .sysctl true, .sysctl false]

end MonitoringDemos.Kdebug
