import MonitoringDemos.Kdebug.Protocol

/-! The exit path of the tracer comes to its end, whatever the kernel answers. -/
namespace MonitoringDemos.Kdebug
open Transition Tracer

/-- The statements of the exit path up to its end. -/
def Pc.toGo : Pc → Nat
  | .exitHandler => 5
  | .setenable false => 4
  | .assignEnabled false => 3
  | .setpidcheck false => 2
  | .clear true => 1
  | _ => 0

/-- On the exit path, or in front of it. -/
def Exits (s : Tracer) : Prop := s.pc = .exitHandler ∨ Leaves s ∧ s.pc.OnExit

theorem phase_started (phase : Phase s) (started : s.starts ≠ []) : Exits s := by
  rcases phase_cases phase with ⟨starts, _⟩ | ⟨_, _, pc, _⟩ | ⟨exit, leaves⟩
  · exact absurd starts started
  · exact .inl pc
  · exact .inr ⟨leaves, exit⟩

theorem toGo_behindPid (s : Tracer) : s.behindPid.toGo ≤ 1 := by
  unfold behindPid
  split <;> simp [Pc.toGo]

theorem toGo_behindTrace (s : Tracer) : s.behindTrace.toGo ≤ 2 := by
  unfold behindTrace
  split
  · simp [Pc.toGo]
  · exact Nat.le_trans (toGo_behindPid s) (by decide)

theorem toGo_entered (s : Tracer) : s.ukdbgExitHandler.pc.toGo ≤ 4 := by
  unfold ukdbgExitHandler
  split
  · simp [Pc.toGo]
  · exact Nat.le_trans (toGo_behindTrace s) (by decide)

/-- Every step on the exit path leads on, but a signal, which leads back to its start. -/
theorem exits_step (exits : Exits s) (stepped : interruptible s label = some t) :
    (if label = .signal then t.pc = .exitHandler else t.pc.toGo < s.pc.toGo) ∧
      s.starts <:+ t.starts := by
  cases label with
  | malloc allocated =>
    obtain ⟨pc, _⟩ := Option.ite_none_right_eq_some.mp stepped
    rcases exits with handler | ⟨_, exit⟩
    · rw [pc] at handler
      contradiction
    · rw [pc] at exit
      simp [Pc.OnExit] at exit
  | sysctl accepted =>
    rw [if_neg (by simp)]
    rcases exits with handler | ⟨leaves, exit⟩
    · simp [interruptible, step, handler] at stepped
    · rcases exit with pc | pc | pc | pc | pc <;>
        simp only [interruptible, step, pc, Option.some.injEq, reduceCtorEq] at stepped <;>
        subst stepped <;> rw [pc]
      case inl =>
        rw [ukdbgSetenable, tolerated_leaves leaves]
        exact ⟨by simp [Pc.toGo], List.suffix_rfl⟩
      case inr.inr.inl =>
        rw [ukdbgSetpidcheck, tolerated_leaves leaves]
        exact ⟨Nat.lt_succ_of_le (toGo_behindPid s), List.suffix_rfl⟩
      case inr.inr.inr.inl =>
        rw [ukdbgClear_leaves leaves]
        exact ⟨by simp [Pc.toGo], List.suffix_rfl⟩
  | assign =>
    rw [if_neg (by simp)]
    rcases exits with handler | ⟨leaves, exit⟩
    · simp only [interruptible, step, handler, Option.some.injEq] at stepped
      subst stepped
      rw [handler]
      exact ⟨Nat.lt_succ_of_le (toGo_entered s), List.suffix_rfl⟩
    · rcases exit with pc | pc | pc | pc | pc <;>
        simp only [interruptible, step, pc, Option.some.injEq, reduceCtorEq] at stepped
      case inr.inl =>
        subst stepped
        rw [pc]
        exact ⟨Nat.lt_succ_of_le (toGo_behindTrace s), List.suffix_rfl⟩
  | signal =>
    simp only [interruptible, step, Option.ite_none_right_eq_some, Option.some.injEq] at stepped
    obtain ⟨_, same⟩ := stepped
    subst same
    rw [if_pos rfl]
    exact ⟨rfl, List.suffix_cons _ _⟩

/-- A statement of the exit path is never stuck. -/
theorem exits_enabled (exits : Exits s) (going : s.pc ≠ .exited) :
    ∃ label t, label ≠ .signal ∧ interruptible s label = some t := by
  rcases exits with handler | ⟨_, pc | pc | pc | pc | pc⟩
  · exact ⟨.assign, s.ukdbgExitHandler, by simp, by simp [interruptible, step, handler]⟩
  · exact ⟨.sysctl true, s.ukdbgSetenable false true, by simp, by simp [interruptible, step, pc]⟩
  · exact ⟨.assign, { s with traceEnabled := false, pc := s.behindTrace }, by simp,
      by simp [interruptible, step, pc]⟩
  · exact ⟨.sysctl true, s.ukdbgSetpidcheck false true, by simp, by simp [interruptible, step, pc]⟩
  · exact ⟨.sysctl true, s.ukdbgClear true true, by simp, by simp [interruptible, step, pc]⟩
  · exact absurd pc going

theorem exits_run (run : Run (stepOf interruptible) s labels t) (phase : Phase s)
    (started : s.starts ≠ []) :
    labels.length ≤ s.pc.toGo + 6 * labels.count .signal ∧ Exits t := by
  induction run with
  | stay s => exact ⟨Nat.zero_le _, phase_started phase started⟩
  | @next s label t rest u head _ ih =>
    obtain ⟨moves, grows⟩ := exits_step (phase_started phase started) head
    have still : t.starts ≠ [] := fun empty => started (List.suffix_nil.mp (empty ▸ grows))
    obtain ⟨bound, exits⟩ := ih (phase_step _ _ _ phase head) still
    refine ⟨?_, exits⟩
    rw [List.length_cons]
    by_cases signal : label = .signal
    · rw [if_pos signal] at moves
      rw [moves, Pc.toGo] at bound
      rw [signal, List.count_cons_self]
      omega
    · rw [if_neg signal] at moves
      rw [List.count_cons_of_ne signal]
      omega

theorem exits_toGo (exits : Exits s) : s.pc.toGo ≤ 5 := by
  rcases exits with pc | ⟨_, pc | pc | pc | pc | pc⟩ <;> rw [pc] <;> decide

/-- Once a failure or a signal has started it, the exit path comes to its end within five
steps, and within six for each signal that sends it back to its start, whatever the kernel
answers. -/
theorem exit_reached {pid : Int32} (run : Run (stepOf interruptible) (initial pid) labels s)
    (started : s.starts ≠ []) (later : Run (stepOf interruptible) s labels' t) :
    labels'.length ≤ 5 + 6 * labels'.count .signal ∧
      (t.pc ≠ .exited → ∃ label u, label ≠ .signal ∧ interruptible t label = some u) := by
  have phase : Phase s := run.invariant phase_step (phase_initial pid)
  obtain ⟨bound, exits⟩ := exits_run later phase started
  have small := exits_toGo (phase_started phase started)
  exact ⟨by omega, exits_enabled exits⟩

/-- The first request is refused, and two signals arrive behind it. -/
theorem exit_reached_refused : ∃ s t,
    Run (stepOf interruptible) (initial 42) [.malloc true, .sysctl false, .assign] s ∧
    Run (stepOf interruptible) s [.signal, .assign, .signal, .assign, .sysctl false] t ∧
    t.pc = .exited ∧
    [Label.signal, .assign, .signal, .assign, .sysctl false].length ≤ 5 + 6 * 2 := by
  have run : Run (stepOf interruptible) (initial 42) [.malloc true, .sysctl false, .assign] _ :=
    exec_run rfl
  refine ⟨_, _, run, exec_run rfl, rfl, ?_⟩
  exact (exit_reached run (List.cons_ne_nil Start.failure []) (exec_run rfl)).1

end MonitoringDemos.Kdebug
