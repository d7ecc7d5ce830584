import MonitoringDemos.Kevent.EventLoop
import MonitoringDemos.Kevent.FlagString
import MonitoringDemos.Ledger

/-! `main` of the kevent demo from the start-up to its return: the descriptors, the turns of
the loop, and the flags that it prints. -/
namespace MonitoringDemos.Kevent
open Bytes Ledger

inductive Exit where
  | success | failure
  deriving DecidableEq, Repr

/-- What a run of `main` has done. -/
structure Session where
  descriptors : List (Ledger.Event Int32)
  output : List Output
  /-- The strings for the flags of the events that are shown. -/
  flags : Option (List (List UInt8))
  /-- `none` while the loop goes on. -/
  exit : Option Exit

def Output.fflags : Output → Option UInt32
  | .event shown => some shown.fflags
  | _ => none

/-- `kq` and `eventFd` are what `kqueue` and `open` return. -/
def main (kq eventFd : Int32) (value : Note → UInt32) (eventData : Event) (ret : Memory)
    (turns : List Turn) : Session :=
  if kq < 0 then ⟨[], [], some [], some .failure⟩
  else if eventFd ≤ 0 then
    -- a descriptor 0 is taken for an error
    ⟨.obtain kq :: if eventFd = 0 then [.obtain eventFd] else [], [], some [], some .failure⟩
  else
    let monitoring := eventLoop iterations eventData turns
    let ended := monitoring.status ≠ .looping
    ⟨[.obtain kq, .obtain eventFd] ++ if ended then [.release eventFd] else [],
      monitoring.output,
      flagstrings value (monitoring.output.filterMap Output.fflags) ret,
      if ended then some .success else none⟩

/-! ### The loop ends -/

/-- Each turn takes one of the iterations, and prints one line unless it ends the loop. -/
theorem eventLoop_bounded {continueLoop : Int32} (positive : 0 < continueLoop.toInt)
    (eventData : Event) (turns : List Turn) :
    ((eventLoop continueLoop eventData turns).output.length : Int) < continueLoop.toInt ∧
      (continueLoop.toInt ≤ turns.length →
        (eventLoop continueLoop eventData turns).status ≠ .looping) := by
  induction turns generalizing continueLoop eventData with
  | nil =>
    refine ⟨by simpa [eventLoop] using positive, fun enough => ?_⟩
    rw [List.length_nil] at enough
    omega
  | cons turn rest ih =>
    have less := less_toInt positive
    simp only [eventLoop]
    by_cases goes : continueLoop - 1 ≠ 0 ∧ turn.shouldStop = false
    · have left : 0 < (continueLoop - 1).toInt := by
        have nonzero : (continueLoop - 1).toInt ≠ 0 := fun zero => goes.1 (Int32.toInt_inj.mp zero)
        omega
      rw [if_pos goes]
      split
      · refine ⟨?_, fun _ => by simp⟩
        rw [List.length_singleton]
        omega
      · obtain ⟨printed, ends⟩ := ih left (turn.result.store eventData)
        simp only [Monitoring.behind, List.length_cons]
        exact ⟨by omega, fun enough => ends (by omega)⟩
    · rw [if_neg goes]
      exact ⟨positive, fun _ => by simp⟩

/-- Forty turns are enough for `main` to return, with at most 39 calls of `kevent`. The
descriptors are closed as often as they are open, but the one of the queue never is, nor
one that is 0. Each event that is shown is shown with the names of its own flags. -/
theorem main_ends (kq eventFd : Int32) (value : Note → UInt32) (eventData : Event) (ret : Memory)
    {turns : List Turn} (enough : 40 ≤ turns.length) :
    let session := main kq eventFd value eventData ret turns
    session.exit = some (if 0 ≤ kq ∧ 0 < eventFd then .success else .failure) ∧
      session.output.length ≤ 39 ∧
      settle 0 session.descriptors = some (
        if kq < 0 then 0 else if eventFd = 0 then {0, kq} else {kq}) ∧
      session.flags = some ((session.output.filterMap Output.fflags).map (flagText value)) := by
  intro session
  by_cases queue : kq < 0
  · have failed : ¬ (0 ≤ kq ∧ 0 < eventFd) := fun both => absurd both.1 (by simpa using queue)
    simp only [session, main, if_pos queue, if_neg failed]
    exact ⟨trivial, Nat.zero_le _, rfl, rfl⟩
  · by_cases opened : eventFd ≤ 0
    · have failed : ¬ (0 ≤ kq ∧ 0 < eventFd) := fun both => absurd both.2 (by simpa using opened)
      simp only [session, main, if_neg queue, if_pos opened, if_neg failed]
      refine ⟨trivial, Nat.zero_le _, ?_, rfl⟩
      by_cases zero : eventFd = 0
      · rw [if_pos zero, if_pos zero, zero]
        rfl
      · rw [if_neg zero, if_neg zero]
        rfl
    · have positive : (0 : Int) < iterations.toInt := by decide
      obtain ⟨printed, ends⟩ := eventLoop_bounded positive eventData turns
      have budget : iterations.toInt = 40 := by decide
      have ended := ends (by omega)
      have fine : 0 ≤ kq ∧ 0 < eventFd := ⟨by simpa using queue, by simpa using opened⟩
      have nonzero : eventFd ≠ 0 := by
        rintro rfl
        exact opened (by decide)
      simp only [session, main, if_neg queue, if_neg opened, if_pos ended, if_pos fine, if_neg nonzero]
      refine ⟨trivial, by omega, ?_, (flagstrings_own value _ ret).1⟩
      exact settle_release eventFd {kq}

theorem main_ends_quiet : (main 3 4 vnodeNotes written (fun _ => 0xaa)
    (List.replicate 40 ⟨false, .timeout⟩)).exit = some .success := by
  have enough : 40 ≤ (List.replicate 40 (⟨false, .timeout⟩ : Turn)).length := by
    rw [List.length_replicate]
  exact (main_ends 3 4 vnodeNotes written (fun _ => 0xaa) enough).1

end MonitoringDemos.Kevent
