import Mathlib
import MonitoringDemos.Ledger
import MonitoringDemos.IOKit.Ownership

/-! `main` of the IOKit demo: `Init`, the callbacks that the run loop delivers, `Uninit`, and
what is left of the references then. -/
namespace MonitoringDemos.IOKit
open Transition MonitoringDemos.Ledger

/-! ### The program -/

inductive Object where
  | iterator | notificationPort | eventSource
  deriving DecidableEq, Repr

/-- What `Init` finds: whether there are a matching dictionary and a port, the iterator that
`IOServiceAddMatchingNotification` stores unless it fails, and what that yields. -/
structure Setup where
  matchingDict : Bool
  notificationPort : Bool
  iter : UInt32
  armed : List Service
  nothing : iter = 0 → armed = []

structure IOKitMonitor where
  iter : UInt32
  /-- Whether the pointers are set. -/
  notificationPort : Bool
  eventSource : Bool
  monitor : Monitor
  objects : List (Event Object)

namespace IOKitMonitor

def initial : IOKitMonitor := ⟨0, false, false, .initial, []⟩

/-- The port comes with its event source; the run loop retains that once more. -/
def init (s : IOKitMonitor) (setup : Setup) : IOKitMonitor :=
  if !setup.matchingDict then s
  else
    { iter := setup.iter
      notificationPort := true
      eventSource := true
      monitor := deviceAdded s.monitor setup.armed
      objects := s.objects ++ [.obtain .notificationPort, .obtain .eventSource] ++
        [.obtain .eventSource] ++ (if setup.iter ≠ 0 then [.obtain .iterator] else []) ++
        [.release .eventSource] }

/-- `CFRunLoopSourceInvalidate` has the run loop release the source. -/
def uninit (s : IOKitMonitor) : IOKitMonitor :=
  { s with
    iter := 0
    notificationPort := false
    eventSource := false
    objects := s.objects ++ (if s.iter ≠ 0 then [.release .iterator] else []) ++
      if s.eventSource then [.release .eventSource] else [] }

end IOKitMonitor
open IOKitMonitor

/-- `none` when a callback is not one that can arrive, or without a port: then `CFRelease` is
given NULL, if no call before it has been. Without a dictionary there is no source that
callbacks come from, and the run loop only waits for a signal. -/
def main (setup : Setup) (callbacks : List Callback) : Option IOKitMonitor :=
  if setup.matchingDict && !setup.notificationPort then none
  else
    let s := IOKitMonitor.initial.init setup
    if s.eventSource then
      (exec step s.monitor callbacks).map fun monitor => uninit { s with monitor }
    else some s.uninit

/-! ### What is left -/

/-- A notification is one of a service that has been yielded. -/
def Known (s : Monitor) : Prop := ∀ n, .notification n ∈ s.obtained → n < s.yielded

theorem known_addService (known : Known s) (found : Service) : Known (addService s found) := by
  intro n member
  rw [addService_yielded]
  rcases (addService_obtained s found _).mp member with same | same | ⟨_, same⟩ | older
  · cases same
  · cases same
  · cases same
    exact Nat.lt_succ_self _
  · exact Nat.lt_succ_of_lt (known n older)

theorem known_deviceAdded (known : Known s) (iterator : List Service) :
    Known (deviceAdded s iterator) := by
  induction iterator generalizing s with
  | nil => exact known
  | cons found rest ih => exact ih (known_addService known found)

theorem known_step (s : Monitor) (callback : Callback) (t : Monitor) (known : Known s)
    (stepped : stepOf step s callback t) : Known t := by
  cases callback with
  | deviceAdded iterator =>
    cases stepped
    exact known_deviceAdded known iterator
  | deviceNotification refCon messageType =>
    obtain ⟨data, _, same⟩ := Option.map_eq_some_iff.mp stepped
    subst same
    unfold deviceNotification
    split
    · exact known
    · exact known

/-- Everything obtained has been released. -/
def Monitor.Settled (s : Monitor) : Prop := ∀ ref ∈ s.obtained, ref ∈ s.released

/-- A live record holds its service, and one that was passed over is held by nobody. -/
theorem settled_iff (accounts : Accounts s ledger) (known : Known s) :
    s.Settled ↔ ledger.Sound ∧ s.records = [] := by
  constructor
  · intro settled
    have gone : ∀ n, n < ledger.length → ledger[n]? = some .terminated := by
      intro n inside
      have released := settled _ ((accounts.service n).mpr inside)
      have count := accounts.serviceReleased n
      split at count
      case isTrue gone => exact gone
      case isFalse => exact absurd released (List.count_eq_zero.mp count)
    constructor
    · intro n status at_
      have inside : n < ledger.length := (List.getElem?_eq_some_iff.mp at_).1
      exact .inr (Option.some.inj (at_.symm.trans (gone n inside)))
    · apply List.eq_nil_iff_forall_not_mem.mpr
      intro data member
      obtain ⟨live, _⟩ := (accounts.records data).mp member
      have inside : data.address < ledger.length := (List.getElem?_eq_some_iff.mp live).1
      exact absurd (live.symm.trans (gone _ inside)) (by simp)
  · rintro ⟨sound, empty⟩ ref obtained
    have gone : ∀ n, n < ledger.length → ledger[n]? = some .terminated := by
      intro n inside
      have at_ := List.getElem?_eq_getElem inside
      rcases sound n _ at_ with live | gone
      · have member := (accounts.records (record n)).mpr ⟨at_.trans (congrArg some live), rfl⟩
        rw [empty] at member
        contradiction
      · exact at_.trans (congrArg some gone)
    have mem_of_count : ∀ {ref : Ref}, s.released.count ref = 1 → ref ∈ s.released := fun once =>
      List.count_pos_iff.mp (once ▸ Nat.one_pos)
    cases ref with
    | service n =>
      have count := accounts.serviceReleased n
      rw [gone n ((accounts.service n).mp obtained)] at count
      exact mem_of_count count
    | className n =>
      have count := accounts.named n
      rw [gone n ((accounts.className n).mp obtained)] at count
      exact mem_of_count count
    | notification n =>
      have count := accounts.notificationReleased n
      rw [gone n (accounts.yielded ▸ known n obtained)] at count
      exact mem_of_count count

/-! ### The whole program -/

/-- What the iterator yields first, the way `DeviceAdded` is called with it. -/
def Setup.arming (setup : Setup) : Callback := .deviceAdded setup.armed

theorem run_settled_iff (run : Run (stepOf step) .initial callbacks s) :
    s.Settled ↔ (∀ callback ∈ callbacks, callback.Kept) ∧ s.records = [] := by
  obtain ⟨ledger, accounts, sound⟩ := accounts_run run [] accounts_initial
  have known : Known s := run.invariant known_step fun n member => absurd member List.not_mem_nil
  have empty : Ledger.Sound [] := by simp [Ledger.Sound]
  rw [settled_iff accounts known, sound, and_iff_right empty]

theorem settle_main (setup : Setup) (monitor : Monitor) :
    settle 0 (uninit { IOKitMonitor.initial.init setup with monitor }).objects =
      some (if setup.matchingDict then {.notificationPort} else 0) := by
  unfold IOKitMonitor.init IOKitMonitor.uninit
  cases setup.matchingDict with
  | false => rfl
  | true =>
    by_cases iter : setup.iter = 0
    · simp only [iter, IOKitMonitor.initial, ne_eq, not_true_eq_false, Bool.not_true,
        Bool.false_eq_true, if_false, if_true]
      decide
    · simp only [iter, IOKitMonitor.initial, ne_eq, not_false_eq_true, Bool.not_true,
        Bool.false_eq_true, if_false, if_true]
      decide

/-- `Uninit` releases the iterator and has the source released, each once, and the port is
never destroyed. No other reference is left exactly when every service was of the class
itself and could be registered, and every device has gone before the run loop has ended. -/
theorem main_settled_iff (ran : main setup callbacks = some s) :
    settle 0 s.objects = some (if setup.matchingDict then {.notificationPort} else 0) ∧
      (s.monitor.Settled ↔ (setup.matchingDict = true →
        ∀ callback ∈ setup.arming :: callbacks, callback.Kept) ∧ s.monitor.records = []) := by
  unfold main at ran
  cases found : setup.matchingDict with
  | false =>
    rw [found, Bool.false_and, if_neg Bool.false_ne_true] at ran
    have idle : IOKitMonitor.initial.init setup = .initial := by
      simp [IOKitMonitor.init, found]
    rw [idle] at ran
    cases Option.some.inj ran
    refine ⟨rfl, ?_⟩
    simp [IOKitMonitor.initial, uninit, Monitor.initial, Monitor.Settled]
  | true =>
    have port : setup.notificationPort = true := by
      by_contra lacking
      simp [found, lacking] at ran
    have started : (IOKitMonitor.initial.init setup).eventSource = true := by
      simp [IOKitMonitor.init, found]
    have armed : (IOKitMonitor.initial.init setup).monitor = deviceAdded .initial setup.armed := by
      simp [IOKitMonitor.init, found, IOKitMonitor.initial]
    rw [found, port, Bool.not_true, Bool.and_false, if_neg Bool.false_ne_true] at ran
    simp only [if_pos started, armed] at ran
    obtain ⟨monitor, executed, same⟩ := Option.map_eq_some_iff.mp ran
    subst same
    have first : stepOf step .initial setup.arming (deviceAdded .initial setup.armed) := rfl
    have objects := settle_main setup monitor
    rw [found] at objects
    refine ⟨objects, ?_⟩
    rw [imp_iff_right rfl]
    exact run_settled_iff (.next first (exec_run executed))

/-- One device is there at the start and goes, another one is still there at the end. -/
theorem main_settled_iff_plugged :
    ∃ s, main ⟨true, true, 9, [⟨"IOUSBDevice", true⟩], by decide⟩
      [.deviceAdded [⟨"IOUSBDevice", true⟩],
        .deviceNotification 0 kIOMessageServiceIsTerminated] = some s ∧
      settle 0 s.objects = some {.notificationPort} ∧ ¬ s.monitor.Settled := by
  refine ⟨_, rfl, ?_⟩
  have ends := @main_settled_iff ⟨true, true, 9, [⟨"IOUSBDevice", true⟩], by decide⟩
    [.deviceAdded [⟨"IOUSBDevice", true⟩],
      .deviceNotification 0 kIOMessageServiceIsTerminated] _ rfl
  refine ⟨ends.1, fun settled => ?_⟩
  exact absurd (ends.2.mp settled).2 (by decide)

end MonitoringDemos.IOKit
