import Mathlib
import MonitoringDemos.Transition
import MonitoringDemos.IOKit.Monitor

/-! Who owns the references. The ledger gives each yielded service a status; the logs
of the monitor are counted by it, and it decides whether anything has leaked. -/
namespace MonitoringDemos.IOKit
open Transition

/-! ### The ledger -/

inductive Status where
  /-- Of another class. -/
  | foreign
  /-- Its notification was not registered. -/
  | failed
  | live
  | terminated
  deriving DecidableEq, Repr

abbrev Ledger := List Status

def Service.status (found : Service) : Status :=
  if found.className = "IOUSBDevice" then if found.registers then .live else .failed else .foreign

def record (n : Nat) : MyDriverData := ⟨n, .service n, .notification n⟩

/-- The logs are what the ledger says. -/
structure Accounts (s : Monitor) (ledger : Ledger) : Prop where
  yielded : s.yielded = ledger.length
  service : ∀ n, .service n ∈ s.obtained ↔ n < ledger.length
  className : ∀ n, .className n ∈ s.obtained ↔ n < ledger.length
  notification : ∀ n, ledger[n]? = some .live → .notification n ∈ s.obtained
  named : ∀ n, s.released.count (.className n) =
    if ledger[n]? = none ∨ ledger[n]? = some .failed then 0 else 1
  serviceReleased : ∀ n, s.released.count (.service n) =
    if ledger[n]? = some .terminated then 1 else 0
  notificationReleased : ∀ n, s.released.count (.notification n) =
    if ledger[n]? = some .terminated then 1 else 0
  records : ∀ data, data ∈ s.records ↔ ledger[data.address]? = some .live ∧ data = record data.address
  once : s.records.Nodup
  deleted : ∀ n, s.deleted.count n =
    if ledger[n]? = some .failed ∨ ledger[n]? = some .terminated then 1 else 0

theorem accounts_initial : Accounts Monitor.initial [] := by
  constructor <;> simp [Monitor.initial]

theorem getElem?_concat (ledger : Ledger) (status : Status) (n : Nat) :
    (ledger ++ [status])[n]? = if n = ledger.length then some status else ledger[n]? := by
  rw [List.getElem?_append]
  split
  · rw [if_neg (by omega)]
  · split
    · rw [show n - ledger.length = 0 by omega, List.getElem?_cons_zero]
    · rw [List.getElem?_eq_none (by simp; omega), List.getElem?_eq_none (by omega)]

/-! ### What a callback does to the logs -/

@[simp] theorem addService_yielded (s : Monitor) (found : Service) :
    (addService s found).yielded = s.yielded + 1 := by
  unfold addService
  split
  · split <;> rfl
  · rfl

theorem addService_obtained (s : Monitor) (found : Service) (ref : Ref) :
    ref ∈ (addService s found).obtained ↔ ref = .service s.yielded ∨ ref = .className s.yielded ∨
      found.status = .live ∧ ref = .notification s.yielded ∨ ref ∈ s.obtained := by
  unfold addService Service.status
  split
  · split <;> simp only [Monitor.release, List.mem_cons] <;> grind
  · simp only [Monitor.release, List.mem_cons]
    grind

theorem addService_released (s : Monitor) (found : Service) :
    (addService s found).released =
      if found.status = .failed then s.released else .className s.yielded :: s.released := by
  unfold addService Service.status
  split
  · split <;> rfl
  · rfl

theorem addService_records (s : Monitor) (found : Service) :
    (addService s found).records =
      if found.status = .live then record s.yielded :: s.records else s.records := by
  unfold addService Service.status
  split
  · split <;> rfl
  · rfl

theorem addService_deleted (s : Monitor) (found : Service) :
    (addService s found).deleted =
      if found.status = .failed then s.yielded :: s.deleted else s.deleted := by
  unfold addService Service.status
  split
  · split <;> rfl
  · rfl

theorem status_not_terminated (found : Service) : found.status ≠ .terminated := by
  unfold Service.status
  split
  · split <;> nofun
  · nofun

theorem accounts_addService (accounts : Accounts s ledger) (found : Service) :
    Accounts (addService s found) (ledger ++ [found.status]) := by
  have absent : ledger[ledger.length]? = none := List.getElem?_eq_none (Nat.le_refl _)
  have fresh := status_not_terminated found
  have next := accounts.yielded
  constructor
  · simp [next]
  · intro n
    rw [addService_obtained, accounts.service, next, List.length_append, List.length_singleton]
    grind
  · intro n
    rw [addService_obtained, accounts.className, next, List.length_append, List.length_singleton]
    grind
  · intro n
    rw [addService_obtained, getElem?_concat, next]
    grind [accounts.notification n]
  · intro n
    rw [addService_released, getElem?_concat, next]
    grind [accounts.named n]
  · intro n
    rw [addService_released, getElem?_concat, next]
    grind [accounts.serviceReleased n]
  · intro n
    rw [addService_released, getElem?_concat, next]
    grind [accounts.notificationReleased n]
  · intro data
    rw [addService_records, getElem?_concat, next]
    grind [accounts.records data, record]
  · rw [addService_records, next]
    grind [accounts.records (record ledger.length), accounts.once, record]
  · intro n
    rw [addService_deleted, getElem?_concat, next]
    grind [accounts.deleted n]

theorem accounts_terminated (accounts : Accounts s ledger) (live : ledger[n]? = some .live) :
    Accounts (deviceNotification s (record n) kIOMessageServiceIsTerminated)
      (ledger.set n .terminated) := by
  have inside : n < ledger.length := (List.getElem?_eq_some_iff.mp live).1
  have set : ∀ m, (ledger.set n .terminated)[m]? =
      if m = n then some .terminated else ledger[m]? := by
    intro m
    rw [List.getElem?_set]
    grind
  simp only [deviceNotification, if_true]
  constructor
  · simp [Monitor.release, accounts.yielded]
  · intro m
    simp [Monitor.release, accounts.service]
  · intro m
    simp [Monitor.release, accounts.className]
  · intro m
    rw [set]
    grind [accounts.notification m, Monitor.release]
  · intro m
    rw [set]
    grind [accounts.named m, Monitor.release, record]
  · intro m
    rw [set]
    grind [accounts.serviceReleased m, Monitor.release, record]
  · intro m
    rw [set]
    grind [accounts.notificationReleased m, Monitor.release, record]
  · intro data
    rw [set]
    grind [accounts.records data, accounts.once, Monitor.release, record]
  · exact accounts.once.erase _
  · intro m
    rw [set]
    grind [accounts.deleted m, Monitor.release, record]

theorem accounts_deviceAdded (accounts : Accounts s ledger) (iterator : List Service) :
    Accounts (deviceAdded s iterator) (ledger ++ iterator.map Service.status) := by
  induction iterator generalizing s ledger with
  | nil => simpa [deviceAdded] using accounts
  | cons found rest ih =>
    have later := ih (accounts_addService accounts found)
    rwa [List.append_assoc, List.singleton_append] at later

/-- The record that a notification finds is the one of its device. -/
theorem step_notified (accounts : Accounts s ledger) (live : ledger[n]? = some .live)
    (messageType : UInt32) :
    step s (.deviceNotification n messageType) =
      some (deviceNotification s (record n) messageType) := by
  have member : record n ∈ s.records := (accounts.records (record n)).mpr ⟨live, rfl⟩
  have found : s.records.find? (·.address = n) = some (record n) := by
    have some_ : (s.records.find? (·.address = n)).isSome :=
      List.find?_isSome.mpr ⟨record n, member, by simp [record]⟩
    obtain ⟨data, hit⟩ := Option.isSome_iff_exists.mp some_
    have address : data.address = n := by simpa using List.find?_some hit
    rw [hit, ((accounts.records data).mp (List.mem_of_find?_eq_some hit)).2, address]
  rw [step, found]
  rfl

/-! ### Balance -/

/-- Between callbacks every reference is accounted for, and a notification settles its
own record only. -/
structure Owned (s : Monitor) : Prop where
  classNames : ∀ n, .className n ∈ s.obtained → s.released.count (.className n) = 1
  services : ∀ n, .service n ∈ s.obtained →
    s.released.count (.service n) = 1 ∧ (∀ data ∈ s.records, data.service ≠ .service n) ∨
    s.released.count (.service n) = 0 ∧ ∃ data ∈ s.records, data.service = .service n ∧
      s.records.count data = 1 ∧ (∀ other ∈ s.records, other.service = .service n → other = data) ∧
      data.notification ∈ s.obtained ∧ data.notification ∉ s.released
  terminated : ∀ data ∈ s.records, ∃ t,
    step s (.deviceNotification data.address kIOMessageServiceIsTerminated) = some t ∧
      t.released = data.service :: data.notification :: s.released ∧
      t.released.count data.service = 1 ∧ t.released.count data.notification = 1 ∧
      t.deleted.count data.address = 1 ∧
      ∀ other, other ∈ t.records ↔ other ∈ s.records ∧ other ≠ data
  unhandled : ∀ data ∈ s.records, ∀ messageType, messageType ≠ kIOMessageServiceIsTerminated →
    step s (.deviceNotification data.address messageType) = some s

/-- Nothing has leaked: each service is held by its record or was released with it. -/
def Ledger.Sound (ledger : Ledger) : Prop :=
  ∀ (n : Nat) (status : Status), ledger[n]? = some status → status = .live ∨ status = .terminated

theorem sound_iff_mem (ledger : Ledger) :
    ledger.Sound ↔ ∀ status ∈ ledger, status = .live ∨ status = .terminated := by
  constructor
  · intro sound status member
    obtain ⟨n, at_⟩ := List.mem_iff_getElem?.mp member
    exact sound n status at_
  · intro all n status at_
    exact all status (List.mem_of_getElem? at_)

theorem sound_append (first second : Ledger) :
    Ledger.Sound (first ++ second) ↔ first.Sound ∧ second.Sound := by
  simp only [sound_iff_mem, List.mem_append, or_imp, forall_and]

theorem sound_set {ledger : Ledger} (live : ledger[n]? = some .live) :
    Ledger.Sound (ledger.set n .terminated) ↔ ledger.Sound := by
  have inside : n < ledger.length := (List.getElem?_eq_some_iff.mp live).1
  constructor
  · intro sound m status at_
    by_cases same : m = n
    · rw [same, live] at at_
      exact Or.inl (Option.some.inj at_).symm
    · exact sound m status (by rw [List.getElem?_set_ne (Ne.symm same), at_])
  · intro sound m status at_
    by_cases same : m = n
    · rw [same, List.getElem?_set_self inside] at at_
      exact Or.inr (Option.some.inj at_).symm
    · exact sound m status (by rwa [List.getElem?_set_ne (Ne.symm same)] at at_)

/-- A service that is released or held is not one that was passed over. -/
theorem sound_of_owned (accounts : Accounts s ledger) (owned : Owned s) : ledger.Sound := by
  intro n status at_
  have inside : n < ledger.length := (List.getElem?_eq_some_iff.mp at_).1
  rcases owned.services n ((accounts.service n).mpr inside) with ⟨once, _⟩ | ⟨_, data, held, same, _⟩
  · have count := accounts.serviceReleased n
    rw [once] at count
    split at count
    case isTrue gone => exact Or.inr (Option.some.inj (at_.symm.trans gone))
    case isFalse => contradiction
  · obtain ⟨live, eq⟩ := (accounts.records data).mp held
    rw [eq] at same
    cases same
    exact Or.inl (Option.some.inj (at_.symm.trans live))

theorem live_service (accounts : Accounts s ledger) (live : ledger[n]? = some .live) :
    s.released.count (.service n) = 0 ∧ ∃ data ∈ s.records, data.service = .service n ∧
      s.records.count data = 1 ∧ (∀ other ∈ s.records, other.service = .service n → other = data) ∧
      data.notification ∈ s.obtained ∧ data.notification ∉ s.released := by
  have member : record n ∈ s.records := (accounts.records (record n)).mpr ⟨live, rfl⟩
  have count := accounts.serviceReleased n
  have kept := accounts.notificationReleased n
  rw [live] at count kept
  refine ⟨count, record n, member, rfl, accounts.once.count.trans (if_pos member), ?_,
    accounts.notification n live, List.count_eq_zero.mp kept⟩
  intro other held same
  rw [((accounts.records other).mp held).2] at same ⊢
  cases same
  rfl

theorem gone_service (accounts : Accounts s ledger) (gone : ledger[n]? = some .terminated) :
    s.released.count (.service n) = 1 ∧ ∀ data ∈ s.records, data.service ≠ .service n := by
  have count := accounts.serviceReleased n
  rw [gone] at count
  refine ⟨count, ?_⟩
  intro data held same
  obtain ⟨live, eq⟩ := (accounts.records data).mp held
  rw [eq] at same
  cases same
  rw [gone] at live
  contradiction

/-- A termination settles the record it is for and leaves the others. -/
theorem terminated_record (accounts : Accounts s ledger) (member : data ∈ s.records) :
    ∃ t, step s (.deviceNotification data.address kIOMessageServiceIsTerminated) = some t ∧
      t.released = data.service :: data.notification :: s.released ∧
      t.released.count data.service = 1 ∧ t.released.count data.notification = 1 ∧
      t.deleted.count data.address = 1 ∧
      ∀ other, other ∈ t.records ↔ other ∈ s.records ∧ other ≠ data := by
  obtain ⟨live, eq⟩ := (accounts.records data).mp member
  have after := accounts_terminated accounts live
  have inside : data.address < ledger.length := (List.getElem?_eq_some_iff.mp live).1
  have gone := List.getElem?_set_self (a := Status.terminated) inside
  have service := after.serviceReleased data.address
  have notification := after.notificationReleased data.address
  have deleted := after.deleted data.address
  rw [gone] at service notification deleted
  rw [eq]
  refine ⟨_, step_notified accounts live _, rfl, service, notification, deleted, ?_⟩
  intro other
  rw [deviceNotification, if_pos rfl]
  exact accounts.once.mem_erase_iff.trans and_comm

theorem owned_of_sound (accounts : Accounts s ledger) (sound : ledger.Sound) : Owned s := by
  have status : ∀ n, n < ledger.length →
      ledger[n]? = some .live ∨ ledger[n]? = some .terminated := by
    intro n inside
    have at_ := List.getElem?_eq_getElem inside
    rcases sound n _ at_ with same | same <;> rw [at_, same] <;> simp
  refine ⟨?_, ?_, fun data member => terminated_record accounts member, ?_⟩
  · intro n obtained
    have count := accounts.named n
    rcases status n ((accounts.className n).mp obtained) with live | gone
    · rw [count, live]
      rfl
    · rw [count, gone]
      rfl
  · intro n obtained
    rcases status n ((accounts.service n).mp obtained) with live | gone
    · exact Or.inr (live_service accounts live)
    · exact Or.inl (gone_service accounts gone)
  · intro data member messageType other
    obtain ⟨live, eq⟩ := (accounts.records data).mp member
    rw [step_notified accounts live, deviceNotification, if_neg other]

theorem owned_iff (accounts : Accounts s ledger) : Owned s ↔ ledger.Sound :=
  ⟨sound_of_owned accounts, owned_of_sound accounts⟩

/-! ### Runs -/

/-- A yielded service of the class itself whose notification is registered. -/
def Service.Kept (found : Service) : Prop := found.className = "IOUSBDevice" ∧ found.registers = true

def Callback.Kept : Callback → Prop
  | .deviceAdded iterator => ∀ found ∈ iterator, found.Kept
  | .deviceNotification .. => True

theorem status_kept (found : Service) :
    found.status = .live ∨ found.status = .terminated ↔ found.Kept := by
  unfold Service.status Service.Kept
  split
  · split <;> simp_all
  · simp_all

theorem accounts_step (accounts : Accounts s ledger) (stepped : step s callback = some t) :
    ∃ ledger', Accounts t ledger' ∧ (ledger'.Sound ↔ ledger.Sound ∧ callback.Kept) := by
  cases callback with
  | deviceAdded iterator =>
    cases stepped
    refine ⟨_, accounts_deviceAdded accounts iterator, ?_⟩
    rw [sound_append, sound_iff_mem (iterator.map Service.status)]
    simp only [List.mem_map, forall_exists_index, and_imp, forall_apply_eq_imp_iff₂, status_kept]
    rfl
  | deviceNotification refCon messageType =>
    obtain ⟨data, found, same⟩ := Option.map_eq_some_iff.mp stepped
    obtain ⟨live, eq⟩ := (accounts.records data).mp (List.mem_of_find?_eq_some found)
    cases same
    by_cases type : messageType = kIOMessageServiceIsTerminated
    · rw [type, eq]
      refine ⟨_, accounts_terminated accounts live, ?_⟩
      rw [sound_set live]
      exact (and_iff_left trivial).symm
    · rw [deviceNotification, if_neg type]
      exact ⟨ledger, accounts, (and_iff_left trivial).symm⟩

theorem accounts_run (run : Run (stepOf step) s callbacks t) :
    ∀ ledger, Accounts s ledger → ∃ ledger', Accounts t ledger' ∧
      (ledger'.Sound ↔ ledger.Sound ∧ ∀ callback ∈ callbacks, callback.Kept) := by
  induction run with
  | stay s => exact fun ledger accounts => ⟨ledger, accounts, by simp⟩
  | next head _ ih =>
    intro ledger accounts
    obtain ⟨middle, between, one⟩ := accounts_step accounts head
    obtain ⟨last, after, rest⟩ := ih middle between
    refine ⟨last, after, ?_⟩
    rw [rest, one, List.forall_mem_cons, and_assoc]

/-- After any run the references are accounted for exactly when every service that an
iterator has yielded was of the class itself and could be registered. -/
theorem run_owned_iff (run : Run (stepOf step) Monitor.initial callbacks s) :
    Owned s ↔ ∀ callback ∈ callbacks, callback.Kept := by
  obtain ⟨ledger, accounts, sound⟩ := accounts_run run [] accounts_initial
  have empty : Ledger.Sound [] := nofun
  rw [owned_iff accounts, sound]
  exact and_iff_right empty

/-- A device that comes and goes. -/
def plugged : List Callback :=
  [.deviceAdded [⟨"IOUSBDevice", true⟩], .deviceNotification 0 kIOMessageServiceIsTerminated]

theorem run_owned_iff_plugged :
    Owned ⟨1, [.notification 0, .className 0, .service 0],
      [.service 0, .notification 0, .className 0], [], [0]⟩ := by
  have run : Run (stepOf step) Monitor.initial plugged _ := exec_run rfl
  exact (run_owned_iff run).mpr (by simp [plugged, Callback.Kept, Service.Kept])

/-- A device of a subclass, and one whose notification is refused. -/
def unplugged : List Callback := [.deviceAdded [⟨"IOUSBHostDevice", true⟩, ⟨"IOUSBDevice", false⟩]]

/-- Neither service reference is ever released, and one class name is not either. -/
theorem unplugged_leaks : ∃ s, Run (stepOf step) Monitor.initial unplugged s ∧ ¬ Owned s := by
  refine ⟨_, exec_run rfl, ?_⟩
  intro owned
  have released := owned.classNames 1 (by decide)
  exact absurd released (by decide)

end MonitoringDemos.IOKit
