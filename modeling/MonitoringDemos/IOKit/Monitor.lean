/-! The two callbacks of `IOKitMonitor` and the references that pass through them. The
n-th service that an iterator yields gives the n-th references of each kind; a log
keeps what was obtained, released and deleted. -/
namespace MonitoringDemos.IOKit

inductive Ref where
  /-- From `IOIteratorNext`. -/
  | service (n : Nat)
  /-- From `IOObjectCopyClass`. -/
  | className (n : Nat)
  /-- From `IOServiceAddInterestNotification`. -/
  | notification (n : Nat)
  deriving DecidableEq, Repr

/-- A record on the heap, with its address, which is the `refCon` of its callback. -/
structure MyDriverData where
  address : Nat
  service : Ref
  notification : Ref
  deriving DecidableEq, Repr

structure Monitor where
  yielded : Nat
  obtained : List Ref
  /-- Passed to `IOObjectRelease` or `CFRelease`, last first. -/
  released : List Ref
  /-- The records whose notification has been registered and not removed. -/
  records : List MyDriverData
  /-- The addresses passed to `delete`. -/
  deleted : List Nat
  deriving DecidableEq, Repr

def Monitor.initial : Monitor := ⟨0, [], [], [], []⟩

def Monitor.release (s : Monitor) (ref : Ref) : Monitor := { s with released := ref :: s.released }

/-- A service that an iterator yields: its class, and whether
`IOServiceAddInterestNotification` succeeds on it. -/
structure Service where
  className : String
  registers : Bool
  deriving DecidableEq, Repr

/-- One turn of the loop of `DeviceAdded`. -/
def addService (s : Monitor) (found : Service) : Monitor :=
  let n := s.yielded
  let s := { s with
    yielded := n + 1
    obtained := .className n :: .service n :: s.obtained }
  if found.className = "IOUSBDevice" then
    let address := n
    if found.registers then
      { s with
        obtained := .notification n :: s.obtained
        records := ⟨address, .service n, .notification n⟩ :: s.records }.release (.className n)
    else
      -- `delete data; continue;`
      { s with deleted := address :: s.deleted }
  else s.release (.className n)

def deviceAdded (s : Monitor) (iterator : List Service) : Monitor := iterator.foldl addService s

def kIOMessageServiceIsTerminated : UInt32 := 0xe0000010

/-- `DeviceNotification` with the record its `refCon` points to. -/
def deviceNotification (s : Monitor) (data : MyDriverData) (messageType : UInt32) : Monitor :=
  if messageType = kIOMessageServiceIsTerminated then
    let s := (s.release data.notification).release data.service
    { s with records := s.records.erase data, deleted := data.address :: s.deleted }
  else s

inductive Callback where
  | deviceAdded (iterator : List Service)
  | deviceNotification (refCon : Nat) (messageType : UInt32)
  deriving DecidableEq, Repr

/-- Notifications arrive for registered records only. -/
def step (s : Monitor) : Callback → Option Monitor
  | .deviceAdded iterator => some (deviceAdded s iterator)
  | .deviceNotification refCon messageType =>
    (s.records.find? (·.address = refCon)).map fun data => deviceNotification s data messageType

end MonitoringDemos.IOKit
