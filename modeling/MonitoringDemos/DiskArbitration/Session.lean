import MonitoringDemos.Ledger
import Mathlib.Algebra.Order.Group.Multiset

/-! `main` of the DiskArbitration demo and its callbacks: what they print, answer and leave
behind for the disks that come, go, are renamed and are to be mounted. Which callback is
handed an event, and what the calls into CoreFoundation return, is up to the frameworks. -/
namespace MonitoringDemos.DiskArbitration
open Ledger

/-! ### Disks and registrations -/

inductive Key where
  | deviceProtocol | volumeMountable | volumeName
  deriving DecidableEq, Repr

inductive Value where
  | text (value : String)
  | flag (value : Bool)
  deriving DecidableEq, Repr

/-- A disk, with what `DADiskGetBSDName` and `DADiskCopyDescription` return for it. -/
structure Disk where
  bsdName : Option (List UInt8)
  deviceProtocol : String
  volumeMountable : Bool
  volumeName : String
  described : Bool
  /-- `kDADiskDescriptionVolumePathKey`, which a disk that is not mounted does not have. -/
  volumePath : Option (List UInt8)
  deriving DecidableEq, Repr

def Disk.value (disk : Disk) : Key → Value
  | .deviceProtocol => .text disk.deviceProtocol
  | .volumeMountable => .flag disk.volumeMountable
  | .volumeName => .text disk.volumeName

abbrev Dictionary := List (Key × Value)

inductive Callback where
  | gotDisk | gotDiskRemoval | gotRename | allowMount
  deriving DecidableEq, Repr

structure Registration where
  callback : Callback
  matching : Option Dictionary
  /-- The keys that are watched, for `got_rename` only. -/
  keys : List Key
  deriving DecidableEq, Repr

/-- `kDADiskDescriptionMatchVolumeMountable`. -/
def matchVolumeMountable : Dictionary := [(.volumeMountable, .flag true)]

/-- What becomes of a disk. The keys are those that the callback is told. -/
inductive Change where
  | appeared | disappeared
  | description (keys : List Key)
  | mountApproval
  deriving DecidableEq, Repr

structure DiskEvent where
  disk : Disk
  change : Change
  deriving DecidableEq, Repr

/-- The callback that is registered for such a change. -/
def Change.callback : Change → Callback
  | .appeared => .gotDisk
  | .disappeared => .gotDiskRemoval
  | .description _ => .gotRename
  | .mountApproval => .allowMount

def Change.keys : Change → List Key
  | .description keys => keys
  | _ => []

/-- A change of the description is watched by its keys, any other by its callback. -/
def Change.Watched (watch : List Key) : Change → Prop
  | .description keys => ∃ key ∈ keys, key ∈ watch
  | _ => True

/-! ### The frameworks -/

/-- What DiskArbitration and CoreFoundation answer. -/
structure Frameworks where
  /-- Whether an event is handed to a registered callback. -/
  takes : Registration → DiskEvent → Bool
  /-- `CFURLGetFileSystemRepresentation` for a URL or NULL: what is in the buffer, or `false`. -/
  fileSystemRepresentation : Option (List UInt8) → Nat → Option (List UInt8)
  /-- Whether `DASessionCreate`, `CFDictionaryCreateMutable` and `CFArrayCreateMutable` return
  anything but NULL. -/
  session : Bool
  matchingDict : Bool
  keys : Bool

/-- What is documented of the registrations. -/
structure Frameworks.Documented (frameworks : Frameworks) : Prop where
  /-- A callback is called for what it is registered for. -/
  kind : frameworks.takes registration event = true →
    registration.callback = event.change.callback
  watched : frameworks.takes registration event = true → event.change.Watched registration.keys
  /-- A null dictionary stands for all disks. -/
  everyDisk : registration.matching = none → registration.callback = event.change.callback →
    event.change.Watched registration.keys → frameworks.takes registration event = true
  /-- Of a disk, only what the dictionary names is looked at. -/
  ownKeys : registration.matching = some dictionary →
    (∀ entry ∈ dictionary, disk.value entry.1 = disk'.value entry.1) →
    frameworks.takes registration ⟨disk, change⟩ = frameworks.takes registration ⟨disk', change⟩

/-! ### The program -/

inductive Object where
  | session | matchingDict | keys | description
  deriving DecidableEq, Repr

inductive Line where
  | appeared (name : List UInt8)
  | removed (name : List UInt8)
  | renamed (name path : List UInt8) (keys : List Key)
  deriving DecidableEq, Repr

inductive Verdict where
  /-- `NULL`, or a dissenter with `kDAReturnExclusiveAccess`. -/
  | allowed | exclusiveAccess
  deriving DecidableEq, Repr

structure Session where
  registrations : List Registration
  objects : List (Event Object)
  lines : List Line
  verdicts : List Verdict
  deriving DecidableEq, Repr

def maxPathLen : Nat := 1024

namespace Session

def obtain (s : Session) (object : Object) : Session :=
  { s with objects := s.objects ++ [.obtain object] }

def show_ (s : Session) (line : Line) : Session := { s with lines := s.lines ++ [line] }

def gotDisk (s : Session) (disk : Disk) : Session := s.show_ (.appeared (disk.bsdName.getD []))

def gotDiskRemoval (s : Session) (disk : Disk) : Session :=
  s.show_ (.removed (disk.bsdName.getD []))

/-- `none` where a null pointer is read: a dictionary that was not copied, or a name that is
inserted. The description is not released. -/
def gotRename (s : Session) (frameworks : Frameworks) (disk : Disk) (keys : List Key) :
    Option Session :=
  if !disk.described then none
  else
    let s := s.obtain .description
    match frameworks.fileSystemRepresentation disk.volumePath maxPathLen with
    | none => some s
    | some fspath =>
      match disk.bsdName with
      | none => none
      | some name => some (s.show_ (.renamed name fspath keys))

def allowMount (s : Session) (_disk : Disk) : Session :=
  let allow : Int32 := 0
  if allow ≠ 0 then { s with verdicts := s.verdicts ++ [.allowed] }
  else { s with verdicts := s.verdicts ++ [.exclusiveAccess] }

/-- The call of a callback with what has become of the disk. -/
def call (frameworks : Frameworks) (event : DiskEvent) (s : Session)
    (registration : Registration) : Option Session :=
  match registration.callback with
  | .gotDisk => some (s.gotDisk event.disk)
  | .gotDiskRemoval => some (s.gotDiskRemoval event.disk)
  | .gotRename => s.gotRename frameworks event.disk event.change.keys
  | .allowMount => some (s.allowMount event.disk)

/-- An event is handed to the registrations that take it. -/
def deliver (s : Session) (frameworks : Frameworks) (event : DiskEvent) : Option Session :=
  (s.registrations.filter (frameworks.takes · event)).foldlM (call frameworks event) s

def runLoop (s : Session) (frameworks : Frameworks) : List DiskEvent → Option Session
  | [] => some s
  | event :: rest => (s.deliver frameworks event).bind fun s => s.runLoop frameworks rest

def register (s : Session) (callback : Callback) (matching : Option Dictionary)
    (keys : List Key) : Session :=
  { s with registrations := s.registrations ++ [⟨callback, matching, keys⟩] }

def unregister (s : Session) (callback : Callback) : Session :=
  { s with registrations := s.registrations.filter (·.callback ≠ callback) }

/-- The set-up in front of the run loop. The dictionary for USB disks is used nowhere. -/
def initial : Session :=
  let s : Session := ⟨[], [], [], []⟩
  let s := (s.obtain .session).obtain .matchingDict
  let s := s.register .gotDisk (some matchVolumeMountable) []
  let s := s.register .gotDiskRemoval none []
  let s := s.obtain .keys
  let s := s.register .gotRename none [.volumeName]
  s.register .allowMount none []

def finish (s : Session) : Session :=
  let s := (((s.unregister .gotDisk).unregister .allowMount).unregister .gotDiskRemoval).unregister
    .gotRename
  { s with objects := s.objects ++ [.release .session] }

end Session
open Session

/-- None of the three is tested. NULL is given to `CFDictionaryAddValue`, `CFArrayAppendValue`
or, behind the run loop, `CFRelease`. -/
def main (frameworks : Frameworks) (events : List DiskEvent) : Option Session :=
  if frameworks.matchingDict && frameworks.keys && frameworks.session then
    (initial.runLoop frameworks events).map Session.finish
  else none

/-! ### One event -/

def DiskEvent.renames (event : DiskEvent) : Bool := .volumeName ∈ event.change.keys

def DiskEvent.mounts (event : DiskEvent) : Bool := event.change = .mountApproval

variable {frameworks : Frameworks}

/-- The disk is described, and has a name if its path can be shown. -/
def Disk.Shown (frameworks : Frameworks) (disk : Disk) : Prop :=
  disk.described = true ∧
    ((frameworks.fileSystemRepresentation disk.volumePath maxPathLen).isSome = true →
      disk.bsdName.isSome = true)

def DiskEvent.Safe (frameworks : Frameworks) (event : DiskEvent) : Prop :=
  event.renames = true → event.disk.Shown frameworks

/-- The line for an event under the registrations of `main`. -/
def DiskEvent.line (frameworks : Frameworks) (event : DiskEvent) : List Line :=
  match event.change with
  | .appeared =>
    if frameworks.takes ⟨.gotDisk, some matchVolumeMountable, []⟩ event then
      [.appeared (event.disk.bsdName.getD [])]
    else []
  | .disappeared => [.removed (event.disk.bsdName.getD [])]
  | .description keys =>
    if .volumeName ∈ keys then
      (frameworks.fileSystemRepresentation event.disk.volumePath maxPathLen).toList.map
        fun path => .renamed (event.disk.bsdName.getD []) path keys
    else []
  | .mountApproval => []

/-- What an event adds: its lines, a description for a rename, a refusal for a mount. -/
structure Adds (s t : Session) (shown : List Line) (renames mounts : Nat) : Prop where
  registrations : t.registrations = s.registrations
  lines : t.lines = s.lines ++ shown
  objects : t.objects = s.objects ++ List.replicate renames (.obtain .description)
  verdicts : t.verdicts = s.verdicts ++ List.replicate mounts .exclusiveAccess

theorem adds_none (s : Session) : Adds s s [] 0 0 :=
  ⟨rfl, (List.append_nil _).symm, (List.append_nil _).symm, (List.append_nil _).symm⟩

theorem adds_line (s : Session) (line : Line) : Adds s (s.show_ line) [line] 0 0 :=
  ⟨rfl, rfl, (List.append_nil _).symm, (List.append_nil _).symm⟩

theorem Adds.trans (first : Adds s t shown renames mounts)
    (second : Adds t u shown' renames' mounts') :
    Adds s u (shown ++ shown') (renames + renames') (mounts + mounts') where
  registrations := second.registrations.trans first.registrations
  lines := by rw [second.lines, first.lines, List.append_assoc]
  objects := by
    rw [second.objects, first.objects, List.append_assoc, List.replicate_append_replicate]
  verdicts := by
    rw [second.verdicts, first.verdicts, List.append_assoc, List.replicate_append_replicate]

theorem gotRename_isSome (s : Session) (disk : Disk) (keys : List Key) :
    (s.gotRename frameworks disk keys).isSome = true ↔ disk.Shown frameworks := by
  unfold Session.gotRename Disk.Shown
  cases disk.described with
  | false => simp
  | true =>
    cases frameworks.fileSystemRepresentation disk.volumePath maxPathLen with
    | none => simp
    | some fspath => cases disk.bsdName <;> simp

theorem gotRename_adds (renamed : s.gotRename frameworks disk keys = some t) :
    Adds s t ((frameworks.fileSystemRepresentation disk.volumePath maxPathLen).toList.map
      fun path => .renamed (disk.bsdName.getD []) path keys) 1 0 := by
  have described : Adds s (s.obtain .description) [] 1 0 :=
    ⟨rfl, (List.append_nil _).symm, rfl, (List.append_nil _).symm⟩
  unfold Session.gotRename at renamed
  cases known : disk.described with
  | false => simp [known] at renamed
  | true =>
    cases path : frameworks.fileSystemRepresentation disk.volumePath maxPathLen with
    | none =>
      simp only [known, path, Bool.not_true, Bool.false_eq_true, if_false] at renamed
      cases Option.some.inj renamed
      exact described
    | some fspath =>
      cases named : disk.bsdName with
      | none => simp [known, path, named] at renamed
      | some name =>
        simp only [known, path, named, Bool.not_true, Bool.false_eq_true, if_false] at renamed
        cases Option.some.inj renamed
        exact described.trans (adds_line _ _)

/-- What becomes of an event under the registrations of `main`. -/
def Session.react (s : Session) (frameworks : Frameworks) (event : DiskEvent) : Option Session :=
  match event.change with
  | .appeared =>
    some (if frameworks.takes ⟨.gotDisk, some matchVolumeMountable, []⟩ event then
      s.gotDisk event.disk else s)
  | .disappeared => some (s.gotDiskRemoval event.disk)
  | .description keys =>
    if .volumeName ∈ keys then s.gotRename frameworks event.disk keys else some s
  | .mountApproval => some (s.allowMount event.disk)

theorem Frameworks.Documented.other (documented : frameworks.Documented)
    (other : registration.callback ≠ event.change.callback) :
    frameworks.takes registration event = false :=
  Bool.eq_false_iff.mpr (mt documented.kind other)

theorem deliver_registered (documented : frameworks.Documented) {s : Session}
    (registered : s.registrations = initial.registrations) (event : DiskEvent) :
    s.deliver frameworks event = s.react frameworks event := by
  have registrations : initial.registrations = [⟨.gotDisk, some matchVolumeMountable, []⟩,
    ⟨.gotDiskRemoval, none, []⟩, ⟨.gotRename, none, [.volumeName]⟩, ⟨.allowMount, none, []⟩] := rfl
  rw [Session.deliver, registered, registrations]
  obtain ⟨disk, change⟩ := event
  have other : ∀ callback matching keys, callback ≠ change.callback →
      frameworks.takes ⟨callback, matching, keys⟩ ⟨disk, change⟩ = false :=
    fun _ _ _ different => documented.other different
  have every : ∀ callback keys, callback = change.callback → change.Watched keys →
      frameworks.takes ⟨callback, none, keys⟩ ⟨disk, change⟩ = true :=
    fun callback keys => @documented.everyDisk ⟨callback, none, keys⟩ ⟨disk, change⟩ rfl
  cases change with
  | appeared =>
    have removal := other .gotDiskRemoval none [] nofun
    have rename := other .gotRename none [.volumeName] nofun
    have mount := other .allowMount none [] nofun
    cases taken : frameworks.takes ⟨.gotDisk, some matchVolumeMountable, []⟩ ⟨disk, .appeared⟩ <;>
      simp [Session.react, Session.call, removal, rename, mount, taken]
  | disappeared =>
    have taken := every .gotDiskRemoval [] rfl trivial
    have arrival := other .gotDisk (some matchVolumeMountable) [] nofun
    have rename := other .gotRename none [.volumeName] nofun
    have mount := other .allowMount none [] nofun
    simp [Session.react, Session.call, arrival, rename, mount, taken]
  | description keys =>
    have arrival := other .gotDisk (some matchVolumeMountable) [] nofun
    have removal := other .gotDiskRemoval none [] nofun
    have mount := other .allowMount none [] nofun
    by_cases named : Key.volumeName ∈ keys
    · have taken := every .gotRename [.volumeName] rfl
        ⟨.volumeName, named, List.mem_singleton.mpr rfl⟩
      simp [Session.react, Session.call, Change.keys, arrival, removal, mount,
        taken, named]
    · have unwatched : ¬ (Change.description keys).Watched [.volumeName] := by
        rintro ⟨key, member, watched⟩
        rw [List.mem_singleton.mp watched] at member
        contradiction
      have ignored := Bool.eq_false_iff.mpr (mt (@documented.watched
        ⟨.gotRename, none, [.volumeName]⟩ ⟨disk, .description keys⟩) unwatched)
      simp [Session.react, arrival, removal, mount, ignored, named]
  | mountApproval =>
    have taken := every .allowMount [] rfl trivial
    have arrival := other .gotDisk (some matchVolumeMountable) [] nofun
    have removal := other .gotDiskRemoval none [] nofun
    have rename := other .gotRename none [.volumeName] nofun
    simp [Session.react, Session.call, arrival, removal, rename, taken]

theorem react_isSome (s : Session) (event : DiskEvent) :
    (s.react frameworks event).isSome = true ↔ event.Safe frameworks := by
  unfold DiskEvent.Safe DiskEvent.renames
  obtain ⟨disk, change⟩ := event
  cases change with
  | description keys =>
    by_cases named : Key.volumeName ∈ keys
    · simp only [Session.react, Change.keys, named, if_true, gotRename_isSome, decide_true,
        true_imp_iff]
    · simp [Session.react, Change.keys, named]
  | _ => simp [Session.react, Change.keys]

theorem react_adds (reacted : s.react frameworks event = some t) :
    Adds s t (event.line frameworks) (if event.renames then 1 else 0)
      (if event.mounts then 1 else 0) := by
  unfold DiskEvent.line DiskEvent.renames DiskEvent.mounts
  obtain ⟨disk, change⟩ := event
  cases change with
  | appeared =>
    cases Option.some.inj reacted
    cases frameworks.takes ⟨.gotDisk, some matchVolumeMountable, []⟩ ⟨disk, .appeared⟩ with
    | true => exact adds_line s _
    | false => exact adds_none s
  | disappeared =>
    cases Option.some.inj reacted
    exact adds_line s _
  | description keys =>
    by_cases named : Key.volumeName ∈ keys
    · simp only [Session.react, if_pos named] at reacted
      simpa [Change.keys, named] using gotRename_adds reacted
    · simp only [Session.react, if_neg named] at reacted
      cases Option.some.inj reacted
      simpa [Change.keys, named] using adds_none _
  | mountApproval =>
    cases Option.some.inj reacted
    exact ⟨rfl, (List.append_nil _).symm, (List.append_nil _).symm, rfl⟩

/-! ### Runs -/

def renames (events : List DiskEvent) : Nat := events.countP DiskEvent.renames

def mounts (events : List DiskEvent) : Nat := events.countP DiskEvent.mounts

theorem runLoop_adds (documented : frameworks.Documented) {s : Session}
    (registered : s.registrations = initial.registrations) (events : List DiskEvent) :
    ((s.runLoop frameworks events).isSome = true ↔ ∀ event ∈ events, event.Safe frameworks) ∧
      ∀ t, s.runLoop frameworks events = some t →
        Adds s t (events.flatMap (DiskEvent.line frameworks)) (renames events) (mounts events) := by
  induction events generalizing s with
  | nil =>
    refine ⟨⟨fun _ => List.forall_mem_nil _, fun _ => rfl⟩, fun t ran => ?_⟩
    cases Option.some.inj ran
    exact adds_none s
  | cons event rest ih =>
    have safe := @react_isSome frameworks s event
    rw [Session.runLoop, deliver_registered documented registered, List.forall_mem_cons]
    cases reacted : s.react frameworks event with
    | none =>
      rw [reacted] at safe
      have unsafe_ : ¬ event.Safe frameworks := mt safe.mpr (by simp)
      simp [unsafe_]
    | some middle =>
      rw [reacted] at safe
      have first := react_adds reacted
      obtain ⟨ends, adds⟩ := ih (first.registrations.trans registered)
      refine ⟨?_, fun t ran => ?_⟩
      · rw [and_iff_right (safe.mp rfl)]
        exact ends
      · have whole := first.trans (adds t ran)
        simp only [renames, mounts, List.countP_cons, List.flatMap_cons]
        rw [Nat.add_comm (rest.countP _), Nat.add_comm (rest.countP _)]
        exact whole

/-- The event with another protocol of its disk. -/
def DiskEvent.onProtocol (protocol : String) (event : DiskEvent) : DiskEvent :=
  { event with disk := { event.disk with deviceProtocol := protocol } }

/-- The dictionary that is matched does not name the protocol. -/
theorem react_onProtocol (documented : frameworks.Documented) (s : Session) (protocol : String)
    (event : DiskEvent) :
    s.react frameworks (event.onProtocol protocol) = s.react frameworks event := by
  obtain ⟨disk, change⟩ := event
  cases change with
  | appeared =>
    have unnamed : ∀ entry ∈ matchVolumeMountable,
        ({ disk with deviceProtocol := protocol } : Disk).value entry.1 = disk.value entry.1 := by
      intro entry member
      rw [List.mem_singleton.mp member]
      rfl
    have same : frameworks.takes ⟨.gotDisk, some matchVolumeMountable, []⟩
        ⟨{ disk with deviceProtocol := protocol }, .appeared⟩ =
        frameworks.takes ⟨.gotDisk, some matchVolumeMountable, []⟩ ⟨disk, .appeared⟩ :=
      documented.ownKeys rfl unnamed
    simp only [Session.react, DiskEvent.onProtocol, same]
    rfl
  | _ => rfl

theorem runLoop_onProtocol (documented : frameworks.Documented) {s : Session}
    (registered : s.registrations = initial.registrations) (protocol : String)
    (events : List DiskEvent) :
    s.runLoop frameworks (events.map (DiskEvent.onProtocol protocol)) =
      s.runLoop frameworks events := by
  induction events generalizing s with
  | nil => rfl
  | cons event rest ih =>
    rw [List.map_cons, Session.runLoop, Session.runLoop, deliver_registered documented registered,
      deliver_registered documented registered, react_onProtocol documented]
    cases reacted : s.react frameworks event with
    | none => rfl
    | some middle => exact ih ((react_adds reacted).registrations.trans registered)

theorem settle_obtained (held : Multiset Object) (n : Nat) (object : Object) :
    settle held (List.replicate n (.obtain object)) =
      some (Multiset.replicate n object + held) := by
  induction n generalizing held with
  | zero => rw [List.replicate_zero, settle, Multiset.replicate_zero, Multiset.zero_add]
  | succ n ih =>
    rw [List.replicate_succ, settle, ih, Multiset.add_cons, Multiset.replicate_succ,
      Multiset.cons_add]

/-- Whether the set-up has handed out all that is used without a test. -/
def Frameworks.Given (frameworks : Frameworks) : Prop :=
  frameworks.matchingDict = true ∧ frameworks.keys = true ∧ frameworks.session = true

theorem main_given (given : frameworks.Given) (events : List DiskEvent) :
    main frameworks events = (initial.runLoop frameworks events).map Session.finish := by
  obtain ⟨matchingDict, keys, session⟩ := given
  rw [main, matchingDict, keys, session]
  rfl

theorem main_refused (refused : ¬ frameworks.Given) (events : List DiskEvent) :
    main frameworks events = none := by
  rw [main, if_neg]
  simpa [Frameworks.Given, and_assoc] using refused

/-- Dictionaries are compared entry by entry, and NULL has no representation. -/
def sampleFrameworks : Frameworks where
  takes registration event := registration.callback = event.change.callback &&
    (match registration.matching with
    | none => true
    | some dictionary => dictionary.all fun entry => event.disk.value entry.1 = entry.2) &&
    (match event.change with
    | .description keys => keys.any (· ∈ registration.keys)
    | _ => true)
  fileSystemRepresentation url _ := url
  session := true
  matchingDict := true
  keys := true

theorem sampleFrameworks_documented : sampleFrameworks.Documented where
  kind {registration event} taken := by
    simp only [sampleFrameworks, Bool.and_eq_true, decide_eq_true_eq] at taken
    exact taken.1.1
  watched {registration event} taken := by
    obtain ⟨disk, change⟩ := event
    cases change with
    | description keys =>
      simpa [sampleFrameworks, Change.Watched] using (Bool.and_eq_true_iff.mp taken).2
    | _ => trivial
  everyDisk {registration event} every kind watched := by
    obtain ⟨disk, change⟩ := event
    cases change with
    | description keys =>
      simpa [sampleFrameworks, every, kind, Change.callback, Change.Watched] using watched
    | _ => simp [sampleFrameworks, every, kind]
  ownKeys {dictionary registration disk change disk'} named same := by
    have matched : (dictionary.all fun entry => disk.value entry.1 = entry.2) =
        dictionary.all fun entry => disk'.value entry.1 = entry.2 := by
      rw [Bool.eq_iff_iff, List.all_eq_true, List.all_eq_true]
      exact forall₂_congr fun entry member => by rw [same entry member]
    simp only [sampleFrameworks, named, matched]

/-- A disk that is renamed while it is not mounted, and then is to be mounted. -/
def sampleEvents : List DiskEvent :=
  let disk : Disk := ⟨some [0x64], "USB", true, "d", true, none⟩
  [⟨disk, .description [.volumeName]⟩, ⟨disk, .mountApproval⟩]

end MonitoringDemos.DiskArbitration
