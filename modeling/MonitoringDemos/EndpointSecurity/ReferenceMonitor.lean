import MonitoringDemos.EndpointSecurity.Handler

/-! The handler as a reference monitor: which files a request names, when it is to be
refused, and that the decision on a subscribed request is what the policy has it to be. -/
namespace MonitoringDemos.EndpointSecurity
open Text

/-! ### The policy -/

def dirEntry (dir : EsFile) (name : EsStringToken) : List UInt8 :=
  dir.path.toString ++ slash :: name.toString

/-- The names that a request carries. -/
inductive Names : Event → List UInt8 → Prop where
  | createExisting : Names (.create (.existingFile file)) file.path.toString
  | createNew : Names (.create (.newPath dir filename)) (dirEntry dir filename)
  | cloneSource : Names (.clone source targetDir targetName) source.path.toString
  | cloneTarget : Names (.clone source targetDir targetName) (dirEntry targetDir targetName)
  | linkSource : Names (.link source targetDir targetFilename) source.path.toString
  | linkTarget : Names (.link source targetDir targetFilename) (dirEntry targetDir targetFilename)
  | materializeSource : Names (.fileProviderMaterialize source target) source.path.toString
  | materializeTarget : Names (.fileProviderMaterialize source target) target.path.toString
  | updateSource : Names (.fileProviderUpdate source targetPath) source.path.toString
  | updateTarget : Names (.fileProviderUpdate source targetPath) targetPath.toString
  | openFile : Names (.openFile fflag file) file.path.toString
  | readdir : Names (.readdir target) target.path.toString
  | readlink : Names (.readlink source) source.path.toString
  | truncate : Names (.truncate target) target.path.toString
  | renameSource : Names (.rename source destination) source.path.toString
  | renameExisting : Names (.rename source (.existingFile file)) file.path.toString
  | renameNew : Names (.rename source (.newPath dir filename)) (dirEntry dir filename)
  | unlinkParent : Names (.unlink target parentDir) parentDir.path.toString
  | unlinkTarget : Names (.unlink target parentDir) target.path.toString

def EventType.isAuth : EventType → Bool
  | .authExec | .authChdir | .authClone | .authCreate | .authFileProviderMaterialize
  | .authFileProviderUpdate | .authLink | .authMount | .authOpen | .authReaddir | .authReadlink
  | .authRename | .authTruncate | .authUnlink => true
  | _ => false

/-- A message that asks for a decision and that the demo has subscribed to. -/
structure Subscribed (msg : Message) : Prop where
  action : msg.actionType = .auth
  auth : msg.event.type.isAuth = true
  interest : msg.event.type ∈ eventsOfInterest

/-- A request to refuse: neither an exec nor a mount, and a name contains a blocked path. -/
def Blocked (blockedPaths : List (List UInt8)) (event : Event) : Prop :=
  event.type ≠ .authExec ∧ event.type ≠ .authMount ∧
    ∃ name, Names event name ∧ ∃ path ∈ blockedPaths, path <:+: name

/-- Deny, or for an open grant reading only. -/
def refusal : Event → Response
  | .openFile .. => .flags (fflags oRdonly)
  | _ => .auth .deny

/-! ### The functions agree with it -/

theorem names_mem (named : Names event name) : name ∈ pathsFromEvent event := by
  cases named <;> simp [pathsFromEvent, Destination.path, dirEntry]

theorem mem_names (auth : event.type.isAuth = true) (interest : event.type ∈ eventsOfInterest)
    (member : name ∈ pathsFromEvent event) : Names event name := by
  cases event with
  | create destination =>
    cases destination with
    | existingFile file => cases List.mem_singleton.mp member; exact .createExisting
    | newPath dir filename => cases List.mem_singleton.mp member; exact .createNew
  | rename source destination =>
    rcases List.mem_pair.mp member with rfl | rfl
    · exact .renameSource
    · cases destination with
      | existingFile file => exact .renameExisting
      | newPath dir filename => exact .renameNew
  | clone source targetDir targetName =>
    rcases List.mem_pair.mp member with rfl | rfl
    · exact .cloneSource
    · exact .cloneTarget
  | link source targetDir targetFilename =>
    rcases List.mem_pair.mp member with rfl | rfl
    · exact .linkSource
    · exact .linkTarget
  | fileProviderMaterialize source target =>
    rcases List.mem_pair.mp member with rfl | rfl
    · exact .materializeSource
    · exact .materializeTarget
  | fileProviderUpdate source targetPath =>
    rcases List.mem_pair.mp member with rfl | rfl
    · exact .updateSource
    · exact .updateTarget
  | unlink target parentDir =>
    rcases List.mem_pair.mp member with rfl | rfl
    · exact .unlinkParent
    · exact .unlinkTarget
  | openFile fflag file => cases List.mem_singleton.mp member; exact .openFile
  | readdir target => cases List.mem_singleton.mp member; exact .readdir
  | readlink source => cases List.mem_singleton.mp member; exact .readlink
  | truncate target => cases List.mem_singleton.mp member; exact .truncate
  | exec | mount => contradiction
  | chdir target => exact absurd interest (by simp only [Event.type]; decide)
  | _ => simp [Event.type, EventType.isAuth] at auth

theorem names_exempt (named : Names event name) :
    event.type ≠ .authExec ∧ event.type ≠ .authMount := by
  cases named <;> exact ⟨nofun, nofun⟩

theorem findOccurence_iff (blockedPaths : List (List UInt8)) (str : List UInt8) :
    findOccurence blockedPaths str = true ↔ ∃ path ∈ blockedPaths, path <:+: str := by
  simp only [findOccurence, List.any_eq_true, find_isSome]

theorem occursIn_iff (blockedPaths : List (List UInt8)) (event : Event) :
    occursIn blockedPaths event = true ↔
      ∃ name ∈ pathsFromEvent event, ∃ path ∈ blockedPaths, path <:+: name := by
  simp only [occursIn, List.any_eq_true, findOccurence_iff]

/-- What the code searches is what the policy calls blocked: the two types that the
policy exempts have no paths. -/
theorem occursIn_blocked {msg : Message} (subscribed : Subscribed msg)
    (blockedPaths : List (List UInt8)) :
    occursIn blockedPaths msg.event = true ↔ Blocked blockedPaths msg.event := by
  rw [occursIn_iff]
  constructor
  · rintro ⟨name, member, path, listed, inside⟩
    have named := mem_names subscribed.auth subscribed.interest member
    obtain ⟨exec, mount⟩ := names_exempt named
    exact ⟨exec, mount, name, named, path, listed, inside⟩
  · rintro ⟨_, _, name, named, path, listed, inside⟩
    exact ⟨name, names_mem named, path, listed, inside⟩

theorem eventTypeToStr_interest (interest : type ∈ eventsOfInterest) :
    ∃ name, eventTypeToStr type = .ok name := by
  have named : ∀ type ∈ eventsOfInterest, (eventTypeToStrMap.lookup type).isSome = true := by decide
  obtain ⟨name, found⟩ := Option.isSome_iff_exists.mp (named type interest)
  exact ⟨name, by rw [eventTypeToStr, found]⟩

/-- Printing a message of a subscribed type does not throw. -/
theorem print_interest (interest : event.type ∈ eventsOfInterest) : print event = .ok () := by
  obtain ⟨name, found⟩ := eventTypeToStr_interest interest
  unfold print
  rw [found]
  cases event with
  | create destination => cases destination <;> rfl
  | rename source destination => cases destination <;> rfl
  | other type => exact absurd interest (by simp [Event.type, eventsOfInterest])
  | _ => rfl

/-- What the two decision functions return between them. -/
def decision (blockedPaths : List (List UInt8)) (msg : Message) : Except OutOfRange Response :=
  if msg.event.type = .authOpen then (flagsEventHandler blockedPaths msg).map .flags
  else (authEventHandler blockedPaths msg).map .auth

theorem handler_auth (action : msg.actionType = .auth) (blockedPaths : List (List UInt8))
    (es : Reply → RespondResult) :
    handler blockedPaths es msg = respond es (decision blockedPaths msg) := by
  simp only [handler, action, decision]
  split <;> rfl

theorem flagsEventHandler_open (blockedPaths : List (List UInt8)) (action : ActionType)
    (fflag : Int32) (file : EsFile) :
    flagsEventHandler blockedPaths ⟨action, .openFile fflag file⟩ =
      .ok (if occursIn blockedPaths (.openFile fflag file) then fflags oRdonly
        else fflag.toUInt32) := by
  unfold flagsEventHandler
  cases occursIn blockedPaths (.openFile fflag file) <;> rfl

theorem authEventHandler_eq {msg : Message} (subscribed : Subscribed msg)
    (other : msg.event.type ≠ .authOpen) (blockedPaths : List (List UInt8)) :
    authEventHandler blockedPaths msg =
      .ok (if occursIn blockedPaths msg.event then .deny else .allow) := by
  have printed := print_interest subscribed.interest
  obtain ⟨name, found⟩ := eventTypeToStr_interest subscribed.interest
  obtain ⟨_, auth, interest⟩ := subscribed
  obtain ⟨action, event⟩ := msg
  unfold authEventHandler
  cases event with
  | exec | mount => rfl
  | openFile => contradiction
  | chdir target => exact absurd interest (by simp only [Event.type]; decide)
  | create | clone | fileProviderMaterialize | fileProviderUpdate | link | readdir | readlink
  | rename | truncate | unlink =>
    -- these share one branch: search, print and deny
    simp only [found, printed]
    split <;> rfl
  | _ => simp [Event.type, EventType.isAuth] at auth

/-- A decision on a subscribed request does not throw, and depends on the search only. -/
theorem decision_eq {msg : Message} (subscribed : Subscribed msg)
    (blockedPaths : List (List UInt8)) :
    decision blockedPaths msg = .ok (if occursIn blockedPaths msg.event then refusal msg.event
      else getDefaultESResponse msg.event) := by
  by_cases type : msg.event.type = .authOpen
  · rw [decision, if_pos type]
    obtain ⟨action, event⟩ := msg
    cases event with
    | openFile fflag file =>
      rw [flagsEventHandler_open]
      cases occursIn blockedPaths (.openFile fflag file) <;> rfl
    | _ => contradiction
  · rw [decision, if_neg type, authEventHandler_eq subscribed type]
    obtain ⟨action, event⟩ := msg
    cases occursIn blockedPaths event <;> cases event with
    | openFile => contradiction
    | _ => rfl

def Response.isFlags : Response → Bool
  | .flags _ => true
  | .auth _ => false

theorem respond_ok (es : Reply → RespondResult) (response : Response) :
    (respond es (.ok response)).replies = [⟨response, false⟩] := by
  simp only [respond]
  split <;> rfl

theorem default_isFlags (event : Event) :
    (getDefaultESResponse event).isFlags = true ↔ event.type = .authOpen := by
  cases event <;> simp [getDefaultESResponse, Response.isFlags, Event.type]

theorem refusal_isFlags (event : Event) :
    (refusal event).isFlags = true ↔ event.type = .authOpen := by
  cases event <;> simp [refusal, Response.isFlags, Event.type]

end MonitoringDemos.EndpointSecurity
