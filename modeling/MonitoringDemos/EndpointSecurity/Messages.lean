import MonitoringDemos.Text

/-! The Endpoint Security messages and the functions of Tools-ES.mm the handler uses.
A union with its tag is one inductive type, so every message is well formed: its
pointers are valid and its destinations are of one of the two known kinds. This is the
layer without output: of the stream operators only the look-ups are kept, which may throw.
What they print, and what else can keep them from coming to an end, is in `Printing`. -/
namespace MonitoringDemos.EndpointSecurity
open Text

/-! ### Messages -/

/-- `data` holds at least `length` bytes. -/
structure EsStringToken where
  length : Nat
  data : Option (List UInt8)
  valid : ∀ bytes ∈ data, length ≤ bytes.length

structure EsFile where
  path : EsStringToken

inductive Destination where
  | existingFile (file : EsFile)
  | newPath (dir : EsFile) (filename : EsStringToken)

/-- The arms of the union `event` with the fields that the handler reads. Fields that are
only printed, as the mode of an access, are in `Printing.Event`. -/
inductive Event where
  | exec | exit | fork
  | access (target : EsFile)
  | chdir (target : EsFile)
  | clone (source targetDir : EsFile) (targetName : EsStringToken)
  | close (target : EsFile)
  | create (destination : Destination)
  | fileProviderMaterialize (source target : EsFile)
  | fileProviderUpdate (source : EsFile) (targetPath : EsStringToken)
  | exchangedata (file1 file2 : EsFile)
  | link (source targetDir : EsFile) (targetFilename : EsStringToken)
  | mount
  | openFile (fflag : Int32) (file : EsFile)
  | readdir (target : EsFile)
  | readlink (source : EsFile)
  | rename (source : EsFile) (destination : Destination)
  | truncate (target : EsFile)
  | unlink (target parentDir : EsFile)
  | unmount
  | write (target : EsFile)
  | iokitOpen | kextload | kextunload
  /-- A type that the demo does not name. -/
  | other (type : UInt32)

inductive EventType where
  | authExec | notifyExit | notifyFork | notifyAccess | authChdir | authClone | notifyClose
  | authCreate | authFileProviderMaterialize | authFileProviderUpdate | notifyExchangedata
  | authLink | authMount | authOpen | authReaddir | authReadlink | authRename | authTruncate
  | authUnlink | notifyUnmount | notifyWrite | notifyIokitOpen | notifyKextload | notifyKextunload
  | other (type : UInt32)
  deriving DecidableEq, Repr

def Event.type : Event → EventType
  | .exec => .authExec
  | .exit => .notifyExit
  | .fork => .notifyFork
  | .access .. => .notifyAccess
  | .chdir .. => .authChdir
  | .clone .. => .authClone
  | .close .. => .notifyClose
  | .create .. => .authCreate
  | .fileProviderMaterialize .. => .authFileProviderMaterialize
  | .fileProviderUpdate .. => .authFileProviderUpdate
  | .exchangedata .. => .notifyExchangedata
  | .link .. => .authLink
  | .mount => .authMount
  | .openFile .. => .authOpen
  | .readdir .. => .authReaddir
  | .readlink .. => .authReadlink
  | .rename .. => .authRename
  | .truncate .. => .authTruncate
  | .unlink .. => .authUnlink
  | .unmount => .notifyUnmount
  | .write .. => .notifyWrite
  | .iokitOpen => .notifyIokitOpen
  | .kextload => .notifyKextload
  | .kextunload => .notifyKextunload
  | .other type => .other type

inductive ActionType where
  | auth | notify
  deriving DecidableEq, Repr

structure Message where
  actionType : ActionType
  event : Event

inductive AuthResult where
  | allow | deny
  deriving DecidableEq, Repr

inductive RespondResult where
  | success | errInvalidArgument | errInternal | notFound | errDuplicateResponse | errEventType
  | other (code : UInt32)
  deriving DecidableEq, Repr

/-! ### Look-ups -/

/-- Which `std::map::at` has thrown. -/
inductive OutOfRange where
  | eventType | respondResult | destinationType
  deriving DecidableEq, Repr

inductive DestinationType where
  | existingFile | newPath
  deriving DecidableEq, Repr

def Destination.type : Destination → DestinationType
  | .existingFile _ => .existingFile
  | .newPath .. => .newPath

def eventTypeToStrMap : List (EventType × String) := [
  (.authExec, "ES_EVENT_TYPE_AUTH_EXEC"),
  (.notifyExit, "ES_EVENT_TYPE_NOTIFY_EXIT"),
  (.notifyFork, "ES_EVENT_TYPE_NOTIFY_FORK"),
  (.notifyAccess, "ES_EVENT_TYPE_NOTIFY_ACCESS"),
  (.authChdir, "ES_EVENT_TYPE_AUTH_CHDIR"),
  (.authClone, "ES_EVENT_TYPE_AUTH_CLONE"),
  (.notifyClose, "ES_EVENT_TYPE_NOTIFY_CLOSE"),
  (.authCreate, "ES_EVENT_TYPE_AUTH_CREATE"),
  (.authFileProviderMaterialize, "ES_EVENT_TYPE_AUTH_FILE_PROVIDER_MATERIALIZE"),
  (.authFileProviderUpdate, "ES_EVENT_TYPE_AUTH_FILE_PROVIDER_UPDATE"),
  (.notifyExchangedata, "ES_EVENT_TYPE_NOTIFY_EXCHANGEDATA"),
  (.authLink, "ES_EVENT_TYPE_AUTH_LINK"),
  (.authMount, "ES_EVENT_TYPE_AUTH_MOUNT"),
  (.authOpen, "ES_EVENT_TYPE_AUTH_OPEN"),
  (.authReaddir, "ES_EVENT_TYPE_AUTH_READDIR"),
  (.authReadlink, "ES_EVENT_TYPE_AUTH_READLINK"),
  (.authRename, "ES_EVENT_TYPE_AUTH_RENAME"),
  (.authTruncate, "ES_EVENT_TYPE_AUTH_TRUNCATE"),
  (.authUnlink, "ES_EVENT_TYPE_AUTH_UNLINK"),
  (.notifyUnmount, "ES_EVENT_TYPE_NOTIFY_UNMOUNT"),
  (.notifyWrite, "ES_EVENT_TYPE_NOTIFY_WRITE"),
  (.notifyIokitOpen, "ES_EVENT_TYPE_NOTIFY_IOKIT_OPEN"),
  (.notifyKextload, "ES_EVENT_TYPE_NOTIFY_KEXTLOAD"),
  (.notifyKextunload, "ES_EVENT_TYPE_NOTIFY_KEXTUNLOAD")]

def respondResultToStrMap : List (RespondResult × String) := [
  (.success, "ES_RESPOND_RESULT_SUCCESS"),
  (.errInvalidArgument, "ES_RESPOND_RESULT_ERR_INVALID_ARGUMENT"),
  (.errInternal, "ES_RESPOND_RESULT_ERR_INTERNAL"),
  (.notFound, "ES_RESPOND_RESULT_NOT_FOUND"),
  (.errDuplicateResponse, "ES_RESPOND_RESULT_ERR_DUPLICATE_RESPONSE"),
  (.errEventType, "ES_RESPOND_RESULT_ERR_EVENT_TYPE")]

def destinationTypeToStrMap : List (DestinationType × String) := [
  (.existingFile, "ES_DESTINATION_TYPE_EXISTING_FILE"),
  (.newPath, "ES_DESTINATION_TYPE_NEW_PATH")]

def eventTypeToStr (type : EventType) : Except OutOfRange String :=
  match eventTypeToStrMap.lookup type with
  | some name => .ok name
  | none => .error .eventType

def respondResultToStr (result : RespondResult) : Except OutOfRange String :=
  match respondResultToStrMap.lookup result with
  | some name => .ok name
  | none => .error .respondResult

def destinationTypeToStr (type : DestinationType) : Except OutOfRange String :=
  match destinationTypeToStrMap.lookup type with
  | some name => .ok name
  | none => .error .destinationType

/-! ### Paths -/

def EsStringToken.toString (esString : EsStringToken) : List UInt8 :=
  match esString.data with
  | none => ascii "(null)"
  | some bytes => if esString.length = 0 then ascii "(null)" else bytes.take esString.length

def slash : UInt8 := 0x2f

def Destination.path : Destination → List UInt8
  | .existingFile file => file.path.toString
  | .newPath dir filename => dir.path.toString ++ slash :: filename.toString

def pathsFromEvent : Event → List (List UInt8)
  | .access target => [target.path.toString]
  | .chdir target => [target.path.toString]
  | .create destination => [destination.path]
  | .clone source targetDir targetName =>
    [source.path.toString, targetDir.path.toString ++ slash :: targetName.toString]
  | .close target => [target.path.toString]
  | .fileProviderMaterialize source target => [source.path.toString, target.path.toString]
  | .fileProviderUpdate source targetPath => [source.path.toString, targetPath.toString]
  | .exchangedata file1 file2 => [file1.path.toString, file2.path.toString]
  | .link source targetDir targetFilename =>
    [source.path.toString, targetDir.path.toString ++ slash :: targetFilename.toString]
  | .openFile _ file => [file.path.toString]
  | .readdir target => [target.path.toString]
  | .readlink source => [source.path.toString]
  | .rename source destination => [source.path.toString, destination.path]
  | .truncate target => [target.path.toString]
  | .unlink target parentDir => [parentDir.path.toString, target.path.toString]
  | .write target => [target.path.toString]
  | _ => []

inductive Response where
  | flags (authorized : UInt32)
  | auth (result : AuthResult)
  deriving DecidableEq, Repr

def getDefaultESResponse : Event → Response
  | .openFile fflag _ => .flags fflag.toUInt32
  | _ => .auth .allow

/-- The look-ups of `operator <<` for a message. That the names of its flags are NULL, or
that the names of a mode are never found, are outcomes of `Printing.esMessage`. -/
def print (event : Event) : Except OutOfRange Unit := do
  let _ ← eventTypeToStr event.type
  match event with
  | .create destination | .rename _ destination =>
    let _ ← destinationTypeToStr destination.type
  | .other type => let _ ← eventTypeToStr (.other type)
  | _ => pure ()

end MonitoringDemos.EndpointSecurity
