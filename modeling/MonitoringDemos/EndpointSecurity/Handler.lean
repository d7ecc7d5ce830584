import MonitoringDemos.EndpointSecurity.Messages

/-! The handler block of the ESF demo and the three functions it dispatches to, without
their output: what a call decides once everything is printed. A call that throws has no
value; the replies sent before are kept. `Printing.handler` is the handler in full, and
`Printing.handler_entry` puts this one behind what it prints. -/
namespace MonitoringDemos.EndpointSecurity
open Text

def eventsOfInterest : List EventType := [
  .authExec, .notifyExit, .notifyFork,
  .notifyAccess, .authClone, .notifyClose, .authCreate, .authFileProviderMaterialize,
  .authFileProviderUpdate, .notifyExchangedata, .authLink, .authMount, .authOpen, .authReaddir,
  .authReadlink, .authRename, .authTruncate, .authUnlink, .notifyUnmount, .notifyWrite,
  .notifyIokitOpen, .notifyKextload, .notifyKextunload]

/-- `FFLAGS(oflags)`. -/
def fflags (oflags : UInt32) : UInt32 := oflags + 1

def oRdonly : UInt32 := 0

def findOccurence (blockedPaths : List (List UInt8)) (str : List UInt8) : Bool :=
  blockedPaths.any fun path => (find path str).isSome

/-- `std::any_of` over the paths of the event. -/
def occursIn (blockedPaths : List (List UInt8)) (event : Event) : Bool :=
  (pathsFromEvent event).any (findOccurence blockedPaths)

def notifyEventHandler (blockedPaths : List (List UInt8)) (msg : Message) :
    Except OutOfRange Unit := do
  match msg.event with
  | .exit | .fork | .iokitOpen => pure ()
  | .kextload | .kextunload | .unmount =>
    let _ ← eventTypeToStr msg.event.type
    print msg.event
  | .access .. | .close .. | .exchangedata .. | .write .. =>
    if occursIn blockedPaths msg.event then
      let _ ← eventTypeToStr msg.event.type
      print msg.event
  | event => let _ ← eventTypeToStr event.type

/-- The handler calls this for `AUTH_OPEN` only; no other arm of the union has flags. -/
def flagsEventHandler (blockedPaths : List (List UInt8)) (msg : Message) :
    Except OutOfRange UInt32 := do
  match msg.event with
  | .openFile fflag _ =>
    if occursIn blockedPaths msg.event then
      let _ ← eventTypeToStr msg.event.type
      print msg.event
      return fflags oRdonly
    return fflag.toUInt32
  | event =>
    let _ ← eventTypeToStr event.type
    return 0

def authEventHandler (blockedPaths : List (List UInt8)) (msg : Message) :
    Except OutOfRange AuthResult := do
  match msg.event with
  | .exec => return .allow
  | .mount =>
    let _ ← eventTypeToStr msg.event.type
    print msg.event
    return .allow
  | .create .. | .clone .. | .fileProviderMaterialize .. | .fileProviderUpdate .. | .link ..
  | .readdir .. | .readlink .. | .rename .. | .truncate .. | .unlink .. =>
    if occursIn blockedPaths msg.event then
      let _ ← eventTypeToStr msg.event.type
      print msg.event
      return .deny
    return .allow
  | event =>
    let _ ← eventTypeToStr event.type
    return .allow

/-- A call of `es_respond_flags_result` or `es_respond_auth_result`. -/
structure Reply where
  response : Response
  cache : Bool
  deriving DecidableEq, Repr

structure Outcome where
  replies : List Reply
  result : Except OutOfRange Unit

/-- Answer with what a decision function returns; a result other than success is looked
up for the error message. -/
def respond (es : Reply → RespondResult) (decision : Except OutOfRange Response) : Outcome :=
  match decision with
  | .error thrown => ⟨[], .error thrown⟩
  | .ok response =>
    let reply : Reply := ⟨response, false⟩
    match es reply with
    | .success => ⟨[reply], .ok ()⟩
    | res => ⟨[reply], (respondResultToStr res).map fun _ => ()⟩

/-- The handler block; `es` is what the client answers to a reply. -/
def handler (blockedPaths : List (List UInt8)) (es : Reply → RespondResult) (msg : Message) :
    Outcome :=
  match msg.actionType with
  | .auth =>
    if msg.event.type = .authOpen then
      respond es ((flagsEventHandler blockedPaths msg).map .flags)
    else
      respond es ((authEventHandler blockedPaths msg).map .auth)
  | .notify => ⟨[], notifyEventHandler blockedPaths msg⟩

end MonitoringDemos.EndpointSecurity
