import MonitoringDemos.EndpointSecurity.Printing
import MonitoringDemos.EndpointSecurity.Stream

/-! The handler of the ESF demo with what it prints to `std::cout` while it answers: each
request that can be logged gets one reply, the one of the policy, and every message leaves
its entry in the log. What goes to `std::cerr` is left out. -/
namespace MonitoringDemos.EndpointSecurity.Printing
open Streams Text
open Output

/-! ### The handler with its output -/

def occurence (path : List UInt8) : List Item := [str "*** Occurence found: ", .text path, endl]

/-- `std::any_of` with `find_occurence`, which reports the path that it finds. -/
def findOccurences (blockedPaths : List (List UInt8)) : List (List UInt8) → List Item × Bool
  | [] => ([], false)
  | path :: rest =>
    if findOccurence blockedPaths path then (occurence path, true)
    else findOccurences blockedPaths rest

/-- `std::cout << msg << std::endl`. -/
def echo (host : Host) (msg : Message) : Print Unit := do
  esMessage host (some msg)
  .put [endl]

/-- What is printed for a path of `g_blockedPaths`. -/
def report (host : Host) (msg : Message) : Print Unit := do
  .put [str "    ", str (if msg.actionType = .auth then "BLOCKING: " else "NOTIFY: ")]
  let name ← look (eventTypeToStr msg.event.core.type)
  .put [str name, str " at ", longLong msg.machTime, str " of mach time.", endl]
  echo host msg

def operation (label : String) (host : Host) (msg : Message) : Print Unit := do
  .put [str label]
  let name ← look (eventTypeToStr msg.event.core.type)
  .put [str name, endl]
  echo host msg

def fallback (msg : Message) : Print Unit := do
  .put [str "DEFAULT: "]
  let name ← look (eventTypeToStr msg.event.core.type)
  .put [str name, endl]

/-- The search in the paths of the event, and the report when it finds something. -/
def search (host : Host) (blockedPaths : List (List UInt8)) (msg : Message) : Print Bool := do
  let found := findOccurences blockedPaths (pathsFromEvent msg.event.core)
  .put found.1
  if found.2 then
    report host msg
    return true
  else return false

def notifyEventHandler (host : Host) (blockedPaths : List (List UInt8)) (msg : Message) :
    Print Unit :=
  match msg.event with
  | .exit .. | .fork .. | .iokitOpen .. => pure ()
  | .kextload .. | .kextunload .. | .unmount => operation "NOTIFY OPERATION: " host msg
  | .access .. | .close .. | .exchangedata .. | .write .. => do
    let _ ← search host blockedPaths msg
  | _ => fallback msg

def flagsEventHandler (host : Host) (blockedPaths : List (List UInt8)) (msg : Message) :
    Print UInt32 :=
  match msg.event with
  | .openFile fflag _ => do
    let found ← search host blockedPaths msg
    return if found then fflags oRdonly else fflag.toUInt32
  | _ => do
    fallback msg
    return 0

def authEventHandler (host : Host) (blockedPaths : List (List UInt8)) (msg : Message) :
    Print AuthResult :=
  match msg.event with
  | .exec .. => return .allow
  | .mount => do
    operation "ALLOWING OPERATION: " host msg
    return .allow
  | .create .. | .clone .. | .fileProviderMaterialize .. | .fileProviderUpdate .. | .link ..
  | .readdir .. | .readlink .. | .rename .. | .truncate .. | .unlink .. => do
    let found ← search host blockedPaths msg
    return if found then .deny else .allow
  | _ => do
    fallback msg
    return .allow

/-- What is printed and replied, and whether the call returns. -/
structure Handled where
  items : List Item
  replies : List Reply
  result : Except Stop Unit

/-- The reply to a decision. -/
def answer (es : Reply → RespondResult) (decision : Print Response) : Handled :=
  match decision.result with
  | .error stop => ⟨decision.items, [], .error stop⟩
  | .ok response =>
    let outcome := respond es (.ok response)
    ⟨decision.items, outcome.replies, outcome.result.mapError .thrown⟩

def decision (host : Host) (blockedPaths : List (List UInt8)) (msg : Message) : Print Response :=
  if msg.event.core.type = .authOpen then do
    let flags ← flagsEventHandler host blockedPaths msg
    return .flags flags
  else do
    let result ← authEventHandler host blockedPaths msg
    return .auth result

def handler (host : Host) (blockedPaths : List (List UInt8)) (es : Reply → RespondResult)
    (msg : Message) : Handled :=
  match msg.actionType with
  | .auth => answer es (decision host blockedPaths msg)
  | .notify =>
    let out := notifyEventHandler host blockedPaths msg
    ⟨out.items, [], out.result⟩

structure Delivery where
  msg : Message
  es : Reply → RespondResult

def Delivery.core (d : Delivery) : EndpointSecurity.Delivery := ⟨d.msg.core, d.es⟩

/-- One message after the other, until a call does not return. -/
def serve (host : Host) (blockedPaths : List (List UInt8)) : List Delivery → Handled
  | [] => ⟨[], [], .ok ()⟩
  | d :: rest =>
    let first := handler host blockedPaths d.es d.msg
    match first.result with
    | .error stop => ⟨first.items, first.replies, .error stop⟩
    | .ok () =>
      let later := serve host blockedPaths rest
      ⟨first.items ++ later.items, first.replies ++ later.replies, later.result⟩

/-! ### What a message should leave in the log -/

inductive Entry where
  /-- A path of the event has something in it that is blocked. -/
  | report (path : List UInt8)
  | operation (label : String)
  | silent

def entry (blockedPaths : List (List UInt8)) (event : EndpointSecurity.Event) : Entry :=
  match event with
  | .kextload | .kextunload | .unmount => .operation "NOTIFY OPERATION: "
  | .mount => .operation "ALLOWING OPERATION: "
  | event =>
    match (pathsFromEvent event).find? (findOccurence blockedPaths) with
    | some path => .report path
    | none => .silent

def printEntry (host : Host) (msg : Message) : Entry → Print Unit
  | .report path => do
    .put (occurence path)
    report host msg
  | .operation label => operation label host msg
  | .silent => pure ()

/-- The lines around the message. -/
def Entry.opening (msg : Message) (name : String) : Entry → List Item
  | .report path => occurence path ++
      [str "    ", str (if msg.actionType = .auth then "BLOCKING: " else "NOTIFY: "),
        str name, str " at ", longLong msg.machTime, str " of mach time.", endl]
  | .operation label => [str label, str name, endl]
  | .silent => []

/-- What the host has to provide for when the message arrives. -/
def Loggable (host : Host) (blockedPaths : List (List UInt8)) (msg : Message) : Prop :=
  entry blockedPaths msg.event.core = .silent ∨ Provided host msg.event

/-! ### One message -/

variable {host : Host} {blockedPaths : List (List UInt8)}

theorem findOccurences_eq (blockedPaths paths : List (List UInt8)) :
    findOccurences blockedPaths paths =
      match paths.find? (findOccurence blockedPaths) with
      | some path => (occurence path, true)
      | none => ([], false) := by
  induction paths with
  | nil => rfl
  | cons path rest ih =>
    rw [findOccurences, List.find?_cons]
    cases findOccurence blockedPaths path with
    | true => rfl
    | false => simpa using ih

/-- The events whose paths are searched. -/
def Searched (event : EndpointSecurity.Event) : Prop := ∀ blockedPaths, entry blockedPaths event =
  match (pathsFromEvent event).find? (findOccurence blockedPaths) with
  | some path => .report path
  | none => .silent

theorem search_entry {msg : Message} (searched : Searched msg.event.core)
    (host : Host) (blockedPaths : List (List UInt8)) :
    search host blockedPaths msg = do
      printEntry host msg (entry blockedPaths msg.event.core)
      return occursIn blockedPaths msg.event.core := by
  have any : occursIn blockedPaths msg.event.core =
      ((pathsFromEvent msg.event.core).find? (findOccurence blockedPaths)).isSome := by
    rw [Bool.eq_iff_iff, List.find?_isSome, occursIn, List.any_eq_true]
  rw [searched, any]
  simp only [search, findOccurences_eq]
  cases (pathsFromEvent msg.event.core).find? (findOccurence blockedPaths) with
  | none => rfl
  | some path => simp only [printEntry, bind_assoc, if_true, Option.isSome_some]

/-- A notification leaves its entry behind. -/
theorem notifyEventHandler_entry {msg : Message} (delivered : Delivered msg.core)
    (notification : msg.actionType = .notify) (host : Host) (blockedPaths : List (List UInt8)) :
    notifyEventHandler host blockedPaths msg =
      printEntry host msg (entry blockedPaths msg.event.core) := by
  have interest : msg.event.core.type ∈ eventsOfInterest := delivered.interest
  have quiet : msg.event.core.type.isAuth ≠ true := by
    intro auth
    have requested : msg.actionType = .auth := delivered.action.mpr auth
    rw [notification] at requested
    contradiction
  have searching := fun searched => @search_entry msg searched host blockedPaths
  unfold notifyEventHandler
  cases event : msg.event with
  | exit | fork | iokitOpen | kextload | kextunload | unmount => rfl
  | access | close | exchangedata | write =>
    rw [event] at searching
    simp only [searching fun _ => rfl, bind_assoc, pure_bind, bind_pure_unit]
  | other type =>
    rw [event] at interest
    simp [Event.core, EndpointSecurity.Event.type, eventsOfInterest] at interest
  | chdir target =>
    rw [event] at interest
    exact absurd interest (by simp only [Event.core, EndpointSecurity.Event.type]; decide)
  | _ =>
    rw [event] at quiet
    exact absurd rfl quiet

/-- A request leaves its entry behind, and is decided as the policy has it. -/
theorem decision_entry {msg : Message} (delivered : Delivered msg.core)
    (request : msg.actionType = .auth) (host : Host) (blockedPaths : List (List UInt8)) :
    decision host blockedPaths msg = do
      printEntry host msg (entry blockedPaths msg.event.core)
      return (verdict blockedPaths msg.event.core).response := by
  have interest : msg.event.core.type ∈ eventsOfInterest := delivered.interest
  have auth : msg.event.core.type.isAuth = true := delivered.action.mp request
  have subscribed : Subscribed msg.core := ⟨request, auth, interest⟩
  have decided : (if occursIn blockedPaths msg.event.core then refusal msg.event.core
      else getDefaultESResponse msg.event.core) = (verdict blockedPaths msg.event.core).response :=
    Except.ok.inj ((decision_eq subscribed blockedPaths).symm.trans
      (decision_verdict delivered request blockedPaths))
  rw [← decided]
  have searching := fun searched => @search_entry msg searched host blockedPaths
  unfold decision
  cases event : msg.event with
  | exec target args counted =>
    have other : (Event.exec target args counted).core.type ≠ .authOpen := by
      simp [Event.core, EndpointSecurity.Event.type]
    simp only [if_neg other, authEventHandler, event]
    rfl
  | mount =>
    have other : Event.mount.core.type ≠ .authOpen := by
      simp [Event.core, EndpointSecurity.Event.type]
    simp only [if_neg other, authEventHandler, event, bind_assoc, pure_bind]
    rfl
  | openFile fflag file =>
    have same : (Event.openFile fflag file).core.type = .authOpen := rfl
    rw [event] at searching
    simp only [if_pos same, flagsEventHandler, event, searching fun _ => rfl, bind_assoc, pure_bind]
    cases occursIn blockedPaths (Event.openFile fflag file).core <;> rfl
  | other type =>
    rw [event] at interest
    simp [Event.core, EndpointSecurity.Event.type, eventsOfInterest] at interest
  | chdir target =>
    rw [event] at interest
    exact absurd interest (by simp only [Event.core, EndpointSecurity.Event.type]; decide)
  | create | clone | fileProviderMaterialize | fileProviderUpdate | link | readdir | readlink
  | rename | truncate | unlink =>
    rw [event] at searching
    simp only [authEventHandler, event, searching fun _ => rfl, bind_assoc, pure_bind]
    rw [if_neg (by simp [Event.core, EndpointSecurity.Event.type])]
    generalize occursIn blockedPaths _ = hit
    cases hit <;> rfl
  | _ =>
    rw [event] at auth
    simp [Event.core, EndpointSecurity.Event.type, EventType.isAuth] at auth

/-- What a message leaves in the log, to its end or not. -/
def Delivery.printed (host : Host) (blockedPaths : List (List UInt8)) (d : Delivery) : Print Unit :=
  printEntry host d.msg (entry blockedPaths d.msg.event.core)

/-- The handler is the handler without output behind what it prints. -/
theorem handler_entry {d : Delivery} (delivered : Delivered d.msg.core) (host : Host)
    (blockedPaths : List (List UInt8)) :
    handler host blockedPaths d.es d.msg =
      match (d.printed host blockedPaths).result with
      | .error stop => ⟨(d.printed host blockedPaths).items, [], .error stop⟩
      | .ok () =>
        let core := EndpointSecurity.handler blockedPaths d.es d.msg.core
        ⟨(d.printed host blockedPaths).items, core.replies, core.result.mapError .thrown⟩ := by
  unfold handler Delivery.printed
  cases action : d.msg.actionType with
  | auth =>
    have core := @handler_auth d.msg.core action blockedPaths d.es
    simp only [core, decision_verdict delivered action blockedPaths,
      decision_entry delivered action host blockedPaths]
    cases printed : (printEntry host d.msg (entry blockedPaths d.msg.event.core)).result with
    | error stop => simp only [bind_error printed, answer]
    | ok value =>
      simp only [bind_ok printed, answer]
      exact congrArg (Handled.mk · _ _) (List.append_nil _)
  | notify =>
    have silent : d.core.isRequest = false := by
      simp [EndpointSecurity.Delivery.isRequest, Delivery.core, Message.core, action]
    have core := handler_notification (d := d.core) delivered silent blockedPaths
    have same : EndpointSecurity.handler blockedPaths d.es d.msg.core = ⟨[], .ok ()⟩ := core
    simp only [same, notifyEventHandler_entry delivered action host blockedPaths]
    cases (printEntry host d.msg (entry blockedPaths d.msg.event.core)).result <;> rfl

theorem printEntry_opening {msg : Message} (found : eventTypeToStr msg.event.core.type = .ok name)
    (host : Host) {e : Entry} (spoken : e ≠ .silent) :
    printEntry host msg e = (Output.put (e.opening msg name) >>= fun _ => echo host msg) := by
  have told : ∀ next : String → Print Unit, (look (.ok name) >>= next) = next name := fun _ => rfl
  cases e with
  | silent => contradiction
  | report path =>
    simp only [printEntry, report, found, told, bind_put, Entry.opening, List.append_assoc]
    rfl
  | operation label =>
    simp only [printEntry, operation, found, told, bind_put, Entry.opening]
    rfl

theorem opening_restoring (msg : Message) (name : String) (e : Entry) :
    Restoring (e.opening msg name) := by
  cases e <;> rfl

theorem printed_steady {d : Delivery} (delivered : Delivered d.msg.core) (host : Host)
    (blockedPaths : List (List UInt8)) : (d.printed host blockedPaths).Steady := by
  obtain ⟨name, found⟩ := eventTypeToStr_interest delivered.interest
  by_cases silent : entry blockedPaths d.msg.event.core = .silent
  · rw [Delivery.printed, silent]
    exact .pure ()
  · rw [Delivery.printed, printEntry_opening found host silent]
    refine .bind (.put (opening_restoring d.msg name _)) fun _ => ?_
    exact .bind (steady_esMessage host _) fun _ => .put rfl

/-- Printing comes to its end if the host provides for it; else no look-up is to blame. -/
theorem printed_result {d : Delivery} (delivered : Delivered d.msg.core) :
    (Loggable host blockedPaths d.msg ∧ (d.printed host blockedPaths).result = .ok ()) ∨
      (¬ Loggable host blockedPaths d.msg ∧ ∃ stop,
        (d.printed host blockedPaths).result = .error stop ∧ ∀ map, stop ≠ .thrown map) := by
  obtain ⟨name, found⟩ := eventTypeToStr_interest delivered.interest
  have print := print_interest delivered.interest
  obtain ⟨_, thrown, _, done⟩ := esMessage_outcome host d.msg
  unfold Loggable Delivery.printed
  by_cases silent : entry blockedPaths d.msg.event.core = .silent
  · rw [silent]
    exact .inl ⟨.inl rfl, rfl⟩
  · rw [printEntry_opening found host silent, bind_put]
    by_cases provided : Provided host d.msg.event
    · refine .inl ⟨.inr provided, ?_⟩
      have whole := done.mpr ⟨print, provided⟩
      simp only [echo, bind_ok whole]
      rfl
    · refine .inr ⟨fun loggable => loggable.elim silent provided, ?_⟩
      cases failed : (esMessage host (some d.msg)).result with
      | ok value => exact absurd (done.mp failed).2 provided
      | error stop =>
        refine ⟨stop, by simp only [echo, bind_error failed], fun map same => ?_⟩
        rw [same] at failed
        have impossible : EndpointSecurity.print d.msg.core.event = .error map := (thrown map).mp failed
        rw [print] at impossible
        contradiction

theorem request_searched {event : EndpointSecurity.Event} (auth : event.type.isAuth = true)
    (other : event ≠ .mount) : Searched event := by
  cases event with
  | mount => contradiction
  | kextload | kextunload | unmount => simp [EndpointSecurity.Event.type, EventType.isAuth] at auth
  | _ => exact fun _ => rfl

/-- Requests are reported as blocked exactly when they are refused. -/
theorem report_iff {d : Delivery} (delivered : Delivered d.msg.core)
    (request : d.core.isRequest = true) (blockedPaths : List (List UInt8)) :
    (∃ path, entry blockedPaths d.msg.event.core = .report path) ↔
      Blocked blockedPaths d.msg.event.core := by
  have action : d.msg.actionType = .auth := of_decide_eq_true request
  have auth : d.msg.event.core.type.isAuth = true := delivered.action.mp action
  have subscribed : Subscribed d.msg.core := ⟨action, auth, delivered.interest⟩
  by_cases mount : d.msg.event.core = .mount
  · rw [mount]
    exact ⟨fun reported => by simp [entry] at reported, fun blocked => absurd rfl blocked.2.1⟩
  · have policy : _ ↔ Blocked blockedPaths d.msg.event.core := occursIn_blocked subscribed blockedPaths
    have any : occursIn blockedPaths d.msg.core.event = true ↔
        ((pathsFromEvent d.msg.event.core).find? (findOccurence blockedPaths)).isSome = true := by
      rw [List.find?_isSome, occursIn, List.any_eq_true]
      rfl
    rw [← policy, any, request_searched auth mount]
    cases (pathsFromEvent d.msg.event.core).find? (findOccurence blockedPaths) <;> simp

/-- With the message printed, what is left is the handler without output. -/
theorem handler_loggable {d : Delivery} (delivered : Delivered d.msg.core)
    (loggable : Loggable host blockedPaths d.msg) :
    handler host blockedPaths d.es d.msg = ⟨(d.printed host blockedPaths).items,
      (EndpointSecurity.handler blockedPaths d.es d.msg.core).replies,
      (EndpointSecurity.handler blockedPaths d.es d.msg.core).result.mapError .thrown⟩ := by
  rw [handler_entry delivered]
  rcases @printed_result host blockedPaths d delivered with ⟨_, done⟩ | ⟨stalled, _⟩
  · rw [done]
  · exact absurd loggable stalled

/-- A message that cannot be printed to its end is not answered. -/
theorem handler_stalled {d : Delivery} (delivered : Delivered d.msg.core)
    (stalled : ¬ Loggable host blockedPaths d.msg) : ∃ stop, (∀ map, stop ≠ .thrown map) ∧
      handler host blockedPaths d.es d.msg =
        ⟨(d.printed host blockedPaths).items, [], .error stop⟩ := by
  rw [handler_entry delivered]
  rcases @printed_result host blockedPaths d delivered with ⟨loggable, _⟩ | ⟨_, stop, failed, other⟩
  · exact absurd loggable stalled
  · rw [failed]
    exact ⟨stop, other, rfl⟩

/-- A request that can be logged gets the verdict of the policy, once. -/
theorem handler_verdict {msg : Message} (subscribed : Subscribed msg.core)
    (loggable : Loggable host blockedPaths msg) (es : Reply → RespondResult) :
    (handler host blockedPaths es msg).replies = [verdict blockedPaths msg.event.core] := by
  let d : Delivery := ⟨msg, es⟩
  have request : d.core.isRequest = true := decide_eq_true subscribed.action
  obtain ⟨replies, _⟩ := handler_request (d := d.core) subscribed.delivered request blockedPaths
  have whole := handler_loggable (d := d) subscribed.delivered loggable
  exact (congrArg Handled.replies whole).trans replies

/-- Each subscribed request that can be logged gets one reply, with flags for an open and a
verdict otherwise; it is the refusal for a blocked request and the default for any other. -/
theorem handler_decides {msg : Message} (subscribed : Subscribed msg.core)
    (loggable : Loggable host blockedPaths msg) (es : Reply → RespondResult) :
    ∃ response, (handler host blockedPaths es msg).replies = [⟨response, false⟩] ∧
      (response.isFlags = true ↔ msg.event.core.type = .authOpen) ∧
      (Blocked blockedPaths msg.event.core → response = refusal msg.event.core) ∧
      (¬ Blocked blockedPaths msg.event.core → response = getDefaultESResponse msg.event.core) := by
  refine ⟨(verdict blockedPaths msg.event.core).response, handler_verdict subscribed loggable es,
    verdict_isFlags blockedPaths msg.event.core, ?_, ?_⟩
  · intro blocked
    exact if_pos blocked
  · intro free
    exact if_neg free

def fileAt (path : List UInt8) : EsFile := ⟨⟨path.length, some path, by simp⟩, false⟩

def demoPath : List UInt8 := ascii "/tmp/ESF-demo"

/-- A file of the demo directory, opened for reading and writing. -/
def openInside : Message :=
  { sampleMessage with event := .openFile 3 (fileAt (ascii "/tmp/ESF-demo/notes")) }

theorem handler_decides_openInside :
    (handler sampleHost [demoPath] (fun _ => .success) openInside).replies =
      [⟨.flags 1, false⟩] := by
  have subscribed : Subscribed openInside.core := ⟨rfl, rfl, by decide⟩
  have loggable : Loggable sampleHost [demoPath] openInside := .inr ⟨nofun, nofun⟩
  have inside : demoPath <:+: ascii "/tmp/ESF-demo/notes" := by decide
  have blocked : Blocked [demoPath] openInside.event.core :=
    ⟨nofun, nofun, _, .openFile, demoPath, List.mem_singleton.mpr rfl, inside⟩
  obtain ⟨response, replies, _, refused, _⟩ :=
    handler_decides subscribed loggable fun _ => .success
  rw [replies, refused blocked]
  rfl

/-- Without memory for the names of the flags, the refusal is not sent. -/
example : (handler { sampleHost with malloc := fun _ => none } [demoPath] (fun _ => .success)
    openInside).replies = [] := rfl

end MonitoringDemos.EndpointSecurity.Printing
