import MonitoringDemos.EndpointSecurity.ReferenceMonitor

/-! What the policy answers to all that the client is sent, one message behind the other,
and that the handler without output answers a single message so. -/
namespace MonitoringDemos.EndpointSecurity

/-- What the system sends to this client: a subscribed type, with the action of its type. -/
structure Delivered (msg : Message) : Prop where
  interest : msg.event.type ∈ eventsOfInterest
  action : msg.actionType = .auth ↔ msg.event.type.isAuth = true

theorem Subscribed.delivered {msg : Message} (subscribed : Subscribed msg) : Delivered msg where
  interest := subscribed.interest
  action := ⟨fun _ => subscribed.auth, fun _ => subscribed.action⟩

/-- A message, and what the client answers to a reply to it. -/
structure Delivery where
  msg : Message
  es : Reply → RespondResult

/-! ### The policy over a stream -/

def Delivery.isRequest (d : Delivery) : Bool := d.msg.actionType = .auth

open Classical in
/-- What the policy has to say to a request. -/
noncomputable def verdict (blockedPaths : List (List UInt8)) (event : Event) : Reply :=
  ⟨if Blocked blockedPaths event then refusal event else getDefaultESResponse event, false⟩

noncomputable def answers (blockedPaths : List (List UInt8)) (ds : List Delivery) : List Reply :=
  (ds.filter Delivery.isRequest).map fun d => verdict blockedPaths d.msg.event

/-- The reply to a request is met with a result that `g_respondResultToStrMap` lacks. -/
def Unexplained (blockedPaths : List (List UInt8)) (d : Delivery) : Prop :=
  d.isRequest = true ∧ ∃ code, d.es (verdict blockedPaths d.msg.event) = .other code

theorem answers_append (blockedPaths : List (List UInt8)) (first second : List Delivery) :
    answers blockedPaths (first ++ second) =
      answers blockedPaths first ++ answers blockedPaths second := by
  rw [answers, answers, answers, List.filter_append, List.map_append]

theorem answers_request {d : Delivery} (request : d.isRequest = true)
    (blockedPaths : List (List UInt8)) :
    answers blockedPaths [d] = [verdict blockedPaths d.msg.event] := by
  rw [answers, List.filter_cons_of_pos request]
  rfl

theorem answers_notification {d : Delivery} (notification : d.isRequest = false)
    (blockedPaths : List (List UInt8)) : answers blockedPaths [d] = [] := by
  rw [answers, List.filter_cons_of_neg (Bool.eq_false_iff.mp notification)]
  rfl

/-- The replies to the first requests, put beside them. -/
theorem answers_zip (blockedPaths : List (List UInt8)) (handled : List Delivery)
    (later : List Delivery) : ∀ answered ∈ (answers blockedPaths handled).zip
      (handled.filter Delivery.isRequest ++ later),
      answered.1 = verdict blockedPaths answered.2.msg.event := by
  unfold answers
  induction handled.filter Delivery.isRequest with
  | nil => nofun
  | cons d rest ih =>
    rw [List.map_cons, List.cons_append, List.zip_cons_cons]
    exact List.forall_mem_cons.mpr ⟨rfl, ih⟩

/-! ### One message -/

/-- The search that the code makes decides what the policy calls blocked. -/
theorem decision_verdict {msg : Message} (delivered : Delivered msg) (action : msg.actionType = .auth)
    (blockedPaths : List (List UInt8)) :
    decision blockedPaths msg = .ok (verdict blockedPaths msg.event).response := by
  have subscribed : Subscribed msg := ⟨action, delivered.action.mp action, delivered.interest⟩
  have policy := occursIn_blocked subscribed blockedPaths
  rw [decision_eq subscribed]
  unfold verdict
  by_cases blocked : Blocked blockedPaths msg.event
  · rw [if_pos (policy.mpr blocked), if_pos blocked]
  · rw [if_neg (mt policy.mp blocked), if_neg blocked]

theorem respond_result (es : Reply → RespondResult) (response : Response) :
    (respond es (.ok response)).result =
      match es ⟨response, false⟩ with
      | .other _ => .error .respondResult
      | _ => .ok () := by
  simp only [respond]
  cases es ⟨response, false⟩ <;> rfl

theorem notifyEventHandler_ok {msg : Message} (interest : msg.event.type ∈ eventsOfInterest)
    (blockedPaths : List (List UInt8)) : notifyEventHandler blockedPaths msg = .ok () := by
  have printed := print_interest interest
  obtain ⟨name, found⟩ := eventTypeToStr_interest interest
  unfold notifyEventHandler
  obtain ⟨action, event⟩ := msg
  cases event with
  | exit | fork | iokitOpen => rfl
  | kextload | kextunload | unmount =>
    simp only [found, printed]
    rfl
  | access | close | exchangedata | write =>
    simp only [found, printed]
    split <;> rfl
  | _ =>
    simp only [found]
    rfl

theorem handler_request {d : Delivery} (delivered : Delivered d.msg) (request : d.isRequest = true)
    (blockedPaths : List (List UInt8)) :
    (handler blockedPaths d.es d.msg).replies = [verdict blockedPaths d.msg.event] ∧
      ((handler blockedPaths d.es d.msg).result = .error .respondResult ↔
        Unexplained blockedPaths d) ∧
      (¬ Unexplained blockedPaths d → (handler blockedPaths d.es d.msg).result = .ok ()) := by
  have action := of_decide_eq_true request
  have reply : (⟨(verdict blockedPaths d.msg.event).response, false⟩ : Reply) =
      verdict blockedPaths d.msg.event := rfl
  rw [handler_auth action, decision_verdict delivered action, respond_ok, respond_result, reply]
  refine ⟨rfl, ?_⟩
  unfold Unexplained
  cases answer : d.es (verdict blockedPaths d.msg.event) with
  | other code => simp [request]
  | _ => simp

theorem handler_notification {d : Delivery} (delivered : Delivered d.msg)
    (notification : d.isRequest = false) (blockedPaths : List (List UInt8)) :
    handler blockedPaths d.es d.msg = ⟨[], .ok ()⟩ := by
  have action : d.msg.actionType = .notify := by
    cases action : d.msg.actionType with
    | auth => exact absurd (decide_eq_true action) (Bool.eq_false_iff.mp notification)
    | notify => rfl
  simp only [handler, action, notifyEventHandler_ok delivered.interest]

/-! ### What a reply grants -/

variable {blockedPaths : List (List UInt8)}

theorem verdict_isFlags (blockedPaths : List (List UInt8)) (event : Event) :
    (verdict blockedPaths event).response.isFlags = true ↔ event.type = .authOpen := by
  unfold verdict
  by_cases blocked : Blocked blockedPaths event
  · rw [if_pos blocked]
    exact refusal_isFlags event
  · rw [if_neg blocked]
    exact default_isFlags event

/-- Whether a reply lets the requester change anything. -/
def Response.writes : Response → Bool
  | .flags authorized => authorized &&& 2 ≠ 0
  | .auth result => result = .allow

theorem refusal_writes (event : Event) : (refusal event).writes = false := by
  cases event with
  | openFile => exact (by decide : (Response.flags (fflags oRdonly)).writes = false)
  | _ => rfl

theorem blocked_verdict (blocked : Blocked blockedPaths event) :
    (verdict blockedPaths event).response.writes = false := by
  rw [verdict, if_pos blocked]
  exact refusal_writes event

end MonitoringDemos.EndpointSecurity
