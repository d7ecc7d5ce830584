import MonitoringDemos.EndpointSecurity.Log

/-! Runs of the handler over all that the client is sent: what is logged and replied, in
which order, what can end the process, and that no blocked request is granted. -/
namespace MonitoringDemos.EndpointSecurity.Printing
open Streams Text
open Output

variable {host : Host} {blockedPaths : List (List UInt8)}

/-! ### The parts of a run -/

/-- How a run ends with the message at the head, or with none. -/
inductive Last (host : Host) (blockedPaths : List (List UInt8)) : List Delivery → Handled → Prop where
  | none : Last host blockedPaths [] ⟨[], [], .ok ()⟩
  /-- The message cannot be printed to the end, and is not answered. -/
  | stalled : ¬ Loggable host blockedPaths d.msg → (∀ map, stop ≠ .thrown map) →
      Last host blockedPaths (d :: rest) ⟨(d.printed host blockedPaths).items, [], .error stop⟩
  | unexplained : Loggable host blockedPaths d.msg → Unexplained blockedPaths d.core →
      Last host blockedPaths (d :: rest) ⟨(d.printed host blockedPaths).items,
        [verdict blockedPaths d.msg.event.core], .error (.thrown .respondResult)⟩

/-- A message that the run goes on behind. -/
structure Passed (host : Host) (blockedPaths : List (List UInt8)) (d : Delivery) : Prop where
  loggable : Loggable host blockedPaths d.msg
  explained : ¬ Unexplained blockedPaths d.core

theorem core_passed {d : EndpointSecurity.Delivery} (delivered : Delivered d.msg)
    (explained : ¬ Unexplained blockedPaths d) :
    EndpointSecurity.handler blockedPaths d.es d.msg = ⟨answers blockedPaths [d], .ok ()⟩ := by
  cases request : d.isRequest with
  | true =>
    obtain ⟨replies, _, result⟩ := handler_request delivered request blockedPaths
    rw [answers_request request, ← replies, ← result explained]
  | false => rw [answers_notification request, handler_notification delivered request]

theorem core_unexplained {d : EndpointSecurity.Delivery} (delivered : Delivered d.msg)
    (unexplained : Unexplained blockedPaths d) :
    EndpointSecurity.handler blockedPaths d.es d.msg =
      ⟨[verdict blockedPaths d.msg.event], .error .respondResult⟩ := by
  obtain ⟨replies, failed, _⟩ := handler_request delivered unexplained.1 blockedPaths
  rw [← replies, ← failed.mpr unexplained]

theorem handler_passed {d : Delivery} (delivered : Delivered d.msg.core)
    (passed : Passed host blockedPaths d) : handler host blockedPaths d.es d.msg =
      ⟨(d.printed host blockedPaths).items, answers blockedPaths [d.core], .ok ()⟩ := by
  have core : EndpointSecurity.handler blockedPaths d.es d.msg.core = _ :=
    core_passed (d := d.core) delivered passed.explained
  rw [handler_loggable delivered passed.loggable, core]
  rfl

theorem handler_last {d : Delivery} (delivered : Delivered d.msg.core)
    (last : ¬ Passed host blockedPaths d) (rest : List Delivery) :
    (∃ stop, (handler host blockedPaths d.es d.msg).result = .error stop) ∧
      Last host blockedPaths (d :: rest) (handler host blockedPaths d.es d.msg) := by
  by_cases loggable : Loggable host blockedPaths d.msg
  · have unexplained : Unexplained blockedPaths d.core := by
      by_contra explained
      exact last ⟨loggable, explained⟩
    have core : EndpointSecurity.handler blockedPaths d.es d.msg.core = _ :=
      core_unexplained (d := d.core) delivered unexplained
    rw [handler_loggable delivered loggable, core]
    exact ⟨⟨_, rfl⟩, .unexplained loggable unexplained⟩
  · obtain ⟨stop, other, stalled⟩ := handler_stalled delivered loggable
    rw [stalled]
    exact ⟨⟨stop, rfl⟩, .stalled loggable other⟩

theorem last_restoring {rest : List Delivery} (delivered : ∀ d ∈ rest, Delivered d.msg.core)
    (last : Last host blockedPaths rest handled) : Restoring handled.items := by
  cases last with
  | none => rfl
  | stalled | unexplained => exact printed_steady (delivered _ List.mem_cons_self) host blockedPaths

theorem serve_passed {d : Delivery} (delivered : Delivered d.msg.core)
    (passed : Passed host blockedPaths d) (rest : List Delivery) :
    serve host blockedPaths (d :: rest) =
      ⟨(d.printed host blockedPaths).items ++ (serve host blockedPaths rest).items,
        answers blockedPaths [d.core] ++ (serve host blockedPaths rest).replies,
        (serve host blockedPaths rest).result⟩ := by
  rw [serve, handler_passed delivered passed]

theorem serve_last {d : Delivery} (delivered : Delivered d.msg.core)
    (last : ¬ Passed host blockedPaths d) (rest : List Delivery) :
    Last host blockedPaths (d :: rest) (serve host blockedPaths (d :: rest)) := by
  obtain ⟨⟨stop, failed⟩, last⟩ := handler_last delivered last rest
  have whole : serve host blockedPaths (d :: rest) = handler host blockedPaths d.es d.msg := by
    rw [serve, failed]
    exact congrArg (Handled.mk _ _) failed.symm
  rwa [whole]

/-- A run is the messages it goes on behind, each by itself, and the one it ends with. -/
theorem serve_run {ds : List Delivery} (delivered : ∀ d ∈ ds, Delivered d.msg.core) :
    ∃ passed rest last, ds = passed ++ rest ∧ (∀ d ∈ passed, Passed host blockedPaths d) ∧
      Last host blockedPaths rest last ∧
      serve host blockedPaths ds =
        ⟨(passed.flatMap fun d => (d.printed host blockedPaths).items) ++ last.items,
          answers blockedPaths (passed.map Delivery.core) ++ last.replies, last.result⟩ := by
  induction ds with
  | nil => exact ⟨[], [], ⟨[], [], .ok ()⟩, rfl, List.forall_mem_nil _, .none, rfl⟩
  | cons d ds ih =>
    obtain ⟨first, others⟩ := List.forall_mem_cons.mp delivered
    by_cases going : Passed host blockedPaths d
    · obtain ⟨passed, rest, last, split, each, ended, run⟩ := ih others
      have joined := answers_append blockedPaths [d.core] (passed.map Delivery.core)
      rw [List.singleton_append] at joined
      refine ⟨d :: passed, rest, last, by rw [split, List.cons_append],
        List.forall_mem_cons.mpr ⟨going, each⟩, ended, ?_⟩
      rw [serve_passed first going, run, List.flatMap_cons, List.map_cons, joined]
      simp only [List.append_assoc]
    · exact ⟨[], d :: ds, serve host blockedPaths (d :: ds), rfl, List.forall_mem_nil _,
        serve_last first going ds, rfl⟩

/-- An access inside the demo directory, and behind it a request. The host never comes to the
end of the string for the mode. -/
def stalling : List Delivery := [
  ⟨{ sampleMessage with
      actionType := .notify
      event := .access 1 (fileAt (ascii "/tmp/ESF-demo/notes")) }, fun _ => .success⟩,
  ⟨sampleMessage, fun _ => .success⟩]

/-- The messages that got what the policy has for them, and why no others did. -/
inductive Served (host : Host) (blockedPaths : List (List UInt8)) (ds : List Delivery) :
    List Delivery → Except Stop Unit → Prop where
  | whole : (∀ d ∈ ds, Passed host blockedPaths d) → Served host blockedPaths ds ds (.ok ())
  /-- The next message cannot be printed to its end: nothing answers it. -/
  | stalled : ds = before ++ d :: after → (∀ d ∈ before, Passed host blockedPaths d) →
      ¬ Loggable host blockedPaths d.msg → (∀ map, stop ≠ .thrown map) →
      Served host blockedPaths ds before (.error stop)
  /-- The result of the last reply has no name. -/
  | unexplained : ds = before ++ d :: after → (∀ d ∈ before, Passed host blockedPaths d) →
      Loggable host blockedPaths d.msg → Unexplained blockedPaths d.core →
      Served host blockedPaths ds (before ++ [d]) (.error (.thrown .respondResult))

theorem Served.front {stopped : Except Stop Unit}
    (served : Served host blockedPaths ds handled stopped) : handled <+: ds := by
  cases served with
  | whole => exact List.prefix_rfl
  | stalled split => exact ⟨_, split.symm⟩
  | unexplained split => exact ⟨_, (split.trans (List.append_cons _ _ _)).symm⟩

theorem serve_served {ds : List Delivery} (delivered : ∀ d ∈ ds, Delivered d.msg.core) :
    ∃ handled, Served host blockedPaths ds handled (serve host blockedPaths ds).result ∧
      (serve host blockedPaths ds).replies = answers blockedPaths (handled.map Delivery.core) := by
  obtain ⟨passed, rest, last, split, each, ended, run⟩ := @serve_run host blockedPaths ds delivered
  rw [run]
  cases ended with
  | none =>
    rw [List.append_nil] at split
    rw [split]
    exact ⟨passed, .whole each, List.append_nil _⟩
  | stalled unprinted other => exact ⟨passed, .stalled split each unprinted other, List.append_nil _⟩
  | @unexplained d rest loggable unexplained =>
    refine ⟨passed ++ [d], .unexplained split each loggable unexplained, ?_⟩
    rw [List.map_append, answers_append, List.map_singleton, answers_request unexplained.1]
    rfl

/-- A close, an open inside the demo directory with a result that has no name, and a request
behind it. -/
def sampleStream : List Delivery := [
  ⟨{ sampleMessage with
      actionType := .notify
      event := .close false (fileAt (ascii "/tmp/ESF-demo/notes")) }, fun _ => .success⟩,
  ⟨openInside, fun _ => .other 9⟩,
  ⟨{ sampleMessage with event := .readlink (fileAt (ascii "/etc")) }, fun _ => .success⟩]

end MonitoringDemos.EndpointSecurity.Printing
