import MonitoringDemos.EndpointSecurity.Log

/-! What the handler refuses beyond the blocked paths and what lies beneath them: the
search for a blocked path may end inside a component of a name. -/
namespace MonitoringDemos.EndpointSecurity.Printing
open Text

/-- The name ends in the path, or goes on with a slash behind it. -/
def Beneath (path name : List UInt8) : Prop :=
  ∃ before behind, name = before ++ path ++ behind ∧
    (behind = [] ∨ ∃ rest, behind = slash :: rest)

theorem beneath_iff (path name : List UInt8) :
    Beneath path name ↔ path <:+ name ∨ path ++ [slash] <:+: name := by
  constructor
  · rintro ⟨before, behind, rfl, rfl | ⟨rest, rfl⟩⟩
    · exact Or.inl ⟨before, by simp⟩
    · exact Or.inr ⟨before, rest, by simp⟩
  · rintro (⟨before, rfl⟩ | ⟨before, rest, rfl⟩)
    · exact ⟨before, [], by simp, Or.inl rfl⟩
    · exact ⟨before, slash :: rest, by simp, Or.inr ⟨rest, rfl⟩⟩

instance (path name : List UInt8) : Decidable (Beneath path name) :=
  decidable_of_iff _ (beneath_iff path name).symm

/-- A denial, or for an open other flags than the requested ones. -/
def Withholds : EndpointSecurity.Event → Response → Prop
  | .openFile fflag _, .flags authorized => authorized ≠ fflag.toUInt32
  | _, response => response = .auth .deny

/-- Some name of the message is a blocked path or lies beneath one. -/
def Targeted (blockedPaths : List (List UInt8)) (event : EndpointSecurity.Event) : Prop :=
  ∃ name ∈ pathsFromEvent event, ∃ path ∈ blockedPaths, Beneath path name

/-- Authority is withheld for names at or beneath a blocked path only. -/
def NotOverblocked (host : Host) (blockedPaths : List (List UInt8)) (es : Reply → RespondResult)
    (msg : Message) : Prop :=
  ∀ reply ∈ (handler host blockedPaths es msg).replies, Withholds msg.event.core reply.response →
    Targeted blockedPaths msg.event.core

/-- The refusal leaves this request the flags it asks for. -/
def ReadsOnly (event : EndpointSecurity.Event) : Prop := ∃ fflag file, event = .openFile fflag file ∧
  fflag.toUInt32 = fflags oRdonly

theorem default_withholds_not (event : EndpointSecurity.Event) :
    ¬ Withholds event (getDefaultESResponse event) := by
  cases event <;> simp [Withholds, getDefaultESResponse]

theorem refusal_withholds (event : EndpointSecurity.Event) :
    Withholds event (refusal event) ↔ ¬ ReadsOnly event := by
  cases event with
  | openFile fflag file =>
    constructor
    · rintro differs ⟨_, _, same, reading⟩
      cases same
      exact differs reading.symm
    · intro more same
      exact more ⟨fflag, file, rfl, same.symm⟩
  | _ => exact ⟨fun _ => by rintro ⟨_, _, same, _⟩; contradiction, fun _ => rfl⟩

theorem occursIn_false (blockedPaths : List (List UInt8)) (event : EndpointSecurity.Event) :
    occursIn blockedPaths event = false ↔
      ∀ name ∈ pathsFromEvent event, ∀ path ∈ blockedPaths, ¬ path <:+: name := by
  rw [← Bool.not_eq_true, occursIn_iff]
  simp only [not_exists, not_and]

variable {host : Host} {blockedPaths : List (List UInt8)}

theorem verdict_withholds {msg : Message} (subscribed : Subscribed msg.core) :
    Withholds msg.event.core (verdict blockedPaths msg.event.core).response ↔
      occursIn blockedPaths msg.event.core = true ∧ ¬ ReadsOnly msg.event.core := by
  have policy : _ ↔ Blocked blockedPaths msg.event.core := occursIn_blocked subscribed blockedPaths
  rw [show occursIn blockedPaths msg.event.core = true ↔ _ from policy, verdict]
  by_cases blocked : Blocked blockedPaths msg.event.core
  · simpa [blocked] using refusal_withholds msg.event.core
  · simpa [blocked] using default_withholds_not msg.event.core

/-- A request with an occurrence in it is printed, so the host has to provide for it. -/
theorem loggable_found {msg : Message} (subscribed : Subscribed msg.core)
    (hit : occursIn blockedPaths msg.event.core = true) :
    Loggable host blockedPaths msg ↔ Provided host msg.event := by
  let d : Delivery := ⟨msg, fun _ => .success⟩
  have blocked : Blocked blockedPaths msg.event.core :=
    (occursIn_blocked subscribed blockedPaths).mp hit
  obtain ⟨path, reported⟩ := (report_iff (d := d) subscribed.delivered
    (decide_eq_true subscribed.action) blockedPaths).mpr blocked
  have spoken : entry blockedPaths msg.event.core ≠ .silent := by
    rw [show entry blockedPaths msg.event.core = .report path from reported]
    nofun
  exact ⟨fun loggable => loggable.resolve_left spoken, .inr⟩

/-- When the handler withholds authority. Without memory for the names of the flags the
message is not printed, and nothing is replied. -/
theorem replies_withhold {msg : Message} (subscribed : Subscribed msg.core)
    (es : Reply → RespondResult) :
    (∃ reply ∈ (handler host blockedPaths es msg).replies, Withholds msg.event.core reply.response) ↔
      occursIn blockedPaths msg.event.core = true ∧ ¬ ReadsOnly msg.event.core ∧
        Provided host msg.event := by
  by_cases loggable : Loggable host blockedPaths msg
  · rw [handler_verdict subscribed loggable es]
    simp only [List.mem_singleton, exists_eq_left, verdict_withholds subscribed]
    constructor
    · rintro ⟨hit, writing⟩
      exact ⟨hit, writing, (loggable_found subscribed hit).mp loggable⟩
    · rintro ⟨hit, writing, _⟩
      exact ⟨hit, writing⟩
  · obtain ⟨stop, _, stalled⟩ := handler_stalled (d := ⟨msg, es⟩) subscribed.delivered loggable
    rw [show handler host blockedPaths es msg = _ from stalled]
    constructor
    · rintro ⟨_, sent, _⟩
      contradiction
    · rintro ⟨hit, _, provided⟩
      exact absurd ((loggable_found subscribed hit).mpr provided) loggable

/-- Nothing is over-blocked exactly when an occurrence of a blocked path ends with a
component, or there is none, or the refusal grants all that was asked for, or there is no
memory to print the refusal, which is then not sent. -/
theorem notOverblocked_iff {msg : Message} (subscribed : Subscribed msg.core)
    (host : Host) (blockedPaths : List (List UInt8)) (es : Reply → RespondResult) :
    NotOverblocked host blockedPaths es msg ↔
      (∀ name ∈ pathsFromEvent msg.event.core, ∀ path ∈ blockedPaths, ¬ path <:+: name) ∨
        ReadsOnly msg.event.core ∨ Targeted blockedPaths msg.event.core ∨
        ¬ Provided host msg.event := by
  have withheld := @replies_withhold host blockedPaths msg subscribed es
  rw [← occursIn_false]
  constructor
  · intro sound
    by_cases reading : ReadsOnly msg.event.core
    · exact .inr (.inl reading)
    · by_cases provided : Provided host msg.event
      · cases hit : occursIn blockedPaths msg.event.core with
        | false => exact .inl rfl
        | true =>
          obtain ⟨reply, sent, withholds⟩ := withheld.mpr ⟨hit, reading, provided⟩
          exact .inr (.inr (.inl (sound reply sent withholds)))
      · exact .inr (.inr (.inr provided))
  · rintro cause reply sent withholds
    obtain ⟨hit, writing, provided⟩ := withheld.mp ⟨reply, sent, withholds⟩
    rcases cause with none | reading | targeted | lacking
    · rw [hit] at none
      contradiction
    · contradiction
    · exact targeted
    · contradiction

/-- Removing the sibling "/tmp/ESF-demo2" of the demo directory. -/
def unlinkSibling : Message :=
  { sampleMessage with
    event := .unlink (fileAt (ascii "/tmp/ESF-demo2")) (fileAt (ascii "/tmp")) }

theorem unlinkSibling_subscribed : Subscribed unlinkSibling.core := ⟨rfl, rfl, by decide⟩

theorem notOverblocked_iff_sibling :
    NotOverblocked sampleHost [demoPath] (fun _ => .success) unlinkSibling ↔
      (∀ name ∈ pathsFromEvent unlinkSibling.event.core, ∀ path ∈ [demoPath], ¬ path <:+: name) ∨
        ReadsOnly unlinkSibling.event.core ∨ Targeted [demoPath] unlinkSibling.event.core ∨
        ¬ Provided sampleHost unlinkSibling.event :=
  notOverblocked_iff unlinkSibling_subscribed sampleHost [demoPath] fun _ => .success

/-- The sibling is denied, although its path only begins like the blocked one. -/
theorem sibling_denied : demoPath ≠ [] ∧ demoPath.getLast? ≠ some slash ∧
    Subscribed unlinkSibling.core ∧
    ¬ NotOverblocked sampleHost [demoPath] (fun _ => .success) unlinkSibling := by
  refine ⟨by decide, by decide, unlinkSibling_subscribed, ?_⟩
  intro sound
  have writing : ¬ ReadsOnly unlinkSibling.event.core := by
    rintro ⟨_, _, same, _⟩
    contradiction
  have provided : Provided sampleHost unlinkSibling.event := ⟨nofun, trivial⟩
  obtain ⟨reply, sent, withholds⟩ :=
    (@replies_withhold sampleHost [demoPath] _ unlinkSibling_subscribed fun _ => .success).mpr
      ⟨by decide, writing, provided⟩
  have targeted : Targeted [demoPath] unlinkSibling.event.core := sound reply sent withholds
  have apart : ¬ ∃ name ∈ pathsFromEvent unlinkSibling.event.core, ∃ path ∈ [demoPath],
      Beneath path name := by decide
  exact apart targeted

end MonitoringDemos.EndpointSecurity.Printing
