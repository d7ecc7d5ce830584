import Mathlib.Data.Int.Basic

/-! The event loop of the kevent demo. Whether a result of `kevent` is an error is read off
`event_data`, which a call without an event leaves as it was. -/
namespace MonitoringDemos.Kevent

/-- `struct kevent`. -/
structure Event where
  ident : UInt64
  filter : Int16
  flags : UInt16
  fflags : UInt32
  data : Int64
  udata : UInt64
  deriving DecidableEq, Repr

def evError : UInt16 := 0x4000

/-- What a call for one slot returns: -1, 0, or 1 with the event that it stores. -/
inductive Result where
  | failed
  | timeout
  | event (event : Event)
  deriving DecidableEq, Repr

namespace Result

def count : Result → Int32
  | .failed => -1
  | .timeout => 0
  | .event _ => 1

/-- `event_data[0]` behind the call. -/
def store (eventData : Event) : Result → Event
  | .event returned => returned
  | _ => eventData

end Result

inductive Output where
  | error (eventCount : Int32)
  | event (event : Event)
  | noEvent
  deriving DecidableEq, Repr

inductive Status where
  | looping | broke | finished
  deriving DecidableEq, Repr

/-- What has been printed, and whether the loop goes on. -/
structure Monitoring where
  output : List Output
  status : Status
  deriving DecidableEq, Repr

def Monitoring.behind (printed : Output) (rest : Monitoring) : Monitoring :=
  { rest with output := printed :: rest.output }

/-- What a turn finds: the flag of the signal handler and the result of the call. -/
structure Turn where
  shouldStop : Bool
  result : Result
  deriving DecidableEq, Repr

def eventLoop (continueLoop : Int32) (eventData : Event) : List Turn → Monitoring
  | [] => ⟨[], .looping⟩
  | turn :: rest =>
    let continueLoop := continueLoop - 1
    if continueLoop ≠ 0 ∧ turn.shouldStop = false then
      let eventCount := turn.result.count
      let eventData := turn.result.store eventData
      if eventCount < 0 ∨ eventData.flags = evError then ⟨[.error eventCount], .broke⟩
      else
        let printed := if eventCount ≠ 0 then Output.event eventData else .noEvent
        (eventLoop continueLoop eventData rest).behind printed
    else ⟨[], .finished⟩

/-- `continue_loop` at the start. -/
def iterations : Int32 := 40

/-! ### Errors as they are meant -/

namespace Result

/-- The call failed, or the event it returned has the error bit. -/
def isError : Result → Bool
  | .failed => true
  | .timeout => false
  | .event returned => returned.flags &&& evError ≠ 0

def shown : Result → Output
  | .event returned => .event returned
  | _ => .noEvent

end Result

/-- The loop ends at the first error and shows what comes in front of it. -/
def monitored : List Result → Monitoring
  | [] => ⟨[], .looping⟩
  | result :: rest =>
    if result.isError then ⟨[.error result.count], .broke⟩ else (monitored rest).behind result.shown

theorem monitored_of_error (error : result.isError = true) (rest : List Result) :
    monitored (result :: rest) = ⟨[.error result.count], .broke⟩ := if_pos error

theorem monitored_of_fine (fine : result.isError = false) (rest : List Result) :
    monitored (result :: rest) = (monitored rest).behind result.shown :=
  if_neg (Bool.eq_false_iff.mp fine)

/-- The first error ends the loop, and what comes in front of it has been shown. -/
theorem monitored_error {before : List Result} (fine : ∀ result ∈ before, result.isError = false)
    (error : result.isError = true) (after : List Result) :
    monitored (before ++ result :: after) =
      ⟨before.map Result.shown ++ [.error result.count], .broke⟩ := by
  induction before with
  | nil => exact monitored_of_error error after
  | cons first rest ih =>
    have later := ih fun result member => fine result (List.mem_cons_of_mem first member)
    rw [List.cons_append, monitored_of_fine (fine first List.mem_cons_self), later]
    rfl

theorem monitored_fine {results : List Result} (fine : ∀ result ∈ results, result.isError = false) :
    monitored results = ⟨results.map Result.shown, .looping⟩ := by
  induction results with
  | nil => rfl
  | cons first rest ih =>
    have later := ih fun result member => fine result (List.mem_cons_of_mem first member)
    rw [monitored_of_fine (fine first List.mem_cons_self), later]
    rfl

/-! ### One turn -/

theorem behind_inj : Monitoring.behind printed rest = Monitoring.behind printed' rest' ↔
    printed = printed' ∧ rest = rest' := by
  cases rest
  cases rest'
  simp [Monitoring.behind, and_assoc]

/-- Enough iterations are left for the turns, and nobody asks to stop. -/
structure Lasts (continueLoop : Int32) (turns : List Turn) : Prop where
  budget : turns.length < continueLoop.toInt
  unstopped : ∀ turn ∈ turns, turn.shouldStop = false

theorem less_toInt {continueLoop : Int32} (positive : 0 < continueLoop.toInt) :
    (continueLoop - 1).toInt = continueLoop.toInt - 1 := by
  have small := continueLoop.toInt_lt
  rw [Int32.toInt_sub]
  apply Int.bmod_eq_of_le
  · change _ ≤ continueLoop.toInt - 1
    omega
  · change continueLoop.toInt - 1 < _
    omega

theorem Lasts.next (lasts : Lasts continueLoop (turn :: rest)) :
    continueLoop - 1 ≠ 0 ∧ Lasts (continueLoop - 1) rest := by
  have budget := lasts.budget
  rw [List.length_cons] at budget
  have less : (continueLoop - 1).toInt = continueLoop.toInt - 1 := less_toInt (by omega)
  refine ⟨?_, by omega, fun later member => lasts.unstopped later (List.mem_cons_of_mem turn member)⟩
  intro zero
  have zero := congrArg Int32.toInt zero
  rw [less] at zero
  change _ = (0 : Int) at zero
  omega

section
variable {turn : Turn} {rest : List Turn} {eventData : Event}

/-- A turn with the stop flag clear and iterations left, as the source has it. -/
theorem eventLoop_cons (lasts : Lasts continueLoop (turn :: rest)) (eventData : Event) :
    eventLoop continueLoop eventData (turn :: rest) =
      if turn.result.count < 0 ∨ (turn.result.store eventData).flags = evError then
        ⟨[.error turn.result.count], .broke⟩
      else
        (eventLoop (continueLoop - 1) (turn.result.store eventData) rest).behind
          (if turn.result.count ≠ 0 then .event (turn.result.store eventData) else .noEvent) := by
  rw [eventLoop]
  exact if_pos ⟨lasts.next.1, lasts.unstopped turn List.mem_cons_self⟩

theorem eventLoop_failed (lasts : Lasts continueLoop (⟨shouldStop, .failed⟩ :: rest)) :
    eventLoop continueLoop eventData (⟨shouldStop, .failed⟩ :: rest) = ⟨[.error (-1)], .broke⟩ := by
  rw [eventLoop_cons lasts]
  exact if_pos (.inl (by decide : (-1 : Int32) < 0))

theorem eventLoop_timeout (lasts : Lasts continueLoop (⟨shouldStop, .timeout⟩ :: rest))
    (fresh : eventData.flags ≠ evError) :
    eventLoop continueLoop eventData (⟨shouldStop, .timeout⟩ :: rest) =
      (eventLoop (continueLoop - 1) eventData rest).behind .noEvent := by
  rw [eventLoop_cons lasts]
  exact if_neg (not_or_intro (by decide : ¬ (0 : Int32) < 0) fresh)

/-- A timeout over a bare `EV_ERROR` is taken for an error. -/
theorem eventLoop_stale (lasts : Lasts continueLoop (⟨shouldStop, .timeout⟩ :: rest))
    (stale : eventData.flags = evError) :
    eventLoop continueLoop eventData (⟨shouldStop, .timeout⟩ :: rest) = ⟨[.error 0], .broke⟩ := by
  rw [eventLoop_cons lasts]
  exact if_pos (.inr stale)

theorem eventLoop_bare (lasts : Lasts continueLoop (⟨shouldStop, .event event⟩ :: rest))
    (bare : event.flags = evError) :
    eventLoop continueLoop eventData (⟨shouldStop, .event event⟩ :: rest) =
      ⟨[.error 1], .broke⟩ := by
  rw [eventLoop_cons lasts]
  exact if_pos (.inr bare)

/-- Whatever other flags come with `EV_ERROR`, the event is shown. -/
theorem eventLoop_shown (lasts : Lasts continueLoop (⟨shouldStop, .event event⟩ :: rest))
    (other : event.flags ≠ evError) :
    eventLoop continueLoop eventData (⟨shouldStop, .event event⟩ :: rest) =
      (eventLoop (continueLoop - 1) event rest).behind (.event event) := by
  rw [eventLoop_cons lasts]
  exact if_neg (not_or_intro (by decide : ¬ (1 : Int32) < 0) other)

/-- An event takes the place of what `event_data` held. -/
theorem eventLoop_stored (eventData eventData' : Event) :
    eventLoop continueLoop eventData (⟨shouldStop, .event event⟩ :: rest) =
      eventLoop continueLoop eventData' (⟨shouldStop, .event event⟩ :: rest) := rfl

end

/-! ### Which results are told apart -/

/-- The first error, where it is an event, has no flag but `EV_ERROR`. -/
def PlainError (results : List Result) : Prop :=
  ∀ event, results.find? Result.isError = some (.event event) → event.flags = evError

theorem plainError_cons (fine : result.isError = false) :
    PlainError (result :: rest) ↔ PlainError rest := by
  unfold PlainError
  rw [List.find?_cons_of_neg (by simp [fine])]

theorem plainError_event (error : Result.isError (.event event) = true) :
    PlainError (.event event :: rest) ↔ event.flags = evError := by
  unfold PlainError
  rw [List.find?_cons_of_pos error]
  simp

theorem isError_bare (bare : event.flags = evError) : Result.isError (.event event) = true := by
  simp only [Result.isError, bare]
  rfl

/-- Once `event_data` does not hold a bare `EV_ERROR`, it cannot come to hold one while the
loop goes on: the event that brings it ends the loop. -/
theorem eventLoop_eq_iff (lasts : Lasts continueLoop turns) (fresh : eventData.flags ≠ evError) :
    eventLoop continueLoop eventData turns = monitored (turns.map Turn.result) ↔
      PlainError (turns.map Turn.result) := by
  induction turns generalizing continueLoop eventData with
  | nil => simp [eventLoop, monitored, PlainError]
  | cons turn rest ih =>
    have later := lasts.next.2
    obtain ⟨shouldStop, result⟩ := turn
    rw [List.map_cons]
    cases result with
    | failed =>
      rw [eventLoop_failed lasts, monitored_of_error rfl]
      exact ⟨fun _ => nofun, fun _ => rfl⟩
    | timeout =>
      rw [eventLoop_timeout lasts fresh, monitored_of_fine rfl, behind_inj, plainError_cons rfl,
        ← ih later fresh]
      exact and_iff_right rfl
    | event event =>
      by_cases bare : event.flags = evError
      · have error := isError_bare bare
        rw [eventLoop_bare lasts bare, monitored_of_error error, plainError_event error]
        exact ⟨fun _ => bare, fun _ => rfl⟩
      · rw [eventLoop_shown lasts bare]
        cases error : Result.isError (.event event) with
        | true =>
          rw [monitored_of_error error, plainError_event error]
          exact ⟨nofun, fun same => absurd same bare⟩
        | false =>
          rw [monitored_of_fine error, behind_inj, plainError_cons error, ← ih later bare]
          exact and_iff_right rfl

/-- The loop detects every error of a run, and nothing else, exactly when the first call
does not time out over a bare `EV_ERROR` left in `event_data`, and the first event with an
error bit has no other flag. -/
theorem errors_detected_iff (eventData : Event) (lasts : Lasts iterations turns) :
    eventLoop iterations eventData turns = monitored (turns.map Turn.result) ↔
      (turns.head?.map Turn.result = some .timeout → eventData.flags ≠ evError) ∧
        PlainError (turns.map Turn.result) := by
  by_cases stale : eventData.flags = evError
  · cases turns with
    | nil => simp [eventLoop, monitored, PlainError]
    | cons turn rest =>
      obtain ⟨shouldStop, result⟩ := turn
      rw [List.map_cons]
      cases result with
      | failed =>
        rw [eventLoop_failed lasts, monitored_of_error rfl]
        exact ⟨fun _ => ⟨nofun, nofun⟩, fun _ => rfl⟩
      | timeout =>
        rw [eventLoop_stale lasts stale, monitored_of_fine rfl]
        exact ⟨nofun, fun both => absurd stale (both.1 rfl)⟩
      | event event =>
        have clear : (0 : UInt16) ≠ evError := by decide
        rw [eventLoop_stored eventData { eventData with flags := 0 }]
        exact (eventLoop_eq_iff lasts clear).trans (and_iff_right nofun).symm
  · rw [eventLoop_eq_iff lasts stale]
    exact (and_iff_right fun _ => stale).symm

/-- A write to the file, with `EV_ADD | EV_CLEAR`. -/
def written : Event := ⟨3, -4, 0x21, 2, 0, 0⟩

theorem errors_detected_iff_written :
    eventLoop iterations written [⟨false, .timeout⟩, ⟨false, .event written⟩, ⟨false, .failed⟩] =
      ⟨[.noEvent, .event written, .error (-1)], .broke⟩ := by
  have lasts : Lasts iterations [⟨false, .timeout⟩, ⟨false, .event written⟩, ⟨false, .failed⟩] :=
    ⟨by decide, by simp⟩
  apply (errors_detected_iff written lasts).mpr
  refine ⟨fun _ => by decide, fun event found => ?_⟩
  have first : [Result.timeout, .event written, .failed].find? Result.isError = some .failed := rfl
  cases first.symm.trans found

/-- The change was refused: `EV_ERROR | EV_ADD`, and the error in `data`. -/
def refused : Event := ⟨3, -4, 0x4001, 0, 9, 0⟩

theorem error_shown : ¬ ∀ eventData turns, Lasts iterations turns →
    eventLoop iterations eventData turns = monitored (turns.map Turn.result) := by
  intro detected
  have lasts : Lasts iterations [⟨false, .event refused⟩] := ⟨by decide, by simp⟩
  have same := detected written _ lasts
  revert same
  decide

end MonitoringDemos.Kevent
