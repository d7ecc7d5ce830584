import MonitoringDemos.FSEvents.Bounds

/-! The cap of the inner loop. It leaves thirteen turns, enough for `FSE_MAX_ARGS`
arguments and their terminator; behind a longer event the outer loop goes on where
the cap stopped the inner one. -/
namespace MonitoringDemos.FSEvents
open Bytes

variable {p : Platform} {mem : Memory}

/-- The address of an event header. -/
def Visit.header : Visit → Option Nat
  | .dropped kfse _ | .named kfse .. | .unnamed kfse _ | .nameless kfse _ | .procless kfse .. =>
    some kfse
  | _ => none

def Scan.headers (scan : Scan) : List Nat := scan.visits.filterMap Visit.header

@[simp] theorem headers_after (visits : List Visit) (reads : List Span) (rest : Scan) :
    (rest.after visits reads).headers = visits.filterMap Visit.header ++ rest.headers := by
  simp only [Scan.headers, Scan.after, List.filterMap_append]

theorem describe_headers (p : Platform) (off : Nat) (type pid : Int32) (s : Monitor) :
    (describe p off type pid s).headers = [off] := by
  unfold describe
  split
  · split
    · rfl
    · split
      · rfl
      · split <;> rfl
  · rfl

theorem argsScan_headers (p : Platform) (mem : Memory) (kea : Nat) (s : Monitor)
    (args : List WireArg) : (argsScan p mem kea s args).headers = [] := by
  induction args generalizing kea s with
  | nil => rfl
  | cons a rest ih =>
    rw [argsScan, Scan.andThen_finished rfl, headers_after, ih]
    rfl

theorem eventLoop_header (inside : off < rc) (s : Monitor) :
    (eventLoop p mem rc off s).headers.head? = some off := by
  rw [eventLoop_eq inside]
  split
  · rw [Scan.andThen_finished rfl, headers_after]
    rfl
  · have header := describe_headers p off (readI32 mem off) (readI32 mem (off + 4)) s
    by_cases described :
        (describe p off (readI32 mem off) (readI32 mem (off + 4)) s).ending = .finished
    · rw [Scan.andThen_finished described, headers_after]
      rw [Scan.headers] at header
      rw [header, List.singleton_append, List.head?_cons]
    · rw [Scan.andThen_stopped described, header, List.head?_cons]

/-- The arguments that the loop has turns for when the terminator is not among them. -/
def WireEvent.walked (e : WireEvent) : List WireArg := e.args.take (fseMaxArgs + 1)

theorem walked_inside (e : WireEvent) : 8 + argsSize e.walked < e.size := by
  have whole : argsSize e.args = argsSize e.walked + argsSize (e.args.drop (fseMaxArgs + 1)) := by
    rw [← argsSize_append, WireEvent.walked, List.take_append_drop]
  simp only [WireEvent.size]
  omega

/-- Behind an event with too many arguments the outer loop goes on at the first
argument, or the terminator, that the cap has left. -/
theorem eventLoop_capped {e : WireEvent} (stored : Stored mem off e.encode)
    (excess : fseMaxArgs < e.args.length) (inside : off + e.size ≤ rc) (s : Monitor) :
    eventLoop p mem rc off s = (describe p off e.type e.pid s).andThen fun start s =>
      (argsScan p mem start s e.walked).andThen (eventLoop p mem rc) := by
  obtain ⟨front, _⟩ := stored_append.mp stored
  obtain ⟨header, args⟩ := stored_append.mp front
  obtain ⟨typeStored, pidStored⟩ := stored_append.mp header
  have type : readI32 mem off = e.type := readI32_stored typeStored
  have pid : readI32 mem (off + 4) = e.pid := readI32_stored (by simpa using pidStored)
  have split : encodeArgs e.args =
      encodeArgs e.walked ++ encodeArgs (e.args.drop (fseMaxArgs + 1)) := by
    rw [encodeArgs, encodeArgs, encodeArgs, ← List.flatMap_append, WireEvent.walked,
      List.take_append_drop]
  simp only [List.length_append, encodeI32_length, split] at args
  have walked : Stored mem (off + 8) (encodeArgs e.walked) := (stored_append.mp args).1
  have turns : e.walked.length = fseMaxArgs + 1 := by
    rw [WireEvent.walked, List.length_take]
    omega
  have extent := walked_inside e
  rw [eventLoop_eq (by omega), type, pid, if_neg e.type_ne]
  by_cases described : (describe p off e.type e.pid s).ending = .finished
  · rw [Scan.andThen_finished described, Scan.andThen_finished described, describe_off]
    generalize (describe p off e.type e.pid s).state = s
    obtain ⟨finished, stop⟩ := argsScan_off p mem (off + 8) s e.walked
    rw [argLoop_args walked (by omega) (by omega), Scan.andThen_assoc,
      Scan.andThen_finished finished, Scan.andThen_finished finished,
      argLoop_stop (Or.inr (by omega)), Scan.andThen_finished rfl, Scan.after_nil]
  · rw [Scan.andThen_stopped described, Scan.andThen_stopped described]

/-- The header visited after the one of the event is read from the byte after its
`FSE_ARG_DONE`; none is visited when nothing follows. -/
def InStep (scan : Scan) (off : Nat) (e : WireEvent) (following : List Record) : Prop :=
  scan.headers[1]? = following.head?.map fun _ => off + e.size

theorem capped_next (sysctl : ∀ pid, (p.sysctl pid).isSome = true) {e : WireEvent}
    (stored : Stored mem off e.encode) (excess : fseMaxArgs < e.args.length)
    (inside : off + e.size ≤ rc) (s : Monitor) :
    (eventLoop p mem rc off s).headers[1]? =
      if (Record.event e).Described then some (off + 8 + argsSize e.walked) else none := by
  have header := describe_headers p off e.type e.pid s
  have extent := walked_inside e
  have entered : (describe p off e.type e.pid s).ending = .finished ↔
      (Record.event e).Described := describe_described sysctl e.type e.pid off s
  rw [eventLoop_capped stored excess inside]
  by_cases described : (Record.event e).Described
  · rw [if_pos described, Scan.andThen_finished (entered.mpr described), headers_after,
      describe_off]
    generalize (describe p off e.type e.pid s).state = start
    obtain ⟨finished, stop⟩ := argsScan_off p mem (off + 8) start e.walked
    have quiet := argsScan_headers p mem (off + 8) start e.walked
    rw [Scan.headers] at header quiet
    rw [Scan.andThen_finished finished, headers_after, header, quiet, stop, List.nil_append,
      List.singleton_append, List.getElem?_cons_succ, ← List.head?_eq_getElem?,
      eventLoop_header (by omega)]
  · rw [if_neg described, Scan.andThen_stopped (mt entered.mp described), header]
    rfl

/-- The step is lost behind every event that the cap cuts short: only where the event
is never entered, its type having no name, and nothing follows, is no header misread. -/
theorem inStep_iff (sysctl : ∀ pid, (p.sysctl pid).isSome = true) {e : WireEvent}
    (excess : fseMaxArgs < e.args.length) (following : List Record)
    (stored : Stored mem off (encodeStream (.event e :: following))) (s : Monitor) :
    InStep (eventLoop p mem (off + streamSize (.event e :: following)) off s) off e following ↔
      ¬ (Record.event e).Described ∧ following = [] := by
  rw [encodeStream, List.flatMap_cons] at stored
  have extent := walked_inside e
  have inside : off + e.size ≤ off + streamSize (.event e :: following) := by
    simp only [streamSize_cons, Record.size]
    omega
  rw [InStep, capped_next sysctl (stored_append.mp stored).1 excess inside s]
  by_cases described : (Record.event e).Described
  · rw [if_pos described]
    constructor
    · intro next
      cases following with
      | nil => contradiction
      | cons r rest =>
        have same : off + 8 + argsSize e.walked = off + e.size := Option.some.inj next
        omega
    · rintro ⟨nameless, _⟩
      contradiction
  · rw [if_neg described]
    constructor
    · intro next
      cases following with
      | nil => exact ⟨described, rfl⟩
      | cons r rest => contradiction
    · rintro ⟨_, rfl⟩
      rfl

def deviceArg : WireArg := ⟨fseArgDev, [4, 0, 0, 1], by decide, by decide⟩

/-- A rename that reports two paths, each with dev, ino, mode, uid and gid, and a timestamp. -/
def renameEvent : WireEvent where
  type := 3
  pid := 42
  args :=
    let file : List WireArg := [
      pathArg, deviceArg,
      ⟨fseArgIno, [9, 0, 0, 0, 0, 0, 0, 0], by decide, by decide⟩,
      ⟨fseArgMode, [0xa4, 0x81, 0, 0], by decide, by decide⟩,
      ⟨fseArgUid, [0, 0, 0, 0], by decide, by decide⟩,
      ⟨fseArgGid, [0, 0, 0, 0], by decide, by decide⟩]
    file ++ file ++ [⟨fseArgInt64, [1, 0, 0, 0, 0, 0, 0, 0], by decide, by decide⟩]
  type_ne := by decide

theorem inStep_iff_rename :
    InStep (eventLoop samplePlatform
        (overlay (encodeStream [.event renameEvent, .event sampleEvent]) fun _ => 0)
        (0 + streamSize [.event renameEvent, .event sampleEvent]) 0 Monitor.initial)
      0 renameEvent [.event sampleEvent] ↔
    ¬ (Record.event renameEvent).Described ∧ [Record.event sampleEvent] = [] :=
  inStep_iff (p := samplePlatform) (fun _ => rfl) (by decide) [.event sampleEvent]
    (stored_overlay _ _) Monitor.initial

/-- The terminator of the rename is read as the header of the next event. -/
theorem rename_loses_step :
    ¬ InStep (eventLoop samplePlatform
        (overlay (encodeStream [.event renameEvent, .event sampleEvent]) fun _ => 0)
        (0 + streamSize [.event renameEvent, .event sampleEvent]) 0 Monitor.initial)
      0 renameEvent [.event sampleEvent] := by
  intro next
  have stored : Stored (overlay (encodeStream [.event renameEvent, .event sampleEvent]) fun _ => 0)
      0 renameEvent.encode :=
    (stored_append.mp (stored_overlay (encodeStream [.event renameEvent, .event sampleEvent]) _)).1
  rw [InStep, capped_next (fun _ => rfl) stored (by decide) (by decide), if_pos (by decide)] at next
  exact absurd next (by decide)

end MonitoringDemos.FSEvents
