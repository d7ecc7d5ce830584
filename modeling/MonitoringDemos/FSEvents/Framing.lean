import MonitoringDemos.FSEvents.Wire

/-! The event loop on an encoded stream makes the scan that the wire format calls
for. One turn of the inner loop consumes one argument, so the induction over the
arguments of an event is nested in the one over the records of the stream. -/
namespace MonitoringDemos.FSEvents
open Bytes

variable {p : Platform} {mem : Memory}

theorem eventLoop_eq (inside : off < rc) (s : Monitor) :
    eventLoop p mem rc off s =
      if readI32 mem off = fseEventsDropped then
        (⟨[.dropped off (readI32 mem (off + 4)), .skippedDone (off + 8)], [⟨off, 4⟩, ⟨off + 4, 4⟩],
          off + 10, s, .finished⟩ : Scan).andThen (eventLoop p mem rc)
      else (describe p off (readI32 mem off) (readI32 mem (off + 4)) s).andThen fun start s =>
        (argLoop p mem rc 0 start (off + 8) s).andThen (eventLoop p mem rc) := by
  rw [eventLoop, if_pos inside]
  simp only [sizeofEventType, sizeofPid, sizeofType, offsetofArgs_eq]
  split
  · rfl
  · generalize describe p off (readI32 mem off) (readI32 mem (off + 4)) s = head
    by_cases described : head.ending = .finished
    · rw [Scan.andThen_finished described, described]
      generalize argLoop p mem rc 0 head.off (off + 8) head.state = args
      by_cases looped : args.ending = .finished
      · rw [Scan.andThen_finished looped, looped, Scan.after_after]
      · rw [Scan.andThen_stopped looped]
        simp only
    · rw [Scan.andThen_stopped described]
      split
      · contradiction
      · rfl

theorem eventLoop_end (outside : rc ≤ off) (s : Monitor) :
    eventLoop p mem rc off s = ⟨[], [], off, s, .finished⟩ := by
  rw [eventLoop, if_neg (by omega)]

/-! ### Arguments -/

theorem argLoop_arg {a : WireArg} (stored : Stored mem kea a.encode) (inside : kea < rc)
    (turn : i ≤ fseMaxArgs) (s : Monitor) :
    argLoop p mem rc i kea kea s =
      (argScan p mem kea s a).andThen fun kea s => argLoop p mem rc (i + 1) kea kea s := by
  obtain ⟨header, _⟩ := stored_append.mp stored
  obtain ⟨typeStored, lenStored⟩ := stored_append.mp header
  have type : readU16 mem kea = a.type := readU16_stored typeStored
  have len : readU16 mem (kea + 2) = a.len := readU16_stored (by simpa using lenStored)
  obtain ⟨name, found⟩ := argName_found a.type
  rw [argLoop, if_pos ⟨inside, turn⟩]
  simp only [sizeofType, sizeofLen, offsetofData_eq, type, len, if_neg a.type_ne, found,
    WireArg.len_toNat]
  rw [Scan.andThen_finished rfl]
  simp only [argScan, argName, found, Option.getD_some, WireArg.kind, WireArg.size]

theorem argLoop_done (stored : Stored mem kea (encodeU16 fseArgDone)) (inside : kea < rc)
    (turn : i ≤ fseMaxArgs) (s : Monitor) :
    argLoop p mem rc i kea kea s = doneScan kea s := by
  rw [argLoop, if_pos ⟨inside, turn⟩]
  simp only [readU16_stored stored, if_true]
  rfl

theorem argLoop_stop (stop : rc ≤ off ∨ fseMaxArgs < i) (kea : Nat) (s : Monitor) :
    argLoop p mem rc i off kea s = ⟨[], [], off, s, .finished⟩ := by
  rw [argLoop, if_neg (by omega)]

/-- As long as the cap leaves a turn for each of them, the loop consumes the
arguments it finds and goes on behind them. -/
theorem argLoop_args {args : List WireArg} (stored : Stored mem kea (encodeArgs args))
    (inside : kea + argsSize args ≤ rc) (turns : i + args.length ≤ fseMaxArgs + 1) (s : Monitor) :
    argLoop p mem rc i kea kea s =
      (argsScan p mem kea s args).andThen fun kea s =>
        argLoop p mem rc (i + args.length) kea kea s := by
  induction args generalizing kea i s with
  | nil => rw [argsScan, Scan.andThen_finished rfl, Scan.after_nil, List.length_nil, Nat.add_zero]
  | cons a rest ih =>
    rw [encodeArgs, List.flatMap_cons] at stored
    obtain ⟨head, tail⟩ := stored_append.mp stored
    rw [WireArg.encode_length] at tail
    simp only [argsSize_cons, List.length_cons] at inside turns
    have positive : 0 < a.size := by simp only [WireArg.size]; omega
    rw [argLoop_arg head (by omega) (by omega), argsScan, Scan.andThen_assoc]
    rw [Scan.andThen_finished rfl, Scan.andThen_finished rfl, argScan_off,
      ih tail (by omega) (by omega), List.length_cons]
    rw [show i + 1 + rest.length = i + (rest.length + 1) by omega]

theorem argsScan_off (p : Platform) (mem : Memory) (kea : Nat) (s : Monitor) (args : List WireArg) :
    (argsScan p mem kea s args).ending = .finished ∧
      (argsScan p mem kea s args).off = kea + argsSize args := by
  induction args generalizing kea s with
  | nil => exact ⟨rfl, rfl⟩
  | cons a rest ih =>
    rw [argsScan, Scan.andThen_finished rfl]
    obtain ⟨done, stop⟩ := ih (kea + a.size) (argScan p mem kea s a).state
    refine ⟨done, stop.trans ?_⟩
    rw [argsSize_cons, Nat.add_assoc]

/-! ### Records -/

theorem eventLoop_event {e : WireEvent} (stored : Stored mem off e.encode) (fits : e.Fits)
    (inside : off + e.size ≤ rc) (s : Monitor) :
    eventLoop p mem rc off s =
      (recordScan p mem off s (.event e)).andThen (eventLoop p mem rc) := by
  obtain ⟨front, done⟩ := stored_append.mp stored
  obtain ⟨header, args⟩ := stored_append.mp front
  obtain ⟨typeStored, pidStored⟩ := stored_append.mp header
  have type : readI32 mem off = e.type := readI32_stored typeStored
  have pid : readI32 mem (off + 4) = e.pid := readI32_stored (by simpa using pidStored)
  simp only [List.length_append, encodeI32_length, encodeArgs_length] at args done
  have extent : e.size = 8 + argsSize e.args + 2 := rfl
  have cap : e.args.length ≤ fseMaxArgs := fits
  rw [eventLoop_eq (by omega), type, pid, if_neg e.type_ne, recordScan, Scan.andThen_assoc]
  by_cases described : (describe p off e.type e.pid s).ending = .finished
  · rw [Scan.andThen_finished described, Scan.andThen_finished described, describe_off,
      Scan.andThen_assoc]
    generalize (describe p off e.type e.pid s).state = s
    rw [argLoop_args args (by omega) (by omega), Scan.andThen_assoc]
    obtain ⟨finished, stop⟩ := argsScan_off p mem (off + 8) s e.args
    rw [Scan.andThen_finished finished, Scan.andThen_finished finished, stop,
      argLoop_done (by rwa [Nat.add_assoc]) (by omega) (by omega)]
  · rw [Scan.andThen_stopped described, Scan.andThen_stopped described]

theorem eventLoop_dropped {pid : Int32} (stored : Stored mem off (Record.dropped pid).encode)
    (inside : off + 10 ≤ rc) (s : Monitor) :
    eventLoop p mem rc off s =
      (recordScan p mem off s (.dropped pid)).andThen (eventLoop p mem rc) := by
  obtain ⟨header, _⟩ := stored_append.mp stored
  obtain ⟨typeStored, pidStored⟩ := stored_append.mp header
  rw [eventLoop_eq (by omega), readI32_stored typeStored, if_pos rfl,
    readI32_stored (by simpa using pidStored), recordScan]

theorem recordScan_off (finished : (recordScan p mem off s r).ending = .finished) :
    (recordScan p mem off s r).off = off + r.size := by
  cases r with
  | dropped pid => rfl
  | event e =>
    rw [recordScan] at finished ⊢
    by_cases described : (describe p off e.type e.pid s).ending = .finished
    · rw [Scan.andThen_finished described, describe_off]
      generalize (describe p off e.type e.pid s).state = s
      obtain ⟨looped, stop⟩ := argsScan_off p mem (off + 8) s e.args
      rw [Scan.andThen_finished looped]
      simp only [Scan.after, doneScan, stop, Record.size, WireEvent.size]
      omega
    · rw [Scan.andThen_stopped described] at finished
      contradiction

/-- The loop on a stream of records is the scan of that stream followed by the loop
on whatever lies behind it. -/
theorem eventLoop_records {records : List Record} (stored : Stored mem off (encodeStream records))
    (fits : ∀ r ∈ records, r.Fits) (inside : off + streamSize records ≤ rc) (s : Monitor) :
    eventLoop p mem rc off s =
      (streamScan p mem off s records).andThen (eventLoop p mem rc) := by
  induction records generalizing off s with
  | nil => rw [streamScan, Scan.andThen_finished rfl, Scan.after_nil]
  | cons r rest ih =>
    rw [encodeStream, List.flatMap_cons] at stored
    obtain ⟨head, tail⟩ := stored_append.mp stored
    rw [Record.encode_length] at tail
    simp only [streamSize_cons] at inside
    have one : eventLoop p mem rc off s =
        (recordScan p mem off s r).andThen (eventLoop p mem rc) := by
      cases r with
      | event e =>
        exact eventLoop_event head (fits _ List.mem_cons_self)
          (by simp only [Record.size] at inside; omega) s
      | dropped pid =>
        exact eventLoop_dropped head (by simp only [Record.size] at inside; omega) s
    rw [one, streamScan, Scan.andThen_assoc]
    by_cases finished : (recordScan p mem off s r).ending = .finished
    · rw [Scan.andThen_finished finished, Scan.andThen_finished finished, recordScan_off finished,
        ih tail (fun r member => fits r (List.mem_cons_of_mem _ member)) (by omega)]
    · rw [Scan.andThen_stopped finished, Scan.andThen_stopped finished]

theorem streamScan_off {records : List Record}
    (finished : (streamScan p mem off s records).ending = .finished) :
    (streamScan p mem off s records).off = off + streamSize records := by
  induction records generalizing off s with
  | nil => rfl
  | cons r rest ih =>
    rw [streamScan] at finished ⊢
    by_cases head : (recordScan p mem off s r).ending = .finished
    · rw [Scan.andThen_finished head] at finished ⊢
      rw [recordScan_off head] at finished ⊢
      have stop := ih finished
      simp only [Scan.after, stop, streamSize_cons, Nat.add_assoc]
    · rw [Scan.andThen_stopped head] at finished
      contradiction

/-- The loop on exactly the encoding of a stream, as one `read` returns it: whatever
the buffer holds behind it, the scan is the one the records call for. -/
theorem eventLoop_stream {records : List Record} (stored : Stored mem 0 (encodeStream records))
    (fits : ∀ r ∈ records, r.Fits) (s : Monitor) :
    eventLoop p mem (streamSize records) 0 s = streamScan p mem 0 s records := by
  rw [eventLoop_records stored fits (by omega)]
  by_cases finished : (streamScan p mem 0 s records).ending = .finished
  · rw [Scan.andThen_finished finished, streamScan_off finished, eventLoop_end (by omega)]
    simp only [Scan.after, List.append_nil]
    rw [← finished, ← streamScan_off finished]
  · rw [Scan.andThen_stopped finished]

/-! ### The round trip -/

/-- Every key of `g_kfseNames` lies in the guarded range of event types. -/
theorem known_inGuard {type : Int32} (known : (kfseNames.lookup type.toUInt32).isSome = true) :
    InGuard type := by
  obtain ⟨name, found⟩ := Option.isSome_iff_exists.mp known
  obtain ⟨before, after, split, _⟩ := List.lookup_eq_some_iff.mp found
  have keys : ∀ entry ∈ kfseNames, InGuard entry.1.toInt32 := by decide
  have guarded := keys (type.toUInt32, name) (by simp [split])
  simpa using guarded

/-- The second call of `getProcName` finds the pid of the first one in the cache. -/
theorem getProcName_again (found : getProcName p pid cache = some (name, cache')) :
    getProcName p pid cache' = some (name, cache') := by
  unfold getProcName at found ⊢
  split at found
  · obtain ⟨_, _, same⟩ := Option.map_eq_some_iff.mp found
    cases same
    rw [if_neg (by simp)]
  · rename_i hit
    cases Option.some.inj found
    rw [if_neg hit]

theorem getProcName_some (sysctl : ∀ pid, (p.sysctl pid).isSome = true) (pid : Int32)
    (cache : ProcCache) : ∃ name cache', getProcName p pid cache = some (name, cache') := by
  unfold getProcName
  split
  · obtain ⟨name, found⟩ := Option.isSome_iff_exists.mp (sysctl pid)
    exact ⟨name, ⟨pid.toInt, name⟩, by rw [found]; rfl⟩
  · exact ⟨_, _, rfl⟩

theorem describe_known (sysctl : ∀ pid, (p.sysctl pid).isSome = true) {type : Int32}
    (known : (kfseNames.lookup type.toUInt32).isSome = true) (off : Nat) (pid : Int32)
    (s : Monitor) : ∃ name procName cache, describe p off type pid s =
      ⟨[.named off type pid name procName], [⟨off, 4⟩, ⟨off + 4, 4⟩], off + 8,
        { s with cache }, .finished⟩ := by
  obtain ⟨name, found⟩ := Option.isSome_iff_exists.mp known
  obtain ⟨procName, cache, first⟩ := getProcName_some sysctl pid s.cache
  refine ⟨name, procName, cache, ?_⟩
  simp only [describe, if_pos (known_inGuard known), found, first, getProcName_again first]
  rfl

theorem argsScan_frames (p : Platform) (mem : Memory) (kea : Nat) (s : Monitor)
    (args : List WireArg) :
    (argsScan p mem kea s args).visits.map Visit.frame = argFrames kea args := by
  induction args generalizing kea s with
  | nil => rfl
  | cons a rest ih =>
    rw [argsScan, Scan.andThen_finished rfl]
    simp only [Scan.after, argScan, List.map_cons, Visit.frame, ih, argFrames,
      List.singleton_append]

theorem recordScan_known (sysctl : ∀ pid, (p.sysctl pid).isSome = true) {r : Record}
    (known : r.Known) (mem : Memory) (off : Nat) (s : Monitor) :
    (recordScan p mem off s r).ending = .finished ∧
      (recordScan p mem off s r).visits.map Visit.frame = r.frames off := by
  cases r with
  | dropped pid => exact ⟨rfl, rfl⟩
  | event e =>
    obtain ⟨name, procName, cache, described⟩ := describe_known sysctl known off e.pid s
    obtain ⟨finished, stop⟩ := argsScan_off p mem (off + 8) { s with cache } e.args
    rw [recordScan, described, Scan.andThen_finished rfl, Scan.andThen_finished finished]
    refine ⟨rfl, ?_⟩
    simp only [Scan.after, doneScan, List.map_append, List.map_cons, List.map_nil, Visit.frame,
      argsScan_frames, stop, Record.frames, List.singleton_append]

theorem streamScan_known (sysctl : ∀ pid, (p.sysctl pid).isSome = true) {records : List Record}
    (known : ∀ r ∈ records, r.Known) (mem : Memory) (off : Nat) (s : Monitor) :
    (streamScan p mem off s records).ending = .finished ∧
      (streamScan p mem off s records).visits.map Visit.frame = streamFrames off records := by
  induction records generalizing off s with
  | nil => exact ⟨rfl, rfl⟩
  | cons r rest ih =>
    obtain ⟨finished, frames⟩ := recordScan_known sysctl (known r List.mem_cons_self) mem off s
    rw [streamScan, Scan.andThen_finished finished, recordScan_off finished]
    obtain ⟨ended, tail⟩ := ih (fun r member => known r (List.mem_cons_of_mem _ member))
      (off + r.size) (recordScan p mem off s r).state
    refine ⟨ended, ?_⟩
    simp only [Scan.after, List.map_append, frames, tail, streamFrames]

/-- Framing round trip: on one `read` of encoded records the event loop visits exactly
their headers, arguments and terminators, each at its offset, and stops at `rc`. -/
theorem eventLoop_round_trip (sysctl : ∀ pid, (p.sysctl pid).isSome = true)
    (records : List Record) (known : ∀ r ∈ records, r.Known) (fits : ∀ r ∈ records, r.Fits)
    (buf : Memory) (s : Monitor) :
    let rc := (encodeStream records).length
    let scan := eventLoop p (overlay (encodeStream records) buf) rc 0 s
    scan.visits.map Visit.frame = streamFrames 0 records ∧ scan.off = rc ∧
      scan.ending = .finished := by
  have run := eventLoop_stream (p := p) (stored_overlay (encodeStream records) buf) fits s
  obtain ⟨finished, frames⟩ :=
    streamScan_known sysctl known (overlay (encodeStream records) buf) 0 s
  simp only [encodeStream_length, run]
  exact ⟨frames, (streamScan_off finished).trans (Nat.zero_add _), finished⟩

/-- A platform on which every process is called "zsh" and only root has an account. -/
def samplePlatform : Platform where
  sysctl _ := some [0x7a, 0x73, 0x68]
  getpwuid uid := if uid = 0 then some "root" else none
  strmode _ := "?---------"
  major dev := (dev >>> 24) &&& 0xff
  minor dev := dev &&& 0xffffff
  beyondIftovt _ := 0

def pathArg : WireArg := ⟨fseArgString, [0x2f, 0x61, 0], by decide, by decide⟩

/-- The string "/a" and the number 7. -/
def sampleEvent : WireEvent where
  type := 0
  pid := 42
  args := [pathArg, ⟨fseArgInt32, [7, 0, 0, 0], by decide, by decide⟩]
  type_ne := by decide

theorem eventLoop_round_trip_sample :
    (eventLoop samplePlatform
      (overlay (encodeStream [.event sampleEvent, .dropped 1]) (fun _ => 0xaa)) 35 0
      Monitor.initial).visits.map Visit.frame =
    [.event 0 0 (some 42), .arg 8 2 3, .arg 15 4 4, .done 23, .event 25 999 (some 1), .done 33] :=
  (eventLoop_round_trip (p := samplePlatform) (fun _ => rfl) [.event sampleEvent, .dropped 1]
    (by decide) (by decide) (fun _ => 0xaa) Monitor.initial).1

end MonitoringDemos.FSEvents
