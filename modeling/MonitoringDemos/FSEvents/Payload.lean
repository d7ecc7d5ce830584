import MonitoringDemos.FSEvents.Framing

/-! Where the data of an argument are read from. The stride to the next argument
places the payload right behind `len`, at offset 4 of the argument; the switch reads
it through the union `data`, which the ABI places at offset 8. -/
namespace MonitoringDemos.FSEvents
open Bytes

variable {p : Platform} {mem : Memory}

/-! ### The raw value behind a line -/

inductive Datum where
  | text (text : CString)
  | int32 (value : Int32)
  | int64 (value : Int64)
  | uint32 (value : UInt32)
  | uint64 (value : UInt64)
  | nothing

/-- Decode the bytes at `data` as the C type of a kind. -/
def fetch (mem : Memory) (data : Nat) : ArgKind → Datum
  | .vnode | .string => .text (cstring mem data)
  | .int32 | .dev | .mode => .int32 (readI32 mem data)
  | .int64 => .int64 (readI64 mem data)
  | .uid => .uint32 (readU32 mem data)
  | .raw | .ino => .uint64 (readU64 mem data)
  | .other => .nothing

def Line.datum : Line → Datum
  | .path text | .string text => .text text
  | .int32 value | .fsid value | .dev value _ _ | .mode _ value _ => .int32 value
  | .int64 value => .int64 value
  | .uid value _ => .uint32 value
  | .ptr value | .ino value => .uint64 value
  | .unknown => .nothing

theorem processArg_datum (p : Platform) (mem : Memory) (data : Nat) (flag : Bool) (kind : ArgKind) :
    (processArg p mem data flag kind).1.datum = fetch mem data kind := by
  cases kind with
  | dev => cases flag <;> rfl
  | _ => rfl

/-- Byte `k` behind `data` takes part in the decoding: below the width of a scalar, up
to and including the terminator of a string. -/
def ArgKind.Touches (mem : Memory) (data : Nat) : ArgKind → Nat → Prop
  | .vnode, k | .string, k => ∀ j < k, mem (data + j) ≠ 0
  | kind, k => k < kind.width

theorem fetch_eq_iff (mem mem' : Memory) (data data' : Nat) (kind : ArgKind) :
    fetch mem data kind = fetch mem' data' kind ↔
      ∀ k, kind.Touches mem' data' k → mem (data + k) = mem' (data' + k) := by
  cases kind with
  | vnode | string =>
    simpa only [fetch, Datum.text.injEq, ArgKind.Touches] using cstring_eq_iff mem mem' data data'
  | int32 | dev | mode =>
    simpa only [fetch, Datum.int32.injEq, ArgKind.Touches, ArgKind.width] using
      readI32_eq_iff mem mem' data data'
  | int64 =>
    simpa only [fetch, Datum.int64.injEq, ArgKind.Touches, ArgKind.width] using
      readI64_eq_iff mem mem' data data'
  | uid =>
    simpa only [fetch, Datum.uint32.injEq, ArgKind.Touches, ArgKind.width] using
      readU32_eq_iff mem mem' data data'
  | raw | ino =>
    simpa only [fetch, Datum.uint64.injEq, ArgKind.Touches, ArgKind.width] using
      readU64_eq_iff mem mem' data data'
  | other => simp [fetch, ArgKind.Touches, ArgKind.width]

/-! ### The arguments of a stream and the visits to them -/

def argOffsets : Nat → List WireArg → List (Nat × WireArg)
  | _, [] => []
  | kea, a :: rest => (kea, a) :: argOffsets (kea + a.size) rest

def Record.argOffsets (off : Nat) : Record → List (Nat × WireArg)
  | .event e => FSEvents.argOffsets (off + 8) e.args
  | .dropped _ => []

def streamArgs : Nat → List Record → List (Nat × WireArg)
  | _, [] => []
  | off, r :: rest => r.argOffsets off ++ streamArgs (off + r.size) rest

/-- The `#Event` line of the record does not throw: its type has a name or lies
outside the guarded range. -/
def Record.Described : Record → Prop
  | .event e => e.Known ∨ ¬ InGuard e.type
  | .dropped _ => True

instance : DecidablePred Record.Described
  | .event e => inferInstanceAs (Decidable (e.Known ∨ ¬ InGuard e.type))
  | .dropped _ => inferInstanceAs (Decidable True)

/-- The records before the first one whose type makes `g_kfseNames.at` throw. -/
def reached (records : List Record) : List Record := records.takeWhile fun r => decide r.Described

theorem describe_described (sysctl : ∀ pid, (p.sysctl pid).isSome = true) (type pid : Int32)
    (off : Nat) (s : Monitor) :
    (describe p off type pid s).ending = .finished ↔
      (kfseNames.lookup type.toUInt32).isSome = true ∨ ¬ InGuard type := by
  by_cases known : (kfseNames.lookup type.toUInt32).isSome = true
  · obtain ⟨name, procName, cache, described⟩ := describe_known sysctl known off pid s
    simp [described, known]
  · by_cases guarded : InGuard type
    · have missing : kfseNames.lookup type.toUInt32 = none :=
        Option.not_isSome_iff_eq_none.mp known
      simp [describe, guarded, missing]
    · simp [describe, guarded]

theorem recordScan_described (sysctl : ∀ pid, (p.sysctl pid).isSome = true) (r : Record)
    (mem : Memory) (off : Nat) (s : Monitor) :
    (recordScan p mem off s r).ending = .finished ↔ r.Described := by
  cases r with
  | dropped pid => exact ⟨fun _ => trivial, fun _ => rfl⟩
  | event e =>
    rw [recordScan]
    by_cases described : (describe p off e.type e.pid s).ending = .finished
    · rw [Scan.andThen_finished described]
      obtain ⟨looped, _⟩ := argsScan_off p mem (describe p off e.type e.pid s).off
        (describe p off e.type e.pid s).state e.args
      rw [Scan.andThen_finished looped]
      exact ⟨fun _ => (describe_described sysctl _ _ _ _).mp described, fun _ => rfl⟩
    · rw [Scan.andThen_stopped described]
      exact describe_described sysctl _ _ _ _

/-- `is_fse_arg_vnode` after an argument. -/
def nextFlag (flag : Bool) : ArgKind → Bool
  | .vnode => true
  | .dev => false
  | _ => flag

def flagAfter (flag : Bool) (kinds : List ArgKind) : Bool := kinds.foldl nextFlag flag

theorem processArg_flag (p : Platform) (mem : Memory) (data : Nat) (flag : Bool) (kind : ArgKind) :
    (processArg p mem data flag kind).2 = nextFlag flag kind := by
  cases kind with
  | dev => cases flag <;> rfl
  | _ => rfl

def Visit.isArg : Visit → Bool
  | .arg .. => true
  | _ => false

def argVisit (p : Platform) (mem : Memory) (flag : Bool) (kea : Nat) (a : WireArg) : Visit :=
  .arg kea a.type a.len (argName a.type) (processArg p mem (kea + 8) flag a.kind).1

/-- The visits to a sequence of arguments; each one sees the flag its predecessors left. -/
def argVisits (p : Platform) (mem : Memory) (flag : Bool) : List (Nat × WireArg) → List Visit
  | [] => []
  | (kea, a) :: rest => argVisit p mem flag kea a :: argVisits p mem (nextFlag flag a.kind) rest

def kinds (places : List (Nat × WireArg)) : List ArgKind := places.map fun place => place.2.kind

theorem argVisits_append (p : Platform) (mem : Memory) (flag : Bool)
    (first second : List (Nat × WireArg)) :
    argVisits p mem flag (first ++ second) =
      argVisits p mem flag first ++ argVisits p mem (flagAfter flag (kinds first)) second := by
  induction first generalizing flag with
  | nil => rfl
  | cons place rest ih =>
    simp only [List.cons_append, argVisits, ih]
    rfl

theorem argsScan_visits (p : Platform) (mem : Memory) (kea : Nat) (s : Monitor) (args : List WireArg) :
    (argsScan p mem kea s args).visits = argVisits p mem s.isFseArgVnode (argOffsets kea args) ∧
      (argsScan p mem kea s args).state =
        { s with isFseArgVnode := flagAfter s.isFseArgVnode (kinds (argOffsets kea args)) } := by
  induction args generalizing kea s with
  | nil => exact ⟨rfl, rfl⟩
  | cons a rest ih =>
    rw [argsScan, Scan.andThen_finished rfl]
    obtain ⟨visits, state⟩ := ih (kea + a.size) (argScan p mem kea s a).state
    have flag : (argScan p mem kea s a).state.isFseArgVnode = nextFlag s.isFseArgVnode a.kind :=
      processArg_flag _ _ _ _ _
    refine ⟨?_, ?_⟩
    · simp only [Scan.after, argScan_off, argOffsets, argVisits, visits, flag]
      rfl
    · simp only [Scan.after, argScan_off, argOffsets, state, flag]
      rfl

theorem describe_quiet (p : Platform) (off : Nat) (type pid : Int32) (s : Monitor) :
    (describe p off type pid s).visits.filter Visit.isArg = [] ∧
      (describe p off type pid s).state.isFseArgVnode = s.isFseArgVnode := by
  unfold describe
  split
  · split
    · exact ⟨rfl, rfl⟩
    · split
      · exact ⟨rfl, rfl⟩
      · split <;> exact ⟨rfl, rfl⟩
  · exact ⟨rfl, rfl⟩

theorem argVisits_filter (p : Platform) (mem : Memory) (flag : Bool)
    (places : List (Nat × WireArg)) :
    (argVisits p mem flag places).filter Visit.isArg = argVisits p mem flag places := by
  induction places generalizing flag with
  | nil => rfl
  | cons place rest ih =>
    simp only [argVisits, argVisit, List.filter_cons, Visit.isArg, if_true, ih]

theorem recordScan_args (sysctl : ∀ pid, (p.sysctl pid).isSome = true) {r : Record}
    (described : r.Described) (mem : Memory) (off : Nat) (s : Monitor) :
    (recordScan p mem off s r).visits.filter Visit.isArg =
        argVisits p mem s.isFseArgVnode (r.argOffsets off) ∧
      (recordScan p mem off s r).state.isFseArgVnode =
        flagAfter s.isFseArgVnode (kinds (r.argOffsets off)) := by
  cases r with
  | dropped pid => exact ⟨rfl, rfl⟩
  | event e =>
    have finished := (describe_described sysctl e.type e.pid off s).mpr described
    obtain ⟨quiet, flag⟩ := describe_quiet p off e.type e.pid s
    rw [recordScan, Scan.andThen_finished finished, describe_off]
    generalize (describe p off e.type e.pid s).state = start at flag
    obtain ⟨looped, stop⟩ := argsScan_off p mem (off + 8) start e.args
    obtain ⟨visits, state⟩ := argsScan_visits p mem (off + 8) start e.args
    rw [Scan.andThen_finished looped]
    refine ⟨?_, ?_⟩
    · simp only [Scan.after, doneScan, List.filter_append, quiet, visits, argVisits_filter, flag,
        Record.argOffsets, List.nil_append]
      simp [Visit.isArg]
    · simp only [Scan.after, doneScan, state, flag, Record.argOffsets]

/-- The visits to arguments on a stream, in order, are those to the arguments of the
records that are reached. -/
theorem streamScan_args (sysctl : ∀ pid, (p.sysctl pid).isSome = true) (records : List Record)
    (mem : Memory) (off : Nat) (s : Monitor) :
    (streamScan p mem off s records).visits.filter Visit.isArg =
      argVisits p mem s.isFseArgVnode (streamArgs off (reached records)) := by
  induction records generalizing off s with
  | nil => rfl
  | cons r rest ih =>
    by_cases described : r.Described
    · have finished := (recordScan_described sysctl r mem off s).mpr described
      obtain ⟨visits, flag⟩ := recordScan_args sysctl described mem off s
      rw [streamScan, Scan.andThen_finished finished, recordScan_off finished]
      simp only [Scan.after, List.filter_append, visits, ih, flag, reached, List.takeWhile_cons,
        described, decide_true, if_true, streamArgs, argVisits_append]
    · have stopped : (recordScan p mem off s r).ending ≠ .finished :=
        fun finished => described ((recordScan_described sysctl r mem off s).mp finished)
      rw [streamScan, Scan.andThen_stopped stopped]
      simp only [reached, List.takeWhile_cons, described, decide_false, Bool.false_eq_true,
        if_false, streamArgs, argVisits]
      cases r with
      | dropped pid => exact absurd trivial described
      | event e =>
        have failed : (describe p off e.type e.pid s).ending ≠ .finished :=
          fun finished => described ((describe_described sysctl _ _ _ _).mp finished)
        rw [recordScan, Scan.andThen_stopped failed]
        exact (describe_quiet p off e.type e.pid s).1

theorem argVisits_mem (member : visit ∈ argVisits p mem flag places) :
    ∃ place ∈ places, ∃ flag, visit = argVisit p mem flag place.1 place.2 := by
  induction places generalizing flag with
  | nil => contradiction
  | cons place rest ih =>
    rcases List.mem_cons.mp member with rfl | tail
    · exact ⟨place, List.mem_cons_self, flag, rfl⟩
    · obtain ⟨later, found, visited⟩ := ih tail
      exact ⟨later, List.mem_cons_of_mem _ found, visited⟩

theorem argVisits_complete (p : Platform) (mem : Memory) (flag : Bool) (member : place ∈ places) :
    ∃ flag', argVisit p mem flag' place.1 place.2 ∈ argVisits p mem flag places := by
  induction places generalizing flag with
  | nil => contradiction
  | cons first rest ih =>
    rcases List.mem_cons.mp member with rfl | tail
    · exact ⟨flag, List.mem_cons_self⟩
    · obtain ⟨flag', visited⟩ := ih (nextFlag flag first.2.kind) tail
      exact ⟨flag', List.mem_cons_of_mem _ visited⟩

/-! ### The payload of an argument -/

theorem argOffsets_stored {args : List WireArg} (stored : Stored mem kea (encodeArgs args))
    (member : (o, a) ∈ argOffsets kea args) : Stored mem o a.encode := by
  induction args generalizing kea with
  | nil => contradiction
  | cons first rest ih =>
    rw [encodeArgs, List.flatMap_cons] at stored
    obtain ⟨head, tail⟩ := stored_append.mp stored
    rw [WireArg.encode_length] at tail
    rcases List.mem_cons.mp member with same | later
    · cases same
      exact head
    · exact ih tail later

theorem streamArgs_stored {records : List Record} (stored : Stored mem off (encodeStream records))
    (member : (o, a) ∈ streamArgs off records) : Stored mem o a.encode := by
  induction records generalizing off with
  | nil => contradiction
  | cons r rest ih =>
    rw [encodeStream, List.flatMap_cons] at stored
    obtain ⟨head, tail⟩ := stored_append.mp stored
    rw [Record.encode_length] at tail
    rcases List.mem_append.mp member with here | later
    · cases r with
      | dropped pid => contradiction
      | event e =>
        obtain ⟨front, _⟩ := stored_append.mp head
        obtain ⟨_, args⟩ := stored_append.mp front
        exact argOffsets_stored (by simpa using args) here
    · exact ih tail later

theorem streamArgs_append (off : Nat) (first second : List Record) :
    streamArgs off (first ++ second) =
      streamArgs off first ++ streamArgs (off + streamSize first) second := by
  induction first generalizing off with
  | nil => rfl
  | cons r rest ih =>
    simp only [List.cons_append, streamArgs, ih, streamSize_cons, List.append_assoc, Nat.add_assoc]

theorem reached_subset (member : place ∈ streamArgs off (reached records)) :
    place ∈ streamArgs off records := by
  rw [← List.takeWhile_append_dropWhile (p := fun r => decide (Record.Described r)) (l := records),
    streamArgs_append]
  exact List.mem_append_left _ member

namespace WireArg

/-- The value the payload itself stands for. -/
def datum (a : WireArg) : Datum := fetch (ofList a.payload) 0 a.kind

/-- A scalar payload is as long as its C type, a string payload holds its terminator. -/
def PayloadFits (a : WireArg) : Prop :=
  match a.kind with
  | .vnode | .string => (0 : UInt8) ∈ a.payload
  | .raw | .other => True
  | kind => a.payload.length = kind.width

end WireArg

/-- The kinds whose data the switch decodes, raw pointers apart. -/
def ArgKind.Decoded : ArgKind → Prop
  | .raw | .other => False
  | _ => True

theorem terminator_touched (bytes : List UInt8) (terminated : (0 : UInt8) ∈ bytes)
    (touched : ∀ j < k, ofList bytes (0 + j) ≠ 0) : k < bytes.length := by
  obtain ⟨i, inside, zero⟩ := List.getElem_of_mem terminated
  have stop : ¬ i < k := by
    intro before
    apply touched i before
    simp [ofList, inside, zero]
  omega

theorem touched_inside {a : WireArg} (fits : a.PayloadFits) (decoded : a.kind.Decoded)
    (touched : a.kind.Touches (ofList a.payload) 0 k) : k < a.payload.length := by
  unfold WireArg.PayloadFits at fits
  cases kind : a.kind <;> simp only [kind, ArgKind.Touches, ArgKind.Decoded] at fits decoded touched
  case vnode => exact terminator_touched _ fits touched
  case string => exact terminator_touched _ fits touched
  all_goals omega

/-- Decoded right behind `len`, the wire gives the payload's own value. -/
theorem fetch_payload {a : WireArg} (fits : a.PayloadFits) (decoded : a.kind.Decoded)
    (stored : Stored mem kea a.encode) : fetch mem (kea + 4) a.kind = a.datum := by
  have payload := (stored_append.mp stored).2
  simp only [List.length_append, encodeU16_length] at payload
  apply (fetch_eq_iff _ _ _ _ _).mpr
  intro k touched
  rw [stored_getD payload (touched_inside fits decoded touched) 0, Nat.zero_add]
  rfl

/-- Each byte of the payload that decoding needs is found again four bytes further on. -/
def Repeats (mem : Memory) (kea : Nat) (a : WireArg) : Prop :=
  ∀ k, a.kind.Touches (ofList a.payload) 0 k → mem (kea + 8 + k) = ofList a.payload k

theorem datum_iff_repeats (p : Platform) (flag : Bool) (a : WireArg) :
    (processArg p mem (kea + 8) flag a.kind).1.datum = a.datum ↔ Repeats mem kea a := by
  rw [processArg_datum, WireArg.datum, fetch_eq_iff]
  simp only [Nat.zero_add, Repeats]

/-- A text of four characters or more is never read as such: its terminator is met
four characters early. -/
theorem long_text_shifted {a : WireArg} (text : a.kind = .vnode ∨ a.kind = .string)
    (stored : Stored mem kea a.encode) (inside : n < a.payload.length) (long : 4 ≤ n)
    (chars : ∀ j < n, ofList a.payload j ≠ 0) (stop : ofList a.payload n = 0) :
    ¬ Repeats mem kea a := by
  intro repeats
  have payload := (stored_append.mp stored).2
  simp only [List.length_append, encodeU16_length] at payload
  have touched : a.kind.Touches (ofList a.payload) 0 (n - 4) := by
    rcases text with kind | kind <;> rw [kind] <;> intro j before <;>
      exact chars (0 + j) (by omega)
  have again := repeats (n - 4) touched
  rw [show kea + 8 + (n - 4) = kea + (2 + 2) + n by omega, stored_getD payload inside 0] at again
  exact chars (n - 4) (by omega) (again.symm.trans stop)

/-- For printing, the value of each visited argument is the one its payload encodes. -/
def DecodesOwnPayload (scan : Scan) (records : List Record) : Prop :=
  ∀ kea a, (kea, a) ∈ streamArgs 0 records → a.kind.Decoded →
    ∀ name line, Visit.arg kea a.type a.len name line ∈ scan.visits → line.datum = a.datum

theorem decodes_iff_repeats (sysctl : ∀ pid, (p.sysctl pid).isSome = true) {records : List Record}
    (stored : Stored mem 0 (encodeStream records)) (s : Monitor) :
    DecodesOwnPayload (streamScan p mem 0 s records) records ↔
      ∀ kea a, (kea, a) ∈ streamArgs 0 (reached records) → a.kind.Decoded → Repeats mem kea a := by
  have visits := streamScan_args sysctl records mem 0 s
  constructor
  · intro decodes kea a member decoded
    obtain ⟨flag, visited⟩ :=
      argVisits_complete p mem s.isFseArgVnode member
    rw [← visits] at visited
    exact (datum_iff_repeats p flag a).mp
      (decodes kea a (reached_subset member) decoded _ _ (List.mem_filter.mp visited).1)
  · intro repeats kea a member decoded name line visited
    have listed : Visit.arg kea a.type a.len name line ∈
        argVisits p mem s.isFseArgVnode (streamArgs 0 (reached records)) := by
      rw [← visits]
      exact List.mem_filter.mpr ⟨visited, rfl⟩
    obtain ⟨⟨kea', a'⟩, found, flag, same⟩ := argVisits_mem listed
    simp only [argVisit, Visit.arg.injEq] at same
    obtain ⟨rfl, type, len, _, rfl⟩ := same
    -- the argument met at this offset is the one of the stream: both are stored there
    have stored₁ := (stored_append.mp (streamArgs_stored stored member)).2
    have stored₂ := (stored_append.mp (streamArgs_stored stored (reached_subset found))).2
    simp only [List.length_append, encodeU16_length] at stored₁ stored₂
    have length : a.payload.length = a'.payload.length := by
      rw [← WireArg.len_toNat, ← WireArg.len_toNat, len]
    have payload := stored_unique stored₁ stored₂ length
    have kinds : a'.kind = a.kind := by rw [WireArg.kind, WireArg.kind, type]
    have equal : a' = a := by
      cases a
      cases a'
      simp only [WireArg.mk.injEq]
      exact ⟨type.symm, payload.symm⟩
    subst equal
    exact (datum_iff_repeats p flag a').mpr (repeats _ _ found decoded)

/-- The value printed for an argument is the one in its payload exactly when the wire
happens to repeat those bytes four further on: the union is read four bytes too far. -/
theorem payload_decoding_iff (sysctl : ∀ pid, (p.sysctl pid).isSome = true)
    (records : List Record) (fits : ∀ r ∈ records, r.Fits) (buf : Memory) (s : Monitor) :
    let mem := overlay (encodeStream records) buf
    (∀ kea a, (kea, a) ∈ streamArgs 0 records → a.PayloadFits → a.kind.Decoded →
      fetch mem (kea + 4) a.kind = a.datum) ∧
    (DecodesOwnPayload (eventLoop p mem (streamSize records) 0 s) records ↔
      ∀ kea a, (kea, a) ∈ streamArgs 0 (reached records) → a.kind.Decoded → Repeats mem kea a) := by
  have stored := stored_overlay (encodeStream records) buf
  refine ⟨?_, ?_⟩
  · intro kea a member payload decoded
    exact fetch_payload payload decoded (streamArgs_stored stored member)
  · rw [eventLoop_stream stored fits]
    exact decodes_iff_repeats sysctl stored s

theorem payload_decoding_iff_sample :
    DecodesOwnPayload (eventLoop samplePlatform
        (overlay (encodeStream [.event sampleEvent]) (fun _ => 0)) 25 0 Monitor.initial)
      [.event sampleEvent] ↔
    ∀ kea a, (kea, a) ∈ streamArgs 0 (reached [.event sampleEvent]) → a.kind.Decoded →
      Repeats (overlay (encodeStream [.event sampleEvent]) (fun _ => 0)) kea a :=
  (payload_decoding_iff (p := samplePlatform) (fun _ => rfl) [.event sampleEvent]
    (by decide) (fun _ => 0) Monitor.initial).2

/-- The number 7 of the sample event is read from the terminator and what follows it. -/
theorem payload_shifted : ¬ DecodesOwnPayload (eventLoop samplePlatform
    (overlay (encodeStream [.event sampleEvent]) (fun _ => 0)) 25 0 Monitor.initial)
    [.event sampleEvent] := by
  intro decodes
  have stored := stored_overlay (encodeStream [.event sampleEvent]) (fun _ => 0)
  have run := eventLoop_stream (p := samplePlatform) stored (by decide) Monitor.initial
  rw [show 25 = streamSize [.event sampleEvent] from rfl, run,
    decodes_iff_repeats (fun _ => rfl) stored] at decodes
  have reaches : reached [.event sampleEvent] = [.event sampleEvent] := rfl
  rw [reaches] at decodes
  have repeats := decodes 15 ⟨fseArgInt32, [7, 0, 0, 0], by decide, by decide⟩
    (List.mem_cons_of_mem _ List.mem_cons_self) trivial
  have first : overlay (encodeStream [.event sampleEvent]) (fun _ => 0) 23 = 7 :=
    repeats 0 (show 0 < 4 by decide)
  exact absurd first (by decide)

end MonitoringDemos.FSEvents
