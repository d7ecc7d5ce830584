import MonitoringDemos.FSEvents.Payload

/-! Which buffers the event loop reads without leaving what `read` returned. The
guards test only that the cursor itself is below `rc`; `Contained` says when that
suffices, as a grammar over the bytes of the buffer. -/
namespace MonitoringDemos.FSEvents
open Bytes

/-- A cursor stands before an event, or before an argument in some turn of the inner loop. -/
inductive Phase where
  | event
  | arg (turn : Nat)

/-- From the cursor on, each header and field that the loops read there is complete. -/
inductive Contained (mem : Memory) (rc : Nat) : Phase → Nat → Prop where
  | ended : rc ≤ off → Contained mem rc phase off
  | dropped : off + 8 ≤ rc → readI32 mem off = fseEventsDropped →
      Contained mem rc .event (off + 10) → Contained mem rc .event off
  /-- The type has a name: both header fields are read. -/
  | named : off + 8 ≤ rc → readI32 mem off ≠ fseEventsDropped →
      (kfseNames.lookup (readI32 mem off).toUInt32).isSome = true →
      Contained mem rc (.arg 0) (off + 8) → Contained mem rc .event off
  /-- The type is out of the guarded range: the pid is not read. -/
  | unnamed : off + 4 ≤ rc → readI32 mem off ≠ fseEventsDropped → ¬ InGuard (readI32 mem off) →
      Contained mem rc (.arg 0) (off + 8) → Contained mem rc .event off
  /-- The look-up of the name throws: nothing is read any more. -/
  | thrown : off + 4 ≤ rc → InGuard (readI32 mem off) →
      kfseNames.lookup (readI32 mem off).toUInt32 = none → Contained mem rc .event off
  | done : i ≤ fseMaxArgs → off + 2 ≤ rc → readU16 mem off = fseArgDone →
      Contained mem rc .event (off + 2) → Contained mem rc (.arg i) off
  | arg : i ≤ fseMaxArgs → off + 4 ≤ rc → readU16 mem off ≠ fseArgDone →
      ((ArgKind.ofType (readU16 mem off)).width = 0 ∨
        off + 8 + (ArgKind.ofType (readU16 mem off)).width ≤ rc) →
      Contained mem rc (.arg (i + 1)) (off + (4 + (readU16 mem (off + 2)).toNat)) →
      Contained mem rc (.arg i) off
  | capped : fseMaxArgs < i → Contained mem rc .event off → Contained mem rc (.arg i) off

variable {p : Platform} {mem : Memory} {rc off kea i : Nat}

def Inside (rc : Nat) (reads : List Span) : Prop := ∀ span ∈ reads, span.start + span.size ≤ rc

@[simp] theorem inside_nil (rc : Nat) : Inside rc [] := by simp [Inside]

@[simp] theorem inside_cons : Inside rc (span :: reads) ↔
    span.start + span.size ≤ rc ∧ Inside rc reads := by simp [Inside]

@[simp] theorem inside_append : Inside rc (first ++ second) ↔
    Inside rc first ∧ Inside rc second := by
  simp only [Inside, List.mem_append, or_imp, forall_and]

theorem inside_reads (kind : ArgKind) (data : Nat) :
    Inside rc (kind.reads data) ↔ kind.width = 0 ∨ data + kind.width ≤ rc := by
  by_cases none : kind.width = 0 <;> simp [ArgKind.reads, none]

/-- Two adjacent fields are inside when the second one is. -/
theorem inside_pair (start first second : Nat) :
    Inside rc [⟨start, first⟩, ⟨start + first, second⟩] ↔ start + (first + second) ≤ rc := by
  simp only [inside_cons, inside_nil, and_true]
  omega

/-! ### Inversion: what containment asks for at a cursor inside the buffer -/

theorem contained_dropped (inside : off < rc) (type : readI32 mem off = fseEventsDropped) :
    Contained mem rc .event off ↔ off + 8 ≤ rc ∧ Contained mem rc .event (off + 10) := by
  constructor
  · intro contained
    cases contained with
    | ended outside => omega
    | dropped room _ rest => exact ⟨room, rest⟩
    | named _ other => exact absurd type other
    | unnamed _ other => exact absurd type other
    | thrown _ guarded => rw [type] at guarded; exact absurd guarded (by decide)
  · rintro ⟨room, rest⟩
    exact .dropped room type rest

theorem contained_named (inside : off < rc)
    (known : (kfseNames.lookup (readI32 mem off).toUInt32).isSome = true) :
    Contained mem rc .event off ↔ off + 8 ≤ rc ∧ Contained mem rc (.arg 0) (off + 8) := by
  have other : readI32 mem off ≠ fseEventsDropped := by
    intro type
    rw [type] at known
    exact absurd known (by decide)
  constructor
  · intro contained
    cases contained with
    | ended outside => omega
    | dropped _ type _ => exact absurd type other
    | named room _ _ rest => exact ⟨room, rest⟩
    | unnamed _ _ outside _ => exact absurd (known_inGuard known) outside
    | thrown _ _ missing => rw [missing] at known; contradiction
  · rintro ⟨room, rest⟩
    exact .named room other known rest

theorem contained_unnamed (inside : off < rc) (other : readI32 mem off ≠ fseEventsDropped)
    (unguarded : ¬ InGuard (readI32 mem off)) :
    Contained mem rc .event off ↔ off + 4 ≤ rc ∧ Contained mem rc (.arg 0) (off + 8) := by
  constructor
  · intro contained
    cases contained with
    | ended outside => omega
    | dropped _ type _ => exact absurd type other
    | named _ _ known _ => exact absurd (known_inGuard known) unguarded
    | unnamed room _ _ rest => exact ⟨room, rest⟩
    | thrown _ guarded => exact absurd guarded unguarded
  · rintro ⟨room, rest⟩
    exact .unnamed room other unguarded rest

theorem contained_thrown (inside : off < rc) (guarded : InGuard (readI32 mem off))
    (missing : kfseNames.lookup (readI32 mem off).toUInt32 = none) :
    Contained mem rc .event off ↔ off + 4 ≤ rc := by
  constructor
  · intro contained
    cases contained with
    | ended outside => omega
    | dropped room => omega
    | named _ _ known => rw [missing] at known; contradiction
    | unnamed room => exact room
    | thrown room => exact room
  · exact fun room => .thrown room guarded missing

theorem contained_done (inside : kea < rc) (turn : i ≤ fseMaxArgs)
    (type : readU16 mem kea = fseArgDone) :
    Contained mem rc (.arg i) kea ↔ kea + 2 ≤ rc ∧ Contained mem rc .event (kea + 2) := by
  constructor
  · intro contained
    cases contained with
    | ended outside => omega
    | done _ room _ rest => exact ⟨room, rest⟩
    | arg _ _ other => exact absurd type other
    | capped excess => omega
  · rintro ⟨room, rest⟩
    exact .done turn room type rest

theorem contained_arg (inside : kea < rc) (turn : i ≤ fseMaxArgs)
    (type : readU16 mem kea ≠ fseArgDone) :
    Contained mem rc (.arg i) kea ↔ (kea + 4 ≤ rc ∧
        ((ArgKind.ofType (readU16 mem kea)).width = 0 ∨
          kea + 8 + (ArgKind.ofType (readU16 mem kea)).width ≤ rc)) ∧
      Contained mem rc (.arg (i + 1)) (kea + (4 + (readU16 mem (kea + 2)).toNat)) := by
  constructor
  · intro contained
    cases contained with
    | ended outside => omega
    | done _ _ done => exact absurd done type
    | arg _ room _ data rest => exact ⟨⟨room, data⟩, rest⟩
    | capped excess => omega
  · rintro ⟨⟨room, data⟩, rest⟩
    exact .arg turn room type data rest

theorem contained_capped (excess : fseMaxArgs < i) :
    Contained mem rc (.arg i) kea ↔ Contained mem rc .event kea := by
  constructor
  · intro contained
    cases contained with
    | ended outside => exact .ended outside
    | done turn => omega
    | arg turn => omega
    | capped _ rest => exact rest
  · exact .capped excess

/-! ### The loops -/

theorem argLoop_turn (inside : kea < rc) (turn : i ≤ fseMaxArgs)
    (type : readU16 mem kea ≠ fseArgDone) (s : Monitor) :
    ∃ visit s', argLoop p mem rc i kea kea s =
      (argLoop p mem rc (i + 1) (kea + (4 + (readU16 mem (kea + 2)).toNat))
        (kea + (4 + (readU16 mem (kea + 2)).toNat)) s').after [visit]
        ([⟨kea, 2⟩, ⟨kea + 2, 2⟩] ++ (ArgKind.ofType (readU16 mem kea)).reads (kea + 8)) := by
  obtain ⟨name, found⟩ := argName_found (readU16 mem kea)
  let kind := ArgKind.ofType (readU16 mem kea)
  let processed := processArg p mem (kea + 8) s.isFseArgVnode kind
  refine ⟨.arg kea (readU16 mem kea) (readU16 mem (kea + 2)) name processed.1,
    { s with isFseArgVnode := processed.2 }, ?_⟩
  rw [argLoop, if_pos ⟨inside, turn⟩]
  simp only [sizeofType, sizeofLen, offsetofData_eq, if_neg type, found]
  rfl

theorem argLoop_finished (p : Platform) (mem : Memory) (rc i off kea : Nat) (s : Monitor) :
    (argLoop p mem rc i off kea s).ending = .finished := by
  fun_induction argLoop with
  | case1 => rfl
  | case2 i off kea s _ type _ len header eoff missing =>
    obtain ⟨name, found⟩ := argName_found type
    rw [missing] at found
    contradiction
  | case3 i off kea s _ type _ len header eoff name _ kind line isFseArgVnode _ ih => exact ih
  | case4 => rfl

/-- Containment of a run of arguments, given the same of the events behind it. -/
theorem argLoop_inside
    (events : ∀ start, kea ≤ start → ∀ s,
      Inside rc (eventLoop p mem rc start s).reads ↔ Contained mem rc .event start)
    (i : Nat) (s : Monitor) :
    Inside rc ((argLoop p mem rc i kea kea s).andThen (eventLoop p mem rc)).reads ↔
      Contained mem rc (.arg i) kea := by
  -- on the turns that the cap leaves
  induction turns : fseMaxArgs + 1 - i generalizing kea i s with
  | zero =>
    rw [argLoop_stop (Or.inr (by omega)), Scan.andThen_finished rfl, Scan.after_nil,
      contained_capped (by omega)]
    exact events kea (Nat.le_refl kea) s
  | succ turns ih =>
    have turn : i ≤ fseMaxArgs := by omega
    by_cases inside : kea < rc
    · by_cases type : readU16 mem kea = fseArgDone
      · have done : argLoop p mem rc i kea kea s = doneScan kea s := by
          rw [argLoop, if_pos ⟨inside, turn⟩]
          simp only [type, if_true]
          rfl
        rw [contained_done inside turn type, done, Scan.andThen_finished rfl]
        simp only [Scan.after, doneScan, inside_append, inside_cons, inside_nil, and_true]
        rw [events (kea + 2) (by omega)]
      · obtain ⟨visit, s', step⟩ := argLoop_turn (p := p) inside turn type s
        have later : ∀ start, kea + (4 + (readU16 mem (kea + 2)).toNat) ≤ start → ∀ s,
            Inside rc (eventLoop p mem rc start s).reads ↔ Contained mem rc .event start :=
          fun start le => events start (by omega)
        have tail := ih later (i + 1) s' (by omega)
        have finished := argLoop_finished p mem rc i kea kea s
        rw [Scan.andThen_finished (argLoop_finished ..)] at tail
        rw [contained_arg inside turn type, ← tail, Scan.andThen_finished finished, step]
        simp only [Scan.after, inside_append, inside_pair, inside_reads, and_assoc]
    · have outside : rc ≤ kea := by omega
      rw [argLoop_stop (Or.inl outside), Scan.andThen_finished rfl, Scan.after_nil,
        eventLoop_end outside]
      exact ⟨fun _ => .ended outside, fun _ => inside_nil rc⟩

theorem eventLoop_inside (sysctl : ∀ pid, (p.sysctl pid).isSome = true) (off : Nat) (s : Monitor) :
    Inside rc (eventLoop p mem rc off s).reads ↔ Contained mem rc .event off := by
  induction room : rc - off using Nat.strongRecOn generalizing off s with
  | ind room ih =>
    by_cases inside : off < rc
    · have events : ∀ start, off + 8 ≤ start → ∀ s,
          Inside rc (eventLoop p mem rc start s).reads ↔ Contained mem rc .event start :=
        fun start le s => ih (rc - start) (by omega) start s rfl
      rw [eventLoop_eq inside]
      by_cases type : readI32 mem off = fseEventsDropped
      · rw [if_pos type, contained_dropped inside type, Scan.andThen_finished rfl]
        simp only [Scan.after, inside_append, inside_pair, events (off + 10) (by omega)]
      · rw [if_neg type]
        by_cases known : (kfseNames.lookup (readI32 mem off).toUInt32).isSome = true
        · obtain ⟨name, procName, cache, described⟩ :=
            describe_known sysctl known off (readI32 mem (off + 4)) s
          rw [contained_named inside known, described, Scan.andThen_finished rfl]
          simp only [Scan.after, inside_append, inside_pair, argLoop_inside events]
        · by_cases guarded : InGuard (readI32 mem off)
          · have missing := Option.not_isSome_iff_eq_none.mp known
            rw [contained_thrown inside guarded missing]
            simp only [describe, if_pos guarded, missing]
            rw [Scan.andThen_stopped (by simp)]
            simp only [sizeofEventType, inside_cons, inside_nil, and_true]
          · rw [contained_unnamed inside type guarded]
            simp only [describe, if_neg guarded]
            rw [Scan.andThen_finished rfl]
            simp only [Scan.after, inside_append, inside_cons, inside_nil, and_true,
              sizeofEventType, sizeofPid, argLoop_inside events]
    · rw [eventLoop_end (by omega)]
      exact ⟨fun _ => .ended (by omega), fun _ => inside_nil rc⟩

/-- The loop stays within what `read` returned exactly on the buffers that `Contained`
describes, whatever lies behind `rc` and whatever the monitor did before. -/
theorem reads_inside_iff (sysctl : ∀ pid, (p.sysctl pid).isSome = true) (mem : Memory) (rc : Nat)
    (s : Monitor) :
    (∀ span ∈ (eventLoop p mem rc 0 s).reads, span.start + span.size ≤ rc) ↔
      Contained mem rc .event 0 :=
  eventLoop_inside sysctl 0 s

theorem reads_inside_iff_sample :
    (∀ span ∈ (eventLoop samplePlatform (overlay sampleEvent.encode fun _ => 0) 25 0
      Monitor.initial).reads, span.start + span.size ≤ 25) ↔
    Contained (overlay sampleEvent.encode fun _ => 0) 25 .event 0 :=
  reads_inside_iff (p := samplePlatform) (fun _ => rfl) _ 25 Monitor.initial

/-- The number at the end of the sample event is read over its end. -/
theorem sample_reads_behind : ¬ ∀ span ∈
    (eventLoop samplePlatform (overlay (encodeStream [.event sampleEvent]) fun _ => 0) 25 0
      Monitor.initial).reads, span.start + span.size ≤ 25 := by
  intro inside
  have run := eventLoop_stream (p := samplePlatform)
    (stored_overlay (encodeStream [.event sampleEvent]) fun _ => 0) (by decide) Monitor.initial
  rw [show 25 = streamSize [.event sampleEvent] from rfl, run] at inside
  have last : (⟨23, 4⟩ : Span) ∈ (streamScan samplePlatform
      (overlay (encodeStream [.event sampleEvent]) fun _ => 0) 0 Monitor.initial
      [.event sampleEvent]).reads := by
    rw [List.mem_iff_getElem]
    exact ⟨6, by decide, rfl⟩
  exact absurd (inside ⟨23, 4⟩ last) (by decide)

/-! ### The cursor -/

theorem argLoop_off_bound (p : Platform) (mem : Memory) (rc i off kea : Nat) (s : Monitor)
    (start : off < rc + 65539) : (argLoop p mem rc i off kea s).off < rc + 65539 := by
  fun_induction argLoop with
  | case1 off kea s guard => simp only [sizeofType]; omega
  | case2 i off kea s guard type _ len header eoff =>
    have stride : len.toNat < 65536 := len.toNat_lt
    simp only [eoff, sizeofType, sizeofLen]
    omega
  | case3 i off kea s guard type _ len header eoff name _ kind line isFseArgVnode _ ih =>
    have stride : len.toNat < 65536 := len.toNat_lt
    simp only [eoff, sizeofType, sizeofLen] at ih
    exact ih (by omega)
  | case4 => exact start

/-- The cursor stays below 2^31 on any buffer of `BUFSIZE` bytes, so the C `int` that
holds it never overflows. -/
theorem eventLoop_off_bound (p : Platform) (mem : Memory) (rc off : Nat) (s : Monitor)
    (start : off < rc + 65539) : (eventLoop p mem rc off s).off < rc + 65539 := by
  induction room : rc - off using Nat.strongRecOn generalizing off s with
  | ind room ih =>
    by_cases inside : off < rc
    · rw [eventLoop_eq inside]
      split
      · rw [Scan.andThen_finished rfl]
        exact ih (rc - (off + 10)) (by omega) (off + 10) s (by omega) rfl
      · have header := describe_off p off (readI32 mem off) (readI32 mem (off + 4)) s
        generalize describe p off (readI32 mem off) (readI32 mem (off + 4)) s = head at header
        by_cases described : head.ending = .finished
        · have advanced := argLoop_off_le p mem rc 0 head.off (off + 8) head.state
          have bounded := argLoop_off_bound p mem rc 0 head.off (off + 8) head.state (by omega)
          rw [Scan.andThen_finished described, Scan.andThen_finished (argLoop_finished ..)]
          exact ih _ (by omega) _ _ bounded rfl
        · rw [Scan.andThen_stopped described]
          omega
    · rw [eventLoop_end (by omega)]
      exact start

/-! ### Well-formed streams -/

theorem argsScan_inside (s : Monitor) {args : List WireArg} (room : kea + argsSize args ≤ rc) :
    Inside rc (argsScan p mem kea s args).reads ↔
      ∀ place ∈ argOffsets kea args,
        place.2.kind.width = 0 ∨ place.1 + 8 + place.2.kind.width ≤ rc := by
  induction args generalizing kea s with
  | nil => simp [argsScan, argOffsets]
  | cons a rest ih =>
    rw [argsSize_cons] at room
    have header : kea + (2 + 2) ≤ rc := by
      simp only [WireArg.size] at room
      omega
    have behind : kea + a.size + argsSize rest ≤ rc := by omega
    rw [argsScan, Scan.andThen_finished rfl]
    simp only [Scan.after, argScan_off, inside_append, ih _ behind]
    simp only [argScan, inside_append, inside_pair, inside_reads, header, true_and, argOffsets,
      List.forall_mem_cons]

/-- On a complete stream only the misplaced scalars can be read behind its end. -/
theorem streamScan_inside (sysctl : ∀ pid, (p.sysctl pid).isSome = true) {records : List Record}
    (known : ∀ r ∈ records, r.Known) (s : Monitor) (room : off + streamSize records ≤ rc) :
    Inside rc (streamScan p mem off s records).reads ↔
      ∀ place ∈ streamArgs off records,
        place.2.kind.width = 0 ∨ place.1 + 8 + place.2.kind.width ≤ rc := by
  induction records generalizing off s with
  | nil => simp [streamScan, streamArgs]
  | cons r rest ih =>
    rw [streamSize_cons] at room
    obtain ⟨finished, _⟩ := recordScan_known sysctl (known r List.mem_cons_self) mem off s
    have behind : off + r.size + streamSize rest ≤ rc := by omega
    rw [streamScan, Scan.andThen_finished finished, recordScan_off finished]
    simp only [Scan.after, inside_append, streamArgs, List.mem_append, or_imp, forall_and,
      ih (fun r member => known r (List.mem_cons_of_mem _ member)) _ behind]
    refine and_congr_left fun _ => ?_
    cases r with
    | dropped pid =>
      simp only [Record.size] at room
      simp only [recordScan, inside_pair, Record.argOffsets, List.not_mem_nil, false_imp_iff,
        implies_true, iff_true]
      omega
    | event e =>
      obtain ⟨name, procName, cache, described⟩ :=
        describe_known sysctl (known (.event e) List.mem_cons_self) off e.pid s
      simp only [Record.size, WireEvent.size] at room
      have header : off + (4 + 4) ≤ rc := by omega
      have closing : off + 8 + argsSize e.args + 2 ≤ rc := by omega
      obtain ⟨looped, stop⟩ := argsScan_off p mem (off + 8) { s with cache } e.args
      rw [recordScan, described, Scan.andThen_finished rfl, Scan.andThen_finished looped]
      simp only [Scan.after, doneScan, stop]
      rw [inside_append, inside_append, inside_pair, inside_cons,
        argsScan_inside { s with cache } (by omega)]
      simp only [header, closing, inside_nil, true_and, and_true, Record.argOffsets]

end MonitoringDemos.FSEvents
