import MonitoringDemos.FSEvents.Framing

/-! When a name table throws. The argument table covers every 16-bit type, so only
`g_kfseNames.at` can: the guard before it admits three types that have no name. -/
namespace MonitoringDemos.FSEvents
open Bytes

variable {p : Platform} {mem : Memory}

def fseInvalid : Int32 := -1
def fseUnmountPending : Int32 := 13
def fseClone : Int32 := 14

/-- The types in the guarded range that are no keys of `g_kfseNames`. -/
def Nameless (type : Int32) : Prop :=
  type = fseInvalid ∨ type = fseUnmountPending ∨ type = fseClone

instance (type : Int32) : Decidable (Nameless type) := inferInstanceAs (Decidable (_ ∨ _))

theorem nameless_iff (type : Int32) :
    Nameless type ↔ InGuard type ∧ kfseNames.lookup type.toUInt32 = none := by
  constructor
  · rintro (rfl | rfl | rfl) <;> decide
  · rintro ⟨⟨above, below⟩, missing⟩
    have listed : ∀ n : Fin 16, kfseNames.lookup (Int32.ofInt (n.val - 1)).toUInt32 = none →
        Nameless (Int32.ofInt (n.val - 1)) := by decide
    have index : (type.toInt + 1).toNat < 16 := by
      simp only [fseMaxEvents] at above
      omega
    have same : Int32.ofInt (((type.toInt + 1).toNat : Int) - 1) = type := by
      rw [Int.toNat_of_nonneg (by omega), Int.add_sub_cancel, Int32.ofInt_toInt]
    have entry := listed ⟨_, index⟩
    rw [same] at entry
    exact entry missing

def Record.Nameless : Record → Prop
  | .event e => FSEvents.Nameless e.type
  | .dropped _ => False

/-! ### One record -/

/-- The statics of `getProcName` after the `#Event` line of a record; `none` when it has
exited. -/
def Record.lookUp (p : Platform) (cache : ProcCache) : Record → Option ProcCache
  | .event e => if InGuard e.type then (getProcName p e.pid cache).map Prod.snd else some cache
  | .dropped _ => some cache

theorem argsScan_cache (p : Platform) (mem : Memory) (kea : Nat) (s : Monitor)
    (args : List WireArg) : (argsScan p mem kea s args).state.cache = s.cache := by
  induction args generalizing kea s with
  | nil => rfl
  | cons a rest ih =>
    rw [argsScan, Scan.andThen_finished rfl]
    exact ih _ _

theorem recordScan_nameless {r : Record} (nameless : r.Nameless) (off : Nat) (s : Monitor) :
    (recordScan p mem off s r).ending = .outOfRange := by
  cases r with
  | dropped pid => contradiction
  | event e =>
    obtain ⟨guarded, missing⟩ := (nameless_iff e.type).mp nameless
    have thrown : (describe p off e.type e.pid s).ending = .outOfRange := by
      simp only [describe, if_pos guarded, missing]
    have stopped : (describe p off e.type e.pid s).ending ≠ .finished := fun finished => by
      cases thrown.symm.trans finished
    rw [recordScan, Scan.andThen_stopped stopped, thrown]

/-- The `#Event` line of a type with a name, or outside the guarded range. -/
theorem describe_lookUp {e : WireEvent} (named : ¬ Nameless e.type) (off : Nat) (s : Monitor) :
    match Record.lookUp p s.cache (.event e) with
    | none => (describe p off e.type e.pid s).ending = .exited
    | some cache => (describe p off e.type e.pid s).ending = .finished ∧
        (describe p off e.type e.pid s).state.cache = cache := by
  unfold Record.lookUp describe
  by_cases guarded : InGuard e.type
  · have known : kfseNames.lookup e.type.toUInt32 ≠ none :=
      fun missing => named ((nameless_iff e.type).mpr ⟨guarded, missing⟩)
    obtain ⟨name, found⟩ := Option.ne_none_iff_exists'.mp known
    simp only [if_pos guarded, found]
    cases call : getProcName p e.pid s.cache with
    | none => rfl
    | some answer =>
      obtain ⟨procName, cache⟩ := answer
      simp only [Option.map_some, getProcName_again call, and_self]
  · simp only [if_neg guarded, and_self]

theorem recordScan_lookUp (p : Platform) (mem : Memory) {r : Record} (named : ¬ r.Nameless)
    (off : Nat) (s : Monitor) :
    match r.lookUp p s.cache with
    | none => (recordScan p mem off s r).ending = .exited
    | some cache => (recordScan p mem off s r).ending = .finished ∧
        (recordScan p mem off s r).state.cache = cache := by
  cases r with
  | dropped pid => exact ⟨rfl, rfl⟩
  | event e =>
    have line := describe_lookUp (p := p) named off s
    cases call : Record.lookUp p s.cache (.event e) with
    | none =>
      rw [call] at line
      simp only at line ⊢
      have stopped : (describe p off e.type e.pid s).ending ≠ .finished := fun finished => by
        cases line.symm.trans finished
      rw [recordScan, Scan.andThen_stopped stopped, line]
    | some cache =>
      rw [call] at line
      obtain ⟨finished, kept⟩ := line
      obtain ⟨looped, _⟩ := argsScan_off p mem (describe p off e.type e.pid s).off
        (describe p off e.type e.pid s).state e.args
      rw [recordScan, Scan.andThen_finished finished, Scan.andThen_finished looped]
      exact ⟨rfl, (argsScan_cache _ _ _ _ _).trans kept⟩

/-! ### A batch -/

/-- `getProcName` returns for each record. -/
def Answered (p : Platform) : ProcCache → List Record → Prop
  | _, [] => True
  | cache, r :: rest => ∃ cache', r.lookUp p cache = some cache' ∧ Answered p cache' rest

/-- The scan of a batch throws at the first nameless type it gets to. -/
theorem streamScan_throws (records : List Record) (off : Nat) (s : Monitor) :
    (streamScan p mem off s records).ending = .outOfRange ↔
      ∃ before r behind, records = before ++ r :: behind ∧ Answered p s.cache before ∧
        r.Nameless := by
  induction records generalizing off s with
  | nil =>
    constructor
    · intro thrown
      contradiction
    · rintro ⟨before, _, _, split, _⟩
      cases before <;> contradiction
  | cons r rest ih =>
    rw [streamScan]
    by_cases nameless : r.Nameless
    · have thrown : (recordScan p mem off s r).ending = .outOfRange :=
        recordScan_nameless nameless off s
      have stopped : (recordScan p mem off s r).ending ≠ .finished := fun finished => by
        cases thrown.symm.trans finished
      rw [Scan.andThen_stopped stopped, thrown]
      exact ⟨fun _ => ⟨[], r, rest, rfl, trivial, nameless⟩, fun _ => rfl⟩
    · have line := recordScan_lookUp p mem nameless off s
      cases call : r.lookUp p s.cache with
      | none =>
        rw [call] at line
        simp only at line
        have stopped : (recordScan p mem off s r).ending ≠ .finished := fun finished => by
          cases line.symm.trans finished
        rw [Scan.andThen_stopped stopped, line]
        refine ⟨fun thrown => by contradiction, ?_⟩
        rintro ⟨before, r', behind, split, answered, nameless'⟩
        cases before with
        | nil =>
          cases split
          contradiction
        | cons first later =>
          cases split
          obtain ⟨cache, found, _⟩ := answered
          rw [call] at found
          contradiction
      | some cache =>
        rw [call] at line
        obtain ⟨finished, kept⟩ := line
        rw [Scan.andThen_finished finished]
        simp only [Scan.after]
        rw [ih, kept]
        constructor
        · rintro ⟨before, r', behind, rfl, answered, nameless'⟩
          exact ⟨r :: before, r', behind, rfl, ⟨cache, call, answered⟩, nameless'⟩
        · rintro ⟨before, r', behind, split, answered, nameless'⟩
          cases before with
          | nil =>
            cases split
            contradiction
          | cons first later =>
            cases split
            obtain ⟨cache', found, answered⟩ := answered
            cases call.symm.trans found
            exact ⟨later, r', behind, rfl, answered, nameless'⟩

/-- A batch is processed without an exception exactly when none of the events that the
loop gets to is an invalid one, a pending unmount or a clone. -/
theorem names_found_iff (records : List Record) (fits : ∀ r ∈ records, r.Fits) (buf : Memory)
    (s : Monitor) :
    (eventLoop p (overlay (encodeStream records) buf) (encodeStream records).length 0 s).ending ≠
        .outOfRange ↔
      ∀ before e behind, records = before ++ .event e :: behind → Answered p s.cache before →
        e.type ≠ fseInvalid ∧ e.type ≠ fseUnmountPending ∧ e.type ≠ fseClone := by
  have run := eventLoop_stream (p := p) (stored_overlay (encodeStream records) buf) fits s
  rw [encodeStream_length, run, ne_eq, streamScan_throws]
  constructor
  · intro found before e behind split answered
    have named : ¬ Nameless e.type :=
      fun nameless => found ⟨before, .event e, behind, split, answered, nameless⟩
    exact ⟨fun same => named (Or.inl same), fun same => named (Or.inr (Or.inl same)),
      fun same => named (Or.inr (Or.inr same))⟩
  · rintro named ⟨before, r, behind, split, answered, nameless⟩
    cases r with
    | dropped pid => contradiction
    | event e =>
      obtain ⟨invalid, unmount, clone⟩ := named before e behind split answered
      rcases nameless with same | same | same <;> contradiction

theorem names_found_iff_sample :
    (eventLoop samplePlatform (overlay (encodeStream [.event sampleEvent]) fun _ => 0)
      (encodeStream [.event sampleEvent]).length 0 Monitor.initial).ending ≠ .outOfRange := by
  refine (names_found_iff [.event sampleEvent] (by decide) (fun _ => 0) Monitor.initial).mpr ?_
  rintro before e behind split _
  cases before with
  | nil =>
    cases split
    decide
  | cons first later =>
    have short := congrArg List.length split
    simp at short

/-- A file has been cloned. -/
def cloneEvent : WireEvent where
  type := 14
  pid := 42
  args := []
  type_ne := by decide

/-- The clone throws, and the event behind it in the batch is lost. -/
theorem clone_throws :
    (eventLoop samplePlatform
      (overlay (encodeStream [.event cloneEvent, .event sampleEvent]) fun _ => 0)
      (encodeStream [.event cloneEvent, .event sampleEvent]).length 0
      Monitor.initial).ending = .outOfRange := by
  have run := eventLoop_stream (p := samplePlatform)
    (stored_overlay (encodeStream [.event cloneEvent, .event sampleEvent]) fun _ => 0) (by decide)
    Monitor.initial
  rw [encodeStream_length, run, streamScan_throws]
  exact ⟨[], .event cloneEvent, [.event sampleEvent], rfl, trivial, Or.inr (Or.inr rfl)⟩

end MonitoringDemos.FSEvents
