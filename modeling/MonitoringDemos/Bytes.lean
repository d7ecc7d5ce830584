import Mathlib

/-! Byte-addressed memory, little-endian fields and C strings. A memory is total:
an address nobody wrote holds an arbitrary byte, so a read outside an array has a
value and no trap. All extents are explicit and no word size is fixed. -/
namespace MonitoringDemos.Bytes

abbrev Memory := Nat → UInt8

/-- A byte list seen as a memory that starts at address 0. -/
def ofList (bytes : List UInt8) : Memory := fun k => bytes.getD k 0

/-- The memory after `bytes` has been written over its beginning. -/
def overlay (bytes : List UInt8) (mem : Memory) : Memory := fun k => bytes.getD k (mem k)

def Stored (mem : Memory) : Nat → List UInt8 → Prop
  | _, [] => True
  | addr, byte :: rest => mem addr = byte ∧ Stored mem (addr + 1) rest

theorem stored_append : Stored mem addr (first ++ second) ↔
    Stored mem addr first ∧ Stored mem (addr + first.length) second := by
  induction first generalizing addr with
  | nil => simp [Stored]
  | cons byte rest ih =>
    simp only [List.cons_append, Stored, ih, List.length_cons, and_assoc]
    rw [show addr + 1 + rest.length = addr + (rest.length + 1) by omega]

theorem stored_getD (stored : Stored mem addr bytes) (inside : k < bytes.length) (d : UInt8) :
    mem (addr + k) = bytes.getD k d := by
  induction bytes generalizing addr k with
  | nil => simp at inside
  | cons byte rest ih =>
    cases k with
    | zero => simpa using stored.1
    | succ k =>
      have tail := ih stored.2 (k := k) (by simpa using inside)
      rw [show addr + (k + 1) = addr + 1 + k by omega, tail]
      simp

theorem stored_unique (first : Stored mem addr bytes) (second : Stored mem addr bytes')
    (length : bytes.length = bytes'.length) : bytes = bytes' := by
  induction bytes generalizing addr bytes' with
  | nil => exact (List.length_eq_zero_iff.mp length.symm).symm
  | cons byte rest ih =>
    cases bytes' with
    | nil => simp at length
    | cons byte' rest' =>
      rw [← first.1, second.1, ih first.2 second.2 (by simpa using length)]

theorem stored_shift (same : ∀ k < bytes.length, mem (addr + k) = bytes.getD k 0) :
    Stored mem addr bytes := by
  induction bytes generalizing addr with
  | nil => trivial
  | cons byte rest ih =>
    refine ⟨by simpa using same 0 (by simp), ih ?_⟩
    intro k inside
    have next := same (k + 1) (by simpa using inside)
    rw [show addr + 1 + k = addr + (k + 1) by omega, next]
    simp

theorem overlay_inside (inside : k < bytes.length) (mem : Memory) (d : UInt8) :
    overlay bytes mem k = bytes.getD k d := by
  simp [overlay, List.getD_eq_getElem?_getD, List.getElem?_eq_getElem inside]

theorem overlay_outside (outside : bytes.length ≤ k) (mem : Memory) :
    overlay bytes mem k = mem k := by
  simp [overlay, List.getD_eq_getElem?_getD, List.getElem?_eq_none outside]

theorem stored_overlay (bytes : List UInt8) (mem : Memory) :
    Stored (overlay bytes mem) 0 bytes := by
  apply stored_shift
  intro k inside
  rw [Nat.zero_add, overlay_inside inside mem 0]

/-! ### Little-endian fields -/

def readLE (mem : Memory) (addr : Nat) : Nat → Nat
  | 0 => 0
  | width + 1 => (mem addr).toNat + 256 * readLE mem (addr + 1) width

def encodeLE : (width value : Nat) → List UInt8
  | 0, _ => []
  | width + 1, value => UInt8.ofNat value :: encodeLE width (value / 256)

@[simp] theorem encodeLE_length (width value : Nat) : (encodeLE width value).length = width := by
  induction width generalizing value with
  | zero => rfl
  | succ width ih => simp [encodeLE, ih]

theorem readLE_stored (stored : Stored mem addr (encodeLE width value)) :
    readLE mem addr width = value % 256 ^ width := by
  induction width generalizing addr value with
  | zero => simp [readLE, Nat.mod_one]
  | succ width ih =>
    obtain ⟨head, tail⟩ := stored
    rw [readLE, head, ih tail, Nat.pow_succ', Nat.mod_mul]
    simp

theorem readLE_lt (mem : Memory) (addr width : Nat) : readLE mem addr width < 256 ^ width := by
  induction width generalizing addr with
  | zero => simp [readLE]
  | succ width ih =>
    have low := (mem addr).toNat_lt
    have high := ih (addr + 1)
    rw [readLE, Nat.pow_succ']
    omega

/-- A field is determined by its bytes and determines them. -/
theorem readLE_eq_iff (mem mem' : Memory) (addr addr' width : Nat) :
    readLE mem addr width = readLE mem' addr' width ↔
      ∀ k < width, mem (addr + k) = mem' (addr' + k) := by
  induction width generalizing addr addr' with
  | zero => simp [readLE]
  | succ width ih =>
    have low := (mem addr).toNat_lt
    have low' := (mem' addr').toNat_lt
    simp only [readLE]
    constructor
    · intro same k inside
      have heads : (mem addr).toNat = (mem' addr').toNat := by omega
      have tails := (ih (addr + 1) (addr' + 1)).mp (by omega)
      cases k with
      | zero => exact UInt8.toNat_inj.mp heads
      | succ k =>
        have tail := tails k (by omega)
        rwa [show addr + 1 + k = addr + (k + 1) by omega,
          show addr' + 1 + k = addr' + (k + 1) by omega] at tail
    · intro same
      have heads : mem addr = mem' addr' := same 0 (by omega)
      have tails := (ih (addr + 1) (addr' + 1)).mpr (by
        intro k inside
        have tail := same (k + 1) (by omega)
        rwa [show addr + (k + 1) = addr + 1 + k by omega,
          show addr' + (k + 1) = addr' + 1 + k by omega] at tail)
      rw [heads, tails]

def readU16 (mem : Memory) (addr : Nat) : UInt16 := UInt16.ofNat (readLE mem addr 2)
def readU32 (mem : Memory) (addr : Nat) : UInt32 := UInt32.ofNat (readLE mem addr 4)
def readI32 (mem : Memory) (addr : Nat) : Int32 := (readU32 mem addr).toInt32
def readU64 (mem : Memory) (addr : Nat) : UInt64 := UInt64.ofNat (readLE mem addr 8)
def readI64 (mem : Memory) (addr : Nat) : Int64 := (readU64 mem addr).toInt64

def encodeU16 (value : UInt16) : List UInt8 := encodeLE 2 value.toNat
def encodeI32 (value : Int32) : List UInt8 := encodeLE 4 value.toUInt32.toNat

@[simp] theorem encodeU16_length (value : UInt16) : (encodeU16 value).length = 2 :=
  encodeLE_length _ _

@[simp] theorem encodeI32_length (value : Int32) : (encodeI32 value).length = 4 :=
  encodeLE_length _ _

theorem readU16_stored (stored : Stored mem addr (encodeU16 value)) : readU16 mem addr = value := by
  have field := readLE_stored stored
  have bound := value.toNat_lt
  rw [readU16, field, Nat.mod_eq_of_lt (by simpa using bound)]
  simp

theorem readI32_stored (stored : Stored mem addr (encodeI32 value)) : readI32 mem addr = value := by
  have field := readLE_stored stored
  have bound := value.toUInt32.toNat_lt
  rw [readI32, readU32, field, Nat.mod_eq_of_lt (by simpa using bound)]
  simp

theorem readU32_eq_iff (mem mem' : Memory) (addr addr' : Nat) :
    readU32 mem addr = readU32 mem' addr' ↔ ∀ k < 4, mem (addr + k) = mem' (addr' + k) := by
  rw [← readLE_eq_iff, ← UInt32.toNat_inj]
  have bound := readLE_lt mem addr 4
  have bound' := readLE_lt mem' addr' 4
  simp only [readU32, UInt32.toNat_ofNat']
  omega

theorem readI32_eq_iff (mem mem' : Memory) (addr addr' : Nat) :
    readI32 mem addr = readI32 mem' addr' ↔ ∀ k < 4, mem (addr + k) = mem' (addr' + k) := by
  rw [← readU32_eq_iff]
  exact ⟨fun same => by simpa [readI32] using congrArg Int32.toUInt32 same,
    fun same => congrArg UInt32.toInt32 same⟩

theorem readU64_eq_iff (mem mem' : Memory) (addr addr' : Nat) :
    readU64 mem addr = readU64 mem' addr' ↔ ∀ k < 8, mem (addr + k) = mem' (addr' + k) := by
  rw [← readLE_eq_iff, ← UInt64.toNat_inj]
  have bound := readLE_lt mem addr 8
  have bound' := readLE_lt mem' addr' 8
  simp only [readU64, UInt64.toNat_ofNat']
  omega

theorem readI64_eq_iff (mem mem' : Memory) (addr addr' : Nat) :
    readI64 mem addr = readI64 mem' addr' ↔ ∀ k < 8, mem (addr + k) = mem' (addr' + k) := by
  rw [← readU64_eq_iff]
  exact ⟨fun same => by simpa [readI64] using congrArg Int64.toUInt64 same,
    fun same => congrArg UInt64.toInt64 same⟩

/-! ### C strings -/

/-- A C string as the function giving its characters: `none` from the terminator on. -/
abbrev CString := Nat → Option UInt8

def cstring (mem : Memory) (addr : Nat) : CString := fun k =>
  if ∀ j ≤ k, mem (addr + j) ≠ 0 then some (mem (addr + k)) else none

/-- The text ends where a zero byte is found. -/
theorem cstring_none_iff (mem : Memory) (addr k : Nat) :
    cstring mem addr k = none ↔ ∃ j ≤ k, mem (addr + j) = 0 := by
  rw [cstring]
  split
  case isTrue reached => exact ⟨nofun, fun ⟨j, le, zero⟩ => absurd zero (reached j le)⟩
  case isFalse short =>
    simp only [not_forall, ne_eq, not_not] at short
    obtain ⟨j, le, zero⟩ := short
    exact ⟨fun _ => ⟨j, le, zero⟩, fun _ => rfl⟩

/-- What a reader of equal texts meets, character by character. -/
theorem chars_of_cstring_eq (same : cstring mem addr = cstring mem' addr') (k : Nat)
    (before : ∀ j < k, mem' (addr' + j) ≠ 0) : mem (addr + k) = mem' (addr' + k) := by
  induction k using Nat.strongRecOn with
  | ind k ih =>
    have earlier : ∀ j < k, mem (addr + j) = mem' (addr' + j) :=
      fun j lt => ih j lt fun i less => before i (Nat.lt_trans less lt)
    have char := congrFun same k
    by_cases stop : mem' (addr' + k) = 0
    · have ended := (cstring_none_iff mem' addr' k).mpr ⟨k, Nat.le_refl k, stop⟩
      obtain ⟨j, le, zero⟩ := (cstring_none_iff mem addr k).mp (char.trans ended)
      have last : j = k := by
        by_contra different
        have lt : j < k := by omega
        exact before j lt ((earlier j lt) ▸ zero)
      rw [stop, ← last, zero]
    · have all : ∀ j ≤ k, mem' (addr' + j) ≠ 0 := by
        intro j le
        rcases Nat.lt_or_eq_of_le le with lt | rfl
        · exact before j lt
        · exact stop
      rw [cstring, cstring, if_pos all] at char
      split at char
      · exact Option.some.inj char
      · contradiction

/-- The characters up to a position agree when one of the texts reaches it. -/
theorem chars_agree {mem mem' : Memory}
    (same : ∀ k, (∀ j < k, mem' (addr' + j) ≠ 0) → mem (addr + k) = mem' (addr' + k))
    (either : (∀ j ≤ k, mem' (addr' + j) ≠ 0) ∨ ∀ j ≤ k, mem (addr + j) ≠ 0) (j : Nat)
    (le : j ≤ k) : mem (addr + j) = mem' (addr' + j) := by
  induction j using Nat.strongRecOn with
  | ind j ih =>
    apply same
    intro i lt
    have inside : i ≤ k := Nat.le_trans (Nat.le_of_lt lt) le
    rcases either with all | all
    · exact all i inside
    · rw [← ih i lt inside]
      exact all i inside

/-- Two C strings are equal when the characters and the terminator that a reader
of the second one meets are found at the first one too. -/
theorem cstring_eq_iff (mem mem' : Memory) (addr addr' : Nat) :
    cstring mem addr = cstring mem' addr' ↔
      ∀ k, (∀ j < k, mem' (addr' + j) ≠ 0) → mem (addr + k) = mem' (addr' + k) := by
  constructor
  · exact chars_of_cstring_eq
  · intro same
    funext k
    by_cases all : ∀ j ≤ k, mem' (addr' + j) ≠ 0
    · have equal := chars_agree same (Or.inl all)
      have reached : ∀ j ≤ k, mem (addr + j) ≠ 0 := fun j le => equal j le ▸ all j le
      rw [cstring, cstring, if_pos all, if_pos reached, equal k (Nat.le_refl k)]
    · have ended : ¬ ∀ j ≤ k, mem (addr + j) ≠ 0 := by
        intro reached
        have equal := chars_agree same (Or.inr reached)
        exact all fun j le => equal j le ▸ reached j le
      rw [cstring, cstring, if_neg all, if_neg ended]

end MonitoringDemos.Bytes
