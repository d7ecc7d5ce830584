import MonitoringDemos.Bits

/-! How the tracer decodes a record of the trace buffer, and the event ids of the system
header that the records carry. -/
namespace MonitoringDemos.Kdebug
open Bits

/-! ### Decoding -/

/-- What the loop reads of a `kd_buf`. -/
structure KdBuf where
  timestamp : UInt64
  arg5 : UInt64
  debugid : UInt32
  deriving DecidableEq, Repr

/-- The masks of the system header. `KDBG_CLASS_MASK` does not fit into an `int`, so that
what is masked with it is unsigned. -/
def kdbgClassMask : UInt32 := 0xff000000
def kdbgFuncMask : Int32 := 0x00000003
def dbgFuncStart : Int32 := 1
def dbgFuncEnd : Int32 := 2

def kdbgCpuMask : UInt64 := 0x0f00000000000000
def kdbgCpuShift : UInt64 := 56
def kdbgClassShift : UInt32 := 24

/-- `KDBG_CLASS_NAMES`, of which `main` sets the last entry. -/
def kdbgClassNames : List (Option String) :=
  ([none, some "DBG_MACH", some "DBG_NETWORK", some "DBG_FSYSTEM", some "DBG_BSD",
    some "DBG_IOKIT", some "DBG_DRIVERS", some "DBG_TRACE", some "DBG_DLIL", some "DBG_SECURITY"] ++
    List.replicate 10 none ++ [some "DBG_MISC"] ++ List.replicate 10 none ++
    [some "DBG_DYLD", some "DBG_QT", some "DBG_APPS"] ++ List.replicate 222 none).set 255
      (some "DBG_MIG")

/-- The variables that a turn of the loop prints. -/
structure Decoded where
  now : UInt64
  cpu : UInt64
  class_ : Int32
  type : Int32
  thread : Int32
  qual : String
  deriving DecidableEq, Repr

def decode (kdbgTimestampMask : UInt64) (kd : KdBuf) : Decoded :=
  let debugid := kd.debugid.toInt32
  { now := kd.timestamp &&& kdbgTimestampMask
    cpu := (kd.timestamp &&& kdbgCpuMask) >>> kdbgCpuShift
    class_ := ((debugid.toUInt32 &&& kdbgClassMask) >>> kdbgClassShift).toInt32
    type := debugid &&& kdbgFuncMask
    thread := kd.arg5.toUInt32.toInt32
    qual :=
      if debugid &&& dbgFuncStart ≠ 0 then "DBG_FUNC_START"
      else if debugid &&& dbgFuncEnd ≠ 0 then "DBG_FUNC_END"
      else "" }

/-- What is printed for a class, `none` where it lies outside of the table. -/
def className (class_ : Int32) : Option String :=
  if 0 ≤ class_ then kdbgClassNames[class_.toInt.toNat]?.map (·.getD "") else none

/-! ### Encoding -/

/-- The kind of an event: `KDBG_CODE(class, subclass, code)`. -/
structure EventId where
  class_ : Nat
  subclass : Nat
  code : Nat
  class_lt : class_ < 2 ^ 8
  subclass_lt : subclass < 2 ^ 8
  code_lt : code < 2 ^ 14
  deriving DecidableEq, Repr

def EventId.bits (event : EventId) : Nat :=
  event.class_ <<< 24 ||| (event.subclass <<< 16 ||| event.code <<< 2)

def EventId.id (event : EventId) : UInt32 := UInt32.ofNat event.bits

inductive Qualifier where
  | none | start | end_
  deriving DecidableEq, Repr

def Qualifier.bits : Qualifier → Nat
  | .none => 0
  | .start => 1
  | .end_ => 2

def Qualifier.name : Qualifier → String
  | .none => ""
  | .start => "DBG_FUNC_START"
  | .end_ => "DBG_FUNC_END"

def debugid (event : EventId) (qualifier : Qualifier) : UInt32 :=
  UInt32.ofNat (event.bits ||| qualifier.bits)

theorem qualifier_lt (qualifier : Qualifier) : qualifier.bits < 2 ^ 2 := by
  cases qualifier <;> decide

namespace EventId
variable (event : EventId) (qualifier : Qualifier)

/-- Everything but the class and the qualifier. -/
def low : Nat := event.subclass * 2 ^ 14 + event.code

theorem low_lt : event.low < 2 ^ 22 := by
  have := event.subclass_lt
  have := event.code_lt
  unfold low
  omega

theorem bits_eq : event.bits = event.class_ * 2 ^ 24 + event.low * 2 ^ 2 := by
  have := event.subclass_lt
  have := event.code_lt
  unfold bits low
  rw [Nat.shiftLeft_eq event.code, shiftLeft_or event.subclass (by omega),
    shiftLeft_or event.class_ (by omega)]
  omega

theorem bits_lt : event.bits < 2 ^ 32 := by
  have := event.class_lt
  have := event.low_lt
  rw [bits_eq]
  omega

@[simp] theorem id_toNat : event.id.toNat = event.bits := UInt32.toNat_ofNat_of_lt event.bits_lt

theorem bits_or : event.bits ||| qualifier.bits = event.bits + qualifier.bits := by
  have aligned : event.bits = (event.class_ * 2 ^ 22 + event.low) <<< 2 := by
    rw [bits_eq, Nat.shiftLeft_eq]
    omega
  have joined := shiftLeft_or (event.class_ * 2 ^ 22 + event.low) (qualifier_lt qualifier)
  rw [← aligned, ← Nat.shiftLeft_eq, ← aligned] at joined
  exact joined

@[simp] theorem debugid_toNat :
    (debugid event qualifier).toNat = event.class_ * 2 ^ 24 + event.low * 2 ^ 2 + qualifier.bits := by
  have := event.class_lt
  have := event.low_lt
  have := qualifier_lt qualifier
  unfold debugid
  rw [bits_or, bits_eq]
  apply UInt32.toNat_ofNat_of_lt
  change _ < 2 ^ 32
  omega

end EventId

/-! ### What decoding undoes -/

variable (event : EventId) (qualifier : Qualifier)

theorem masked_class :
    ((debugid event qualifier &&& kdbgClassMask) >>> kdbgClassShift).toNat = event.class_ := by
  have := event.class_lt
  have := event.low_lt
  have := qualifier_lt qualifier
  rw [UInt32.toNat_shiftRight, toNat_and_field _ kdbgClassMask 8 24 (by decide),
    EventId.debugid_toNat]
  change _ >>> 24 = _
  rw [Nat.shiftRight_eq_div_pow]
  omega

theorem masked_type : (debugid event qualifier &&& 0x00000003).toNat = qualifier.bits := by
  have := qualifier_lt qualifier
  rw [toNat_and_field _ 0x00000003 2 0 (by decide), EventId.debugid_toNat]
  omega

/-- With the mask that is commented out the type is the event id. -/
theorem commented_mask : debugid event qualifier &&& 0xfffffffc = event.id := by
  have := event.class_lt
  have := event.low_lt
  have := qualifier_lt qualifier
  apply UInt32.toNat_inj.mp
  rw [toNat_and_field _ 0xfffffffc 30 2 (by decide), EventId.debugid_toNat, EventId.id_toNat,
    EventId.bits_eq]
  omega

/-- A bit of the qualifier is tested in the whole word. -/
theorem masked_bit (mask : UInt32) (i : Nat) (single : mask.toNat = (2 ^ 1 - 1) * 2 ^ i)
    (low : i < 2) : debugid event qualifier &&& mask = 0 ↔ qualifier.bits / 2 ^ i % 2 = 0 := by
  rw [← UInt32.toNat_inj, toNat_and_field _ mask 1 i single, EventId.debugid_toNat]
  have cases : i = 0 ∨ i = 1 := by omega
  rcases cases with rfl | rfl
  · simp
    omega
  · simp
    omega

/-- Decoding gives back what the id of the record was made of. -/
structure Undone (event : EventId) (qualifier : Qualifier) (decoded : Decoded) : Prop where
  class_ : decoded.class_.toInt = event.class_
  named : (className decoded.class_).isSome
  type : decoded.type = event.id.toInt32
  qual : decoded.qual = qualifier.name

theorem className_isSome {class_ : Int32} (inside : 0 ≤ class_.toInt ∧ class_.toInt < 256) :
    (className class_).isSome := by
  have length : kdbgClassNames.length = 256 := by
    simp only [kdbgClassNames, List.length_set, List.length_append, List.length_replicate,
      List.length_cons, List.length_nil]
  have nonneg : 0 ≤ class_ := Int32.le_iff_toInt_le.mpr inside.1
  have inTable : class_.toInt.toNat < kdbgClassNames.length := by omega
  unfold className
  rw [if_pos nonneg, Option.isSome_map, List.getElem?_eq_getElem inTable]
  rfl

section
variable (kdbgTimestampMask timestamp arg5 : UInt64)

theorem decode_class :
    (decode kdbgTimestampMask ⟨timestamp, arg5, debugid event qualifier⟩).class_.toInt =
      event.class_ := by
  have small := event.class_lt
  have masked := masked_class event qualifier
  simp only [decode, UInt32.toUInt32_toInt32]
  rw [toInt_toInt32 (by omega), masked]

theorem decode_qual :
    (decode kdbgTimestampMask ⟨timestamp, arg5, debugid event qualifier⟩).qual =
      qualifier.name := by
  have start : (debugid event qualifier).toInt32 &&& dbgFuncStart = 0 ↔
      qualifier.bits / 2 ^ 0 % 2 = 0 :=
    toInt32_inj.trans (masked_bit event qualifier 1 0 (by decide) (by decide))
  have finish : (debugid event qualifier).toInt32 &&& dbgFuncEnd = 0 ↔
      qualifier.bits / 2 ^ 1 % 2 = 0 :=
    toInt32_inj.trans (masked_bit event qualifier 2 1 (by decide) (by decide))
  simp only [decode, ne_eq, start, finish]
  cases qualifier <;> rfl

theorem decode_type :
    (decode kdbgTimestampMask ⟨timestamp, arg5, debugid event qualifier⟩).type =
      event.id.toInt32 ↔ qualifier.bits = event.bits := by
  have masked := masked_type event qualifier
  have same : (debugid event qualifier).toInt32 &&& kdbgFuncMask = event.id.toInt32 ↔
      debugid event qualifier &&& 0x00000003 = event.id := toInt32_inj
  apply same.trans
  rw [← UInt32.toNat_inj, masked, EventId.id_toNat]

/-- The record decodes to its event exactly when nothing is there to be decoded: `type` is
the qualifier, and that is the event id when both are zero. -/
theorem decode_undone_iff :
    Undone event qualifier
        (decode kdbgTimestampMask ⟨timestamp, arg5, debugid event qualifier⟩) ↔
      (event.class_ = 0 ∧ event.subclass = 0 ∧ event.code = 0) ∧ qualifier = .none := by
  have bits := event.bits_eq
  have type := decode_type event qualifier kdbgTimestampMask timestamp arg5
  unfold EventId.low at bits
  constructor
  · intro undone
    have small := qualifier_lt qualifier
    have same := type.mp undone.type
    refine ⟨⟨by omega, by omega, by omega⟩, ?_⟩
    cases qualifier with
    | none => rfl
    | start =>
      have one : (Qualifier.start).bits = 1 := rfl
      omega
    | end_ =>
      have two : (Qualifier.end_).bits = 2 := rfl
      omega
  · rintro ⟨⟨class_, subclass, code⟩, rfl⟩
    have inside := event.class_lt
    have decoded := decode_class event .none kdbgTimestampMask timestamp arg5
    refine ⟨decoded, ?_, ?_, ?_⟩
    · apply className_isSome
      omega
    · rw [type, bits, class_, subclass, code]
      rfl
    · exact decode_qual event .none kdbgTimestampMask timestamp arg5

end

/-- The system call of interest: `DBG_BSD`, `DBG_BSD_EXCP_SC` and `SYS_chdir`. -/
def chdir : EventId := ⟨4, 0xc, 12, by decide, by decide, by decide⟩

theorem chdir_not_undone : ¬ ∀ kdbgTimestampMask timestamp arg5 event qualifier,
    Undone event qualifier
      (decode kdbgTimestampMask ⟨timestamp, arg5, debugid event qualifier⟩) := by
  intro undoes
  have type := (undoes 0 0 0 chdir .start).type
  revert type
  decide

end MonitoringDemos.Kdebug
