import MonitoringDemos.Bits
import MonitoringDemos.FSEvents.Framing

/-! The file type of an `FSE_ARG_MODE`. The index into `iftovt_tab` multiplies by
`S_IFMT` where it should mask with it. -/
namespace MonitoringDemos.FSEvents
open Bits

/-! ### What the index should be -/

/-- The file type bits, `S_IFMT` moved to the right end. -/
def typeNibble (mode : UInt32) : UInt32 := (mode &&& sIfmt) >>> 12

/-- The name of a vnode type in `vtypeNames`. -/
def VType.name (vtype : VType) : String := vtypeNames.getD vtype.code.toNat "?"

theorem iftovtTab_length : iftovtTab.length = 16 := rfl

theorem typeNibble_toNat (mode : UInt32) : (typeNibble mode).toNat = mode.toNat / 2 ^ 12 % 2 ^ 4 := by
  have masked := toNat_and_field mode sIfmt 4 12 rfl
  rw [typeNibble, UInt32.toNat_shiftRight, masked, Nat.shiftRight_eq_div_pow]
  exact Nat.mul_div_cancel _ (by decide)

theorem typeNibble_lt (mode : UInt32) : (typeNibble mode).toNat < iftovtTab.length := by
  rw [typeNibble_toNat, iftovtTab_length]
  exact Nat.mod_lt _ (Nat.two_pow_pos 4)

/-- The vnode type of a mode's file type bits. -/
def fileType (mode : UInt32) : VType := iftovtTab.get ⟨(typeNibble mode).toNat, typeNibble_lt mode⟩

/-! ### Bits that have nothing to do with the file type -/

def fseModeHlink : UInt32 := (1 : UInt32) <<< 31
def fseModeLastHlink : UInt32 := (1 : UInt32) <<< 30
def fseRemoteDirEvent : UInt32 := (1 : UInt32) <<< 29
def fseTruncatedPath : UInt32 := (1 : UInt32) <<< 28
def fseModeClone : UInt32 := (1 : UInt32) <<< 27

def permissions : UInt32 := 0xfff

/-- The permissions and the flags that fsevents.h adds. -/
def unrelated : UInt32 := permissions ||| fseModeHlink ||| fseModeLastHlink |||
  fseRemoteDirEvent ||| fseTruncatedPath ||| fseModeClone

/-! ### What it is -/

/-- The printed vnode type is the one of the file type bits, found inside the table. -/
structure ModeDecoded (p : Platform) (mode : Int32) : Prop where
  inside : (iftovtIndex mode.toUInt32).toNat < iftovtTab.length
  index : iftovtIndex mode.toUInt32 = typeNibble mode.toUInt32
  name : vnodeTypeName p mode = (fileType mode.toUInt32).name
  stable : ∀ other : Int32, other.toUInt32 &&& ~~~unrelated = mode.toUInt32 &&& ~~~unrelated →
    vnodeTypeName p other = vnodeTypeName p mode

/-- `S_IFMT` is 15 * 2^12, so the wrapped product keeps 8 of the bits from 12 on. -/
theorem iftovtIndex_toNat (mode : UInt32) :
    (iftovtIndex mode).toNat = mode.toNat / 2 ^ 12 * 15 % 2 ^ 8 * 2 ^ 12 := by
  have bound := mode.toNat_lt
  have masked := toNat_and_field mode 0xfffff000 20 12 rfl
  have places : (2 : Nat) ^ ((12 : UInt32).toNat % 32) = 2 ^ 12 := rfl
  have factor : sIfmt.toNat = 15 * 2 ^ 12 := rfl
  rw [iftovtIndex, UInt32.toNat_shiftRight, UInt32.toNat_mul, masked, factor,
    Nat.shiftRight_eq_div_pow, places]
  omega

theorem iftovtIndex_lt_iff (mode : UInt32) :
    (iftovtIndex mode).toNat < iftovtTab.length ↔ mode &&& 0x000ff000 = 0 := by
  have field := and_field_eq_iff mode 0 0x000ff000 8 12 rfl
  rw [UInt32.zero_and] at field
  rw [field, iftovtIndex_toNat, iftovtTab_length, UInt32.toNat_zero]
  omega

theorem typeNibble_zero {mode : UInt32} (clear : mode &&& 0x000ff000 = 0) : typeNibble mode = 0 := by
  have field := (and_field_eq_iff mode 0 0x000ff000 8 12 rfl).mp
    (clear.trans UInt32.zero_and.symm)
  rw [UInt32.toNat_zero] at field
  rw [← UInt32.toNat_inj, typeNibble_toNat, UInt32.toNat_zero]
  omega

theorem iftovtIndex_zero {mode : UInt32} (clear : mode &&& 0x000ff000 = 0) : iftovtIndex mode = 0 := by
  have inside := (iftovtIndex_lt_iff mode).mpr clear
  rw [iftovtTab_length, iftovtIndex_toNat] at inside
  rw [← UInt32.toNat_inj, iftovtIndex_toNat, UInt32.toNat_zero]
  omega

theorem vnodeTypeName_vnon (p : Platform) {mode : Int32}
    (clear : mode.toUInt32 &&& 0x000ff000 = 0) : vnodeTypeName p mode = VType.vnon.name := by
  rw [vnodeTypeName, iftovtIndex_zero clear]
  rfl

/-- The decoding is right for modes without a file type only: the bits from 12 to 19 have
to be clear. -/
theorem modeDecoded_iff (p : Platform) (mode : Int32) :
    ModeDecoded p mode ↔ mode.toUInt32 &&& 0x000ff000 = 0 := by
  constructor
  · intro decoded
    exact (iftovtIndex_lt_iff mode.toUInt32).mp decoded.inside
  · intro clear
    have printed := vnodeTypeName_vnon p clear
    refine ⟨(iftovtIndex_lt_iff mode.toUInt32).mpr clear, ?_, ?_, ?_⟩
    · rw [iftovtIndex_zero clear, typeNibble_zero clear]
    · rw [printed, fileType]
      simp only [typeNibble_zero clear]
      rfl
    · intro other same
      have kept : (0x000ff000 : UInt32) = ~~~unrelated &&& 0x000ff000 := by decide
      have clear' : other.toUInt32 &&& 0x000ff000 = 0 := by
        rw [kept, ← UInt32.and_assoc, same, UInt32.and_assoc, ← kept, clear]
      rw [printed, vnodeTypeName_vnon p clear']

/-- A regular file with permissions 0644: the index is 491520. -/
theorem regularFile_outside : ¬ ModeDecoded samplePlatform 0o100644 := by
  intro decoded
  exact absurd decoded.inside (by decide)

end MonitoringDemos.FSEvents
