import MonitoringDemos.Bytes

/-! Constants, lookup tables and struct layout of the /dev/fsevents monitor:
fsevents.h and the declarations above main in FSEvents-dev.cpp. Offsets are those
of the LP64 ABI, where pointers and 64-bit integers are aligned to 8. -/
namespace MonitoringDemos.FSEvents

/-! ### fsevents.h -/

def fseCreateFile : UInt32 := 0
def fseDelete : UInt32 := 1
def fseStatChanged : UInt32 := 2
def fseRename : UInt32 := 3
def fseContentModified : UInt32 := 4
def fseExchange : UInt32 := 5
def fseFinderInfoChanged : UInt32 := 6
def fseCreateDir : UInt32 := 7
def fseChown : UInt32 := 8
def fseXattrModified : UInt32 := 9
def fseXattrRemoved : UInt32 := 10
def fseDocidCreated : UInt32 := 11
def fseDocidChanged : UInt32 := 12

def fseMaxEvents : Int := 15
def fseEventsDropped : Int32 := 999

def fseArgVnode : UInt16 := 0x0001
def fseArgString : UInt16 := 0x0002
def fseArgPath : UInt16 := 0x0003
def fseArgInt32 : UInt16 := 0x0004
def fseArgInt64 : UInt16 := 0x0005
def fseArgRaw : UInt16 := 0x0006
def fseArgIno : UInt16 := 0x0007
def fseArgUid : UInt16 := 0x0008
def fseArgDev : UInt16 := 0x0009
def fseArgMode : UInt16 := 0x000a
def fseArgGid : UInt16 := 0x000b
def fseArgFinfo : UInt16 := 0x000c
def fseArgDone : UInt16 := 0xb33f

def fseMaxArgs : Nat := 12

/-! ### The lookup tables, as `std::map`s: `at` throws on a missing key -/

def kfseNames : List (UInt32 × String) := [
  (fseCreateFile, "FSE_CREATE_FILE"),
  (fseDelete, "FSE_DELETE"),
  (fseStatChanged, "FSE_STAT_CHANGED"),
  (fseRename, "FSE_RENAME"),
  (fseContentModified, "FSE_CONTENT_MODIFIED"),
  (fseCreateDir, "FSE_CREATE_DIR"),
  (fseChown, "FSE_CHOWN"),
  (fseExchange, "FSE_EXCHANGE"),
  (fseFinderInfoChanged, "FSE_FINDER_INFO_CHANGED"),
  (fseXattrModified, "FSE_XATTR_MODIFIED"),
  (fseXattrRemoved, "FSE_XATTR_REMOVED"),
  (fseDocidCreated, "FSE_DOCID_CREATED"),
  (fseDocidChanged, "FSE_DOCID_CHANGED")]

def kfseArgNames : List (UInt32 × String) := [
  (0, "Unknown"),
  (fseArgVnode.toUInt32, "FSE_ARG_VNODE"),
  (fseArgString.toUInt32, "FSE_ARG_STRING"),
  (fseArgPath.toUInt32, "FSE_ARG_PATH"),
  (fseArgInt32.toUInt32, "FSE_ARG_INT32"),
  (fseArgInt64.toUInt32, "FSE_ARG_INT64"),
  (fseArgRaw.toUInt32, "FSE_ARG_RAW"),
  (fseArgIno.toUInt32, "FSE_ARG_INO"),
  (fseArgUid.toUInt32, "FSE_ARG_UID"),
  (fseArgDev.toUInt32, "FSE_ARG_DEV"),
  (fseArgMode.toUInt32, "FSE_ARG_MODE"),
  (fseArgGid.toUInt32, "FSE_ARG_GID"),
  (fseArgFinfo.toUInt32, "FSE_ARG_FINFO")]

/-- The key under which `kfseArgNames` is searched: 0 for a type above `fseMaxArgs`. -/
def argId (type : UInt16) : UInt32 := if fseMaxArgs < type.toNat then 0 else type.toUInt32

/-- The argument table has a name for the key of every 16-bit type. -/
theorem argName_found (type : UInt16) : ∃ name, kfseArgNames.lookup (argId type) = some name := by
  have covered : ∀ n : Fin 13,
      (kfseArgNames.lookup (UInt16.ofNat n.val).toUInt32).isSome = true := by decide
  apply Option.isSome_iff_exists.mp
  unfold argId
  split
  · decide
  · rename_i small
    have entry := covered ⟨type.toNat, by simp only [fseMaxArgs] at small; omega⟩
    simpa using entry

/-! ### Struct layout -/

def alignUp (offset alignment : Nat) : Nat := (offset + alignment - 1) / alignment * alignment

def sizeofType : Nat := 2
def sizeofLen : Nat := 2
def sizeofEventType : Nat := 4
def sizeofPid : Nat := 4

/-- Alignment of the union `data` and so of `kfs_event_arg_t`: its strictest members
are pointers and 64-bit integers. -/
def alignofData : Nat := 8

/-- `offsetof(kfs_event_arg_t, data)`; the compiler pads after `type` and `len`. -/
def offsetofData : Nat := alignUp (sizeofType + sizeofLen) alignofData

/-- `offsetof(kfs_event, args)`. -/
def offsetofArgs : Nat := alignUp (sizeofEventType + sizeofPid) alignofData

@[simp] theorem offsetofData_eq : offsetofData = 8 := rfl
@[simp] theorem offsetofArgs_eq : offsetofArgs = 8 := rfl

/-! ### Vnode types -/

inductive VType where
  | vnon | vreg | vdir | vblk | vchr | vlnk | vsock | vfifo | vbad | vstr | vcplx
  deriving DecidableEq, Repr

def VType.code : VType → UInt32
  | .vnon => 0 | .vreg => 1 | .vdir => 2 | .vblk => 3 | .vchr => 4 | .vlnk => 5
  | .vsock => 6 | .vfifo => 7 | .vbad => 8 | .vstr => 9 | .vcplx => 10

def iftovtTab : List VType := [
  .vnon, .vfifo, .vchr, .vnon, .vdir, .vnon, .vblk, .vnon,
  .vreg, .vnon, .vlnk, .vnon, .vsock, .vnon, .vnon, .vbad]

def vtypeNames : List String := [
  "VNON", "VREG", "VDIR", "VBLK", "VCHR", "VLNK",
  "VSOCK", "VFIFO", "VBAD", "VSTR", "VCPLX"]

/-- `S_IFMT` of sys/stat.h. -/
def sIfmt : UInt32 := 0xf000

/-- The index that `case FSE_ARG_MODE` computes into `iftovtTab`. -/
def iftovtIndex (mode : UInt32) : UInt32 := ((mode &&& 0xfffff000) * sIfmt) >>> 12

end MonitoringDemos.FSEvents
