import MonitoringDemos.Text

/-! The vnode scope listener of the kauth kext, as a program over the kernel calls it
makes. Each call is a node of the program: what the kernel answers picks the branch, so
that invocations can be interleaved call by call. -/
namespace MonitoringDemos.Kauth
open Text

structure Vnode where
  id : Nat
  /-- `vnode_vtype(vp) == VDIR`. -/
  isVdir : Bool
  deriving DecidableEq, Repr

/-- A block is named by its address; a path is what `vn_getpath` leaves in the buffer. -/
inductive Prog (α : Type) where
  | ret (a : α)
  | assert (holds : Bool) (next : Prog α)
  | osMalloc (size : Nat) (next : Option Nat → Prog α)
  | osFree (block size : Nat) (next : Prog α)
  | vnGetpath (vp : Vnode) (block : Nat) (next : Int32 → List UInt8 → Prog α)

namespace Prog

def bind : Prog α → (α → Prog β) → Prog β
  | .ret a, f => f a
  | .assert holds next, f => .assert holds (next.bind f)
  | .osMalloc size next, f => .osMalloc size fun block => (next block).bind f
  | .osFree block size next, f => .osFree block size (next.bind f)
  | .vnGetpath vp block next, f => .vnGetpath vp block fun err path => (next err path).bind f

instance : Monad Prog where
  pure := .ret
  bind := bind

end Prog

def assert (holds : Bool) : Prog Unit := .assert holds (.ret ())
def osMalloc (size : Nat) : Prog (Option Nat) := .osMalloc size .ret
def osFree (block size : Nat) : Prog Unit := .osFree block size (.ret ())
def vnGetpath (vp : Vnode) (block : Nat) : Prog (Int32 × List UInt8) :=
  .vnGetpath vp block fun err path => .ret (err, path)

def enomem : Int32 := 12
def enobufs : Int32 := 55
def maxPathLen : Nat := 1024
def actionStringMaxLength : Nat := 16384
def demoPath : List UInt8 := ascii "/tmp/kauth-demo"

/-! ### CreateVnodeActionString -/

/-- The bits of the vnode scope that the table names. -/
inductive VnodeAction where
  | readData | writeData | execute | delete | appendData | deleteChild | readAttributes
  | writeAttributes | readExtattributes | writeExtattributes | readSecurity | writeSecurity
  | takeOwnership | synchronize | linktarget | checkimmutable | access | noimmutable
  deriving DecidableEq, Repr

structure VnodeActionInfo where
  fMask : UInt32
  fOpNameFile : List UInt8
  /-- `none` when directories have no name of their own. -/
  fOpNameDir : Option (List UInt8)

/-- `kVnodeActionInfo`, given the values `KAUTH_VNODE_*` of the system header. -/
def vnodeActionInfo (mask : VnodeAction → UInt32) : List VnodeActionInfo := [
  ⟨mask .readData, ascii "READ_DATA", some (ascii "LIST_DIRECTORY")⟩,
  ⟨mask .writeData, ascii "WRITE_DATA", some (ascii "ADD_FILE")⟩,
  ⟨mask .execute, ascii "EXECUTE", some (ascii "SEARCH")⟩,
  ⟨mask .delete, ascii "DELETE", none⟩,
  ⟨mask .appendData, ascii "APPEND_DATA", some (ascii "ADD_SUBDIRECTORY")⟩,
  ⟨mask .deleteChild, ascii "DELETE_CHILD", none⟩,
  ⟨mask .readAttributes, ascii "READ_ATTRIBUTES", none⟩,
  ⟨mask .writeAttributes, ascii "WRITE_ATTRIBUTES", none⟩,
  ⟨mask .readExtattributes, ascii "READ_EXTATTRIBUTES", none⟩,
  ⟨mask .writeExtattributes, ascii "WRITE_EXTATTRIBUTES", none⟩,
  ⟨mask .readSecurity, ascii "READ_SECURITY", none⟩,
  ⟨mask .writeSecurity, ascii "WRITE_SECURITY", none⟩,
  ⟨mask .takeOwnership, ascii "TAKE_OWNERSHIP", none⟩,
  ⟨mask .synchronize, ascii "SYNCHRONIZE", none⟩,
  ⟨mask .linktarget, ascii "LINKTARGET", none⟩,
  ⟨mask .checkimmutable, ascii "CHECKIMMUTABLE", none⟩,
  ⟨mask .access, ascii "ACCESS", none⟩,
  ⟨mask .noimmutable, ascii "NOIMMUTABLE", none⟩]

/-- A pass over the table. `size` is the size of `actionStr`, `none` while it is NULL;
`writes` are the bytes stored in it, each run with the index of its first byte. -/
structure Pass where
  size : Option Nat
  actionsLeft : UInt32
  actionStrLen : Nat
  writes : List (Nat × List UInt8)
  deriving DecidableEq, Repr

namespace Pass

def store (pass : Pass) (bytes : List UInt8) : Pass :=
  match pass.size with
  | some _ => { pass with writes := pass.writes ++ [(pass.actionStrLen, bytes)] }
  | none => pass

/-- Store bytes, if there is a buffer, and count them. -/
def put (pass : Pass) (bytes : List UInt8) : Pass :=
  { pass.store bytes with actionStrLen := pass.actionStrLen + bytes.length }

/-- The name of a table entry if its bit is left, and the bar if others are. -/
def describeBit (isDir : Bool) (info : VnodeActionInfo) (pass : Pass) : Pass :=
  if pass.actionsLeft &&& info.fMask ≠ 0 then
    let thisStr := if isDir then info.fOpNameDir.getD info.fOpNameFile else info.fOpNameFile
    let named := pass.put thisStr
    let cleared := { named with actionsLeft := named.actionsLeft &&& ~~~ info.fMask }
    if cleared.actionsLeft ≠ 0 then cleared.put (ascii "|") else cleared
  else pass

def describeBits (isDir : Bool) : List VnodeActionInfo → Pass → Pass
  | [], pass => pass
  | info :: rest, pass =>
    if pass.actionsLeft ≠ 0 then describeBits isDir rest (describeBit isDir info pass) else pass

def hexDigit (digit : UInt32) : UInt8 :=
  if digit < 10 then 0x30 + digit.toUInt8 else 0x57 + digit.toUInt8

/-- `"0x%08x"`. -/
def hexToken (value : UInt32) : List UInt8 :=
  let shifts : List UInt32 := [28, 24, 20, 16, 12, 8, 4, 0]
  ascii "0x" ++ shifts.map fun shift => hexDigit ((value >>> shift) &&& 0xf)

/-- The rest of the action as a hex number; `snprintf` cuts it to the room left. -/
def describeRest (pass : Pass) : Pass :=
  if pass.actionsLeft ≠ 0 then
    let room := pass.size.getD 0 - pass.actionStrLen
    let text := if room = 0 then [] else (hexToken pass.actionsLeft).take (room - 1) ++ [0]
    { pass.store text with actionStrLen := pass.actionStrLen + 10 }
  else pass

/-- One turn of the outer loop, up to the allocation or the final NUL. -/
def run (table : List VnodeActionInfo) (isDir : Bool) (action : UInt32) (size : Option Nat) :
    Pass :=
  (describeBits isDir table ⟨size, action, 0, []⟩).describeRest

end Pass

/-- The allocated string: its block, the size of the block and the bytes stored in it. -/
structure ActionStr where
  block : Nat
  size : Nat
  writes : List (Nat × List UInt8)
  deriving DecidableEq, Repr

/-- An out-parameter is `none` for a NULL pointer, else the value it points to. The
result holds the values stored through the two pointers. -/
def createVnodeActionString (mask : VnodeAction → UInt32) (action : UInt32) (isDir : Bool)
    (actionStrPtr : Option (Option ActionStr)) (actionStrBufSizePtr : Option Nat) :
    Prog (Int32 × Option ActionStr × Nat) := do
  assert actionStrPtr.isSome
  assert actionStrPtr.join.isSome
  assert actionStrBufSizePtr.isSome
  let first := Pass.run (vnodeActionInfo mask) isDir action none
  if first.actionStrLen > actionStringMaxLength then
    cleanUp enobufs none first
  else
    let actionStrSize := first.actionStrLen + 1
    match ← osMalloc actionStrSize with
    | none => cleanUp enomem none first
    | some block =>
      let second := Pass.run (vnodeActionInfo mask) isDir action (some actionStrSize)
      cleanUp 0 (some ⟨block, actionStrSize, second.writes ++ [(second.actionStrLen, [0])]⟩) second
where
  cleanUp (err : Int32) (actionStr : Option ActionStr) (pass : Pass) :
      Prog (Int32 × Option ActionStr × Nat) := do
    assert ((err == 0) == actionStr.isSome)
    return (err, actionStr, pass.actionStrLen + 1)

/-! ### CreateVnodePath and VnodeScopeListener -/

/-- The buffer of a path and what it holds. -/
structure PathBuf where
  block : Nat
  path : List UInt8
  deriving DecidableEq, Repr

def createVnodePath (vp : Option Vnode) (vpPathPtr : Option (Option PathBuf)) :
    Prog (Int32 × Option PathBuf) := do
  assert vpPathPtr.isSome
  assert vpPathPtr.join.isNone
  match vp with
  | none => return (0, vpPathPtr.join)
  | some vp =>
    match ← osMalloc maxPathLen with
    | none => return (enomem, none)
    | some block =>
      let (err, path) ← vnGetpath vp block
      return (err, some ⟨block, path⟩)

inductive KauthResult where
  | defer | deny
  deriving DecidableEq, Repr

/-- `path != NULL && strstr(path, g_demoPath)`. -/
def occursIn (path : Option PathBuf) : Bool :=
  match path with
  | none => false
  | some buffer => (find demoPath buffer.path).isSome

def freePath (path : Option PathBuf) : Prog Unit :=
  match path with
  | none => return ()
  | some buffer => osFree buffer.block maxPathLen

def vnodeScopeListener (mask : VnodeAction → UInt32) (action : UInt32) (vp dvp : Option Vnode) :
    Prog KauthResult := do
  let (err, vpPath) ← createVnodePath vp (some none)
  let (err, dvpPath) ←
    if err = 0 then createVnodePath dvp (some none) else pure (err, none)
  let (err, actionStr, actionStrBufSize) ←
    if err = 0 then
      let isDir := match vp with
        | some vp => vp.isVdir
        | none => false
      createVnodeActionString mask action isDir (some none) (some 0)
    else pure (err, none, 0)
  let result :=
    if err = 0 ∧ (occursIn vpPath = true ∨ occursIn dvpPath = true) then KauthResult.deny
    else .defer
  match actionStr with
  | none => pure ()
  | some actionStr => osFree actionStr.block actionStrBufSize
  freePath vpPath
  freePath dvpPath
  return result

end MonitoringDemos.Kauth
