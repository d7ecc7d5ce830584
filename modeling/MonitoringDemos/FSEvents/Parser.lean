import MonitoringDemos.FSEvents.Header

/-! The event-processing loop of FSEvents-dev.cpp. A scan records what the loops
print and which bytes of the buffer they read, next to the cursor and the state they
leave. The functions of the platform are parameters; a read behind the array it was
meant for has a value (see `Bytes.Memory` and `Platform.beyondIftovt`) and no trap. -/
namespace MonitoringDemos.FSEvents
open Bytes

/-- The system calls, library functions and header macros the monitor uses. -/
structure Platform where
  /-- `p_comm` of the record `sysctl(KERN_PROC_PID)` leaves for a pid; `none` when it fails. -/
  sysctl : Int32 → Option (List UInt8)
  getpwuid : UInt32 → Option String
  strmode : UInt16 → String
  major : Int32 → Int32
  minor : Int32 → Int32
  /-- The word found at an index behind the end of `iftovtTab`. -/
  beyondIftovt : Nat → UInt32

/-! ### Arguments -/

/-- The cases of `switch (kea->type)`. -/
inductive ArgKind where
  | vnode | string | int32 | int64 | raw | ino | uid | dev | mode | other
  deriving DecidableEq, Repr

def ArgKind.ofType (type : UInt16) : ArgKind :=
  if type = fseArgVnode then .vnode
  else if type = fseArgString then .string
  else if type = fseArgInt32 then .int32
  else if type = fseArgInt64 then .int64
  else if type = fseArgRaw then .raw
  else if type = fseArgIno then .ino
  else if type = fseArgUid then .uid
  else if type = fseArgDev then .dev
  else if type = fseArgMode then .mode
  else .other

/-- The size of the scalar a case reads from `data`; strings and the default case read none. -/
def ArgKind.width : ArgKind → Nat
  | .vnode | .string | .other => 0
  | .int32 | .uid | .dev | .mode => 4
  | .int64 | .raw | .ino => 8

/-- What follows the type and the length on an argument's line. -/
inductive Line where
  | path (text : CString)
  | string (text : CString)
  | int32 (value : Int32)
  | int64 (value : Int64)
  | ptr (value : UInt64)
  | ino (value : UInt64)
  | uid (value : UInt32) (name : String)
  | fsid (value : Int32)
  | dev (value major minor : Int32)
  | mode (text : String) (value : Int32) (vnodeType : String)
  | unknown

def vnodeTypeName (p : Platform) (mode : Int32) : String :=
  let index := (iftovtIndex mode.toUInt32).toNat
  let vaType := match iftovtTab[index]? with
    | some vtype => vtype.code
    | none => p.beyondIftovt index
  vtypeNames.getD vaType.toNat "?"

/-- The switch over the argument type. `data` is the address of `kea->data`; the
second component is `is_fse_arg_vnode` afterwards. -/
def processArg (p : Platform) (mem : Memory) (data : Nat) (isFseArgVnode : Bool) :
    ArgKind → Line × Bool
  | .vnode => (.path (cstring mem data), true)
  | .string => (.string (cstring mem data), isFseArgVnode)
  | .int32 => (.int32 (readI32 mem data), isFseArgVnode)
  | .int64 => (.int64 (readI64 mem data), isFseArgVnode)
  | .raw => (.ptr (readU64 mem data), isFseArgVnode)
  | .ino => (.ino (readU64 mem data), isFseArgVnode)
  | .uid =>
    let uid := readU32 mem data
    (.uid uid ((p.getpwuid uid).getD "?"), isFseArgVnode)
  | .dev =>
    let dev := readI32 mem data
    if isFseArgVnode then (.fsid dev, false)
    else (.dev dev (p.major dev) (p.minor dev), isFseArgVnode)
  | .mode =>
    let mode := readI32 mem data
    (.mode (p.strmode mode.toUInt32.toUInt16) mode (vnodeTypeName p mode), isFseArgVnode)
  | .other => (.unknown, isFseArgVnode)

/-! ### Scans -/

/-- Addresses are offsets into `buf`. -/
inductive Visit where
  /-- The record of dropped events, printed with its pid. -/
  | dropped (kfse : Nat) (pid : Int32)
  /-- The two bytes after a dropped record, skipped unread. -/
  | skippedDone (off : Nat)
  /-- An event in the guarded range, printed with its name, its pid and the process name. -/
  | named (kfse : Nat) (type pid : Int32) (name : String) (procName : List UInt8)
  /-- An event outside the guarded range: only its type has been read. -/
  | unnamed (kfse : Nat) (type : Int32)
  /-- `g_kfseNames.at` has thrown. -/
  | nameless (kfse : Nat) (type : Int32)
  /-- `getProcName` has exited the process. -/
  | procless (kfse : Nat) (type pid : Int32)
  | arg (kea : Nat) (type len : UInt16) (name : String) (line : Line)
  /-- `g_kfseArgNames.at` has thrown. -/
  | nameArg (kea : Nat) (type len : UInt16)
  | argDone (kea : Nat)

structure Span where
  start : Nat
  size : Nat
  deriving DecidableEq, Repr

/-- The scalar that the switch reads from `data`, if any. -/
def ArgKind.reads (kind : ArgKind) (data : Nat) : List Span :=
  if kind.width = 0 then [] else [⟨data, kind.width⟩]

inductive Ending where
  | finished
  | outOfRange
  | exited
  deriving DecidableEq, Repr

/-- The statics of `getProcName`. -/
structure ProcCache where
  lastPID : Int
  procName : List UInt8
  deriving DecidableEq, Repr

/-- What the monitor carries from one read to the next, besides `buf`. -/
structure Monitor where
  isFseArgVnode : Bool
  cache : ProcCache
  deriving DecidableEq, Repr

def Monitor.initial : Monitor := ⟨false, 0, []⟩

structure Scan where
  visits : List Visit
  reads : List Span
  off : Nat
  state : Monitor
  ending : Ending

namespace Scan

def after (visits : List Visit) (reads : List Span) (rest : Scan) : Scan :=
  { rest with visits := visits ++ rest.visits, reads := reads ++ rest.reads }

/-- Continue a scan unless an exception or an exit has ended it. -/
def andThen (first : Scan) (next : Nat → Monitor → Scan) : Scan :=
  match first.ending with
  | .finished => (next first.off first.state).after first.visits first.reads
  | _ => first

theorem andThen_finished {first : Scan} (done : first.ending = .finished)
    (next : Nat → Monitor → Scan) :
    first.andThen next = (next first.off first.state).after first.visits first.reads := by
  simp only [andThen, done]

theorem andThen_stopped {first : Scan} (stopped : first.ending ≠ .finished)
    (next : Nat → Monitor → Scan) : first.andThen next = first := by
  unfold andThen
  split
  · contradiction
  · rfl

@[simp] theorem after_nil (scan : Scan) : scan.after [] [] = scan := rfl

theorem after_after (scan : Scan) (vs vs' : List Visit) (rs rs' : List Span) :
    (scan.after vs rs).after vs' rs' = scan.after (vs' ++ vs) (rs' ++ rs) := by
  simp only [after, List.append_assoc]

theorem andThen_assoc (first : Scan) (second third : Nat → Monitor → Scan) :
    (first.andThen second).andThen third =
      first.andThen fun off s => (second off s).andThen third := by
  by_cases one : first.ending = .finished
  · rw [andThen_finished one, andThen_finished one]
    by_cases two : (second first.off first.state).ending = .finished
    · rw [andThen_finished two, andThen_finished (by simpa only [after] using two), after_after]
      rfl
    · rw [andThen_stopped two, andThen_stopped (by simpa only [after] using two)]
  · rw [andThen_stopped one, andThen_stopped one, andThen_stopped one]

end Scan

/-! ### The loops -/

/-- The inner loop: `off` and `kea` are advanced separately. -/
def argLoop (p : Platform) (mem : Memory) (rc i off kea : Nat) (s : Monitor) : Scan :=
  if off < rc ∧ i ≤ fseMaxArgs then
    let type := readU16 mem kea
    if type = fseArgDone then
      ⟨[.argDone kea], [⟨kea, sizeofType⟩], off + sizeofType, s, .finished⟩
    else
      let len := readU16 mem (kea + sizeofType)
      let header : List Span := [⟨kea, sizeofType⟩, ⟨kea + sizeofType, sizeofLen⟩]
      let eoff := sizeofType + sizeofLen + len.toNat
      match kfseArgNames.lookup (argId type) with
      | none => ⟨[.nameArg kea type len], header, off + eoff, s, .outOfRange⟩
      | some name =>
        let kind := ArgKind.ofType type
        let (line, isFseArgVnode) := processArg p mem (kea + offsetofData) s.isFseArgVnode kind
        (argLoop p mem rc (i + 1) (off + eoff) (kea + eoff) { s with isFseArgVnode }).after
          [.arg kea type len name line] (header ++ kind.reads (kea + offsetofData))
  else ⟨[], [], off, s, .finished⟩
  termination_by fseMaxArgs + 1 - i

/-- `getProcName`; `none` is its `exit(2)`. -/
def getProcName (p : Platform) (pid : Int32) (cache : ProcCache) : Option (List UInt8 × ProcCache) :=
  if pid.toInt ≠ cache.lastPID then
    (p.sysctl pid).map fun procName => (procName, ⟨pid.toInt, procName⟩)
  else some (cache.procName, cache)

/-- The guard of the `#Event` line: `kfse->type < FSE_MAX_EVENTS && kfse->type >= -1`. -/
def InGuard (type : Int32) : Prop := type.toInt < fseMaxEvents ∧ -1 ≤ type.toInt

instance (type : Int32) : Decidable (InGuard type) := inferInstanceAs (Decidable (_ ∧ _))

/-- The `#Event` line of an ordinary event. `getProcName` is called twice; `pid` is
the field at `kfse->pid`, read only when the line is printed. -/
def describe (p : Platform) (kfse : Nat) (type pid : Int32) (s : Monitor) : Scan :=
  let off := kfse + (sizeofEventType + sizeofPid)
  let typeRead : Span := ⟨kfse, sizeofEventType⟩
  let pidRead : Span := ⟨kfse + sizeofEventType, sizeofPid⟩
  if InGuard type then
    match kfseNames.lookup type.toUInt32 with
    | none => ⟨[.nameless kfse type], [typeRead], off, s, .outOfRange⟩
    | some name =>
      match getProcName p pid s.cache with
      | none => ⟨[.procless kfse type pid], [typeRead, pidRead], off, s, .exited⟩
      | some (_, cache) =>
        match getProcName p pid cache with
        | none => ⟨[.procless kfse type pid], [typeRead, pidRead], off, { s with cache }, .exited⟩
        | some (procName, cache) =>
          ⟨[.named kfse type pid name procName], [typeRead, pidRead], off, { s with cache }, .finished⟩
  else ⟨[.unnamed kfse type], [typeRead], off, s, .finished⟩

theorem describe_off (p : Platform) (kfse : Nat) (type pid : Int32) (s : Monitor) :
    (describe p kfse type pid s).off = kfse + 8 := by
  unfold describe
  split
  · split
    · rfl
    · split
      · rfl
      · split <;> rfl
  · rfl

theorem argLoop_off_le (p : Platform) (mem : Memory) (rc i off kea : Nat) (s : Monitor) :
    off ≤ (argLoop p mem rc i off kea s).off := by
  fun_induction argLoop with
  | case1 => simp
  | case2 => simp
  | case3 i off kea s _ type _ len header eoff name _ kind line isFseArgVnode _ ih =>
    simp only [Scan.after]
    omega
  | case4 => simp

/-- The outer loop over the events of one read. -/
def eventLoop (p : Platform) (mem : Memory) (rc off : Nat) (s : Monitor) : Scan :=
  if off < rc then
    let kfse := off
    let type := readI32 mem kfse
    let pid := readI32 mem (kfse + sizeofEventType)
    if type = fseEventsDropped then
      (eventLoop p mem rc (kfse + (sizeofEventType + sizeofPid) + sizeofType) s).after
        [.dropped kfse pid, .skippedDone (kfse + (sizeofEventType + sizeofPid))]
        [⟨kfse, sizeofEventType⟩, ⟨kfse + sizeofEventType, sizeofPid⟩]
    else
      let head := describe p kfse type pid s
      match head.ending with
      | .finished =>
        let args := argLoop p mem rc 0 head.off (kfse + offsetofArgs) head.state
        match args.ending with
        | .finished =>
          (eventLoop p mem rc args.off args.state).after
            (head.visits ++ args.visits) (head.reads ++ args.reads)
        | _ => args.after head.visits head.reads
      | _ => head
  else ⟨[], [], off, s, .finished⟩
  termination_by rc - off
  decreasing_by
    · simp only [sizeofEventType, sizeofPid, sizeofType]
      omega
    · have advanced := argLoop_off_le p mem rc 0 head.off (kfse + offsetofArgs) head.state
      have start := describe_off p kfse type pid s
      change rc - args.off < rc - off
      change head.off = off + 8 at start
      change head.off ≤ args.off at advanced
      omega

/-- The outermost loop: `chunks` are the successive results of `read` into `buf`. It
ends at a `read` that returns no bytes, at a stop request (the end of the list), or
when a scan does not return. -/
def readLoop (p : Platform) (buf : Memory) (s : Monitor) : List (List UInt8) → List Scan
  | [] => []
  | chunk :: rest =>
    if chunk = [] then []
    else
      let buf := overlay chunk buf
      let scan := eventLoop p buf chunk.length 0 s
      scan :: match scan.ending with
        | .finished => readLoop p buf scan.state rest
        | _ => []

end MonitoringDemos.FSEvents
