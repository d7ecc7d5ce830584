import MonitoringDemos.FSEvents.Parser

/-! The wire format that fsevents.h and the event loop describe, as records with
their encoding, and the scan the loop is meant to make of them. Nothing here runs
the loops: `Framing` connects the two. -/
namespace MonitoringDemos.FSEvents
open Bytes

/-! ### Records -/

structure WireArg where
  type : UInt16
  payload : List UInt8
  type_ne : type ≠ fseArgDone
  payload_lt : payload.length < 65536

namespace WireArg

def len (a : WireArg) : UInt16 := UInt16.ofNat a.payload.length
def size (a : WireArg) : Nat := 4 + a.payload.length
def kind (a : WireArg) : ArgKind := ArgKind.ofType a.type
def encode (a : WireArg) : List UInt8 := encodeU16 a.type ++ encodeU16 a.len ++ a.payload

@[simp] theorem len_toNat (a : WireArg) : a.len.toNat = a.payload.length := by
  have bound := a.payload_lt
  simp only [len, UInt16.toNat_ofNat']
  omega

@[simp] theorem encode_length (a : WireArg) : a.encode.length = a.size := by
  simp only [encode, size, List.length_append, encodeU16_length]

end WireArg

def argsSize (args : List WireArg) : Nat := (args.map WireArg.size).sum
def encodeArgs (args : List WireArg) : List UInt8 := args.flatMap WireArg.encode

@[simp] theorem argsSize_nil : argsSize [] = 0 := rfl

@[simp] theorem argsSize_cons (a : WireArg) (rest : List WireArg) :
    argsSize (a :: rest) = a.size + argsSize rest := by simp [argsSize]

@[simp] theorem argsSize_append (first second : List WireArg) :
    argsSize (first ++ second) = argsSize first + argsSize second := by simp [argsSize]

@[simp] theorem encodeArgs_length (args : List WireArg) : (encodeArgs args).length = argsSize args := by
  induction args with
  | nil => rfl
  | cons a rest ih =>
    rw [encodeArgs, List.flatMap_cons, List.length_append, WireArg.encode_length, argsSize_cons]
    exact congrArg (a.size + ·) ih

/-- An event with any number of arguments, closed by `FSE_ARG_DONE`. -/
structure WireEvent where
  type : Int32
  pid : Int32
  args : List WireArg
  type_ne : type ≠ fseEventsDropped

namespace WireEvent

def size (e : WireEvent) : Nat := 8 + argsSize e.args + 2

def encode (e : WireEvent) : List UInt8 :=
  encodeI32 e.type ++ encodeI32 e.pid ++ encodeArgs e.args ++ encodeU16 fseArgDone

@[simp] theorem encode_length (e : WireEvent) : e.encode.length = e.size := by
  simp only [encode, size, List.length_append, encodeI32_length, encodeArgs_length, encodeU16_length]

/-- At most `FSE_MAX_ARGS` arguments. -/
def Fits (e : WireEvent) : Prop := e.args.length ≤ fseMaxArgs

/-- The type is a key of `g_kfseNames`. -/
def Known (e : WireEvent) : Prop := (kfseNames.lookup e.type.toUInt32).isSome = true

instance (e : WireEvent) : Decidable e.Fits := inferInstanceAs (Decidable (_ ≤ _))
instance (e : WireEvent) : Decidable e.Known := inferInstanceAs (Decidable (_ = true))

end WireEvent

inductive Record where
  | event (e : WireEvent)
  | dropped (pid : Int32)

namespace Record

def size : Record → Nat
  | .event e => e.size
  | .dropped _ => 10

def encode : Record → List UInt8
  | .event e => e.encode
  | .dropped pid => encodeI32 fseEventsDropped ++ encodeI32 pid ++ encodeU16 fseArgDone

@[simp] theorem encode_length (r : Record) : r.encode.length = r.size := by
  cases r with
  | event e => exact e.encode_length
  | dropped pid => simp [encode, size]

def Fits : Record → Prop
  | .event e => e.Fits
  | .dropped _ => True

def Known : Record → Prop
  | .event e => e.Known
  | .dropped _ => True

instance : DecidablePred Fits
  | .event e => inferInstanceAs (Decidable e.Fits)
  | .dropped _ => inferInstanceAs (Decidable True)

instance : DecidablePred Known
  | .event e => inferInstanceAs (Decidable e.Known)
  | .dropped _ => inferInstanceAs (Decidable True)

end Record

def streamSize (records : List Record) : Nat := (records.map Record.size).sum
def encodeStream (records : List Record) : List UInt8 := records.flatMap Record.encode

@[simp] theorem streamSize_nil : streamSize [] = 0 := rfl

@[simp] theorem streamSize_cons (r : Record) (rest : List Record) :
    streamSize (r :: rest) = r.size + streamSize rest := by simp [streamSize]

@[simp] theorem encodeStream_append (first second : List Record) :
    encodeStream (first ++ second) = encodeStream first ++ encodeStream second := by
  simp [encodeStream]

@[simp] theorem encodeStream_length (records : List Record) :
    (encodeStream records).length = streamSize records := by
  induction records with
  | nil => rfl
  | cons r rest ih =>
    rw [encodeStream, List.flatMap_cons, List.length_append, Record.encode_length, streamSize_cons]
    exact congrArg (r.size + ·) ih

/-! ### Frames: what an event parser has to find, and where -/

inductive Frame where
  | event (kfse : Nat) (type : Int32) (pid : Option Int32)
  | arg (kea : Nat) (type len : UInt16)
  | done (kea : Nat)
  deriving DecidableEq, Repr

/-- The position and the header fields of a visit; the pid only where the loop reads it. -/
def Visit.frame : Visit → Frame
  | .dropped kfse pid => .event kfse fseEventsDropped (some pid)
  | .skippedDone off => .done off
  | .named kfse type pid _ _ => .event kfse type (some pid)
  | .unnamed kfse type => .event kfse type none
  | .nameless kfse type => .event kfse type none
  | .procless kfse type pid => .event kfse type (some pid)
  | .arg kea type len _ _ => .arg kea type len
  | .nameArg kea type len => .arg kea type len
  | .argDone kea => .done kea

def argFrames : Nat → List WireArg → List Frame
  | _, [] => []
  | kea, a :: rest => .arg kea a.type a.len :: argFrames (kea + a.size) rest

def Record.frames (off : Nat) : Record → List Frame
  | .event e => .event off e.type (some e.pid) ::
      (argFrames (off + 8) e.args ++ [.done (off + 8 + argsSize e.args)])
  | .dropped pid => [.event off fseEventsDropped (some pid), .done (off + 8)]

def streamFrames : Nat → List Record → List Frame
  | _, [] => []
  | off, r :: rest => r.frames off ++ streamFrames (off + r.size) rest

/-! ### The intended scan -/

def argName (type : UInt16) : String := (kfseArgNames.lookup (argId type)).getD ""

def argScan (p : Platform) (mem : Memory) (kea : Nat) (s : Monitor) (a : WireArg) : Scan :=
  let (line, isFseArgVnode) := processArg p mem (kea + 8) s.isFseArgVnode a.kind
  ⟨[.arg kea a.type a.len (argName a.type) line],
    [⟨kea, 2⟩, ⟨kea + 2, 2⟩] ++ a.kind.reads (kea + 8),
    kea + a.size, { s with isFseArgVnode }, .finished⟩

@[simp] theorem argScan_off (p : Platform) (mem : Memory) (kea : Nat) (s : Monitor) (a : WireArg) :
    (argScan p mem kea s a).off = kea + a.size := rfl

def argsScan (p : Platform) (mem : Memory) (kea : Nat) (s : Monitor) : List WireArg → Scan
  | [] => ⟨[], [], kea, s, .finished⟩
  | a :: rest => (argScan p mem kea s a).andThen fun kea s => argsScan p mem kea s rest

def doneScan (kea : Nat) (s : Monitor) : Scan :=
  ⟨[.argDone kea], [⟨kea, 2⟩], kea + 2, s, .finished⟩

def recordScan (p : Platform) (mem : Memory) (off : Nat) (s : Monitor) : Record → Scan
  | .event e => (describe p off e.type e.pid s).andThen fun off s =>
      (argsScan p mem off s e.args).andThen doneScan
  | .dropped pid => ⟨[.dropped off pid, .skippedDone (off + 8)], [⟨off, 4⟩, ⟨off + 4, 4⟩],
      off + 10, s, .finished⟩

def streamScan (p : Platform) (mem : Memory) (off : Nat) (s : Monitor) : List Record → Scan
  | [] => ⟨[], [], off, s, .finished⟩
  | r :: rest => (recordScan p mem off s r).andThen fun off s => streamScan p mem off s rest

end MonitoringDemos.FSEvents
