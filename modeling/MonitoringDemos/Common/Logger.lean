import Mathlib.Logic.Function.Basic
import MonitoringDemos.Streams

/-! The logger that all threads share: each operation on `m_logLevel`, on the mutex and on
`std::cerr` is one step, and the threads take their steps in any order. -/
namespace MonitoringDemos.Common
open Streams Text

inductive LogLevel where
  | verbose | info | warning | err | none
  deriving DecidableEq, Repr

namespace LogLevel

/-- The value of the enumerator. -/
def toNat : LogLevel → Nat
  | .verbose => 0
  | .info => 1
  | .warning => 2
  | .err => 3
  | .none => 4

instance : LE LogLevel := ⟨fun ll ll' => ll.toNat ≤ ll'.toNat⟩

instance (ll ll' : LogLevel) : Decidable (ll ≤ ll') :=
  inferInstanceAs (Decidable (ll.toNat ≤ ll'.toNat))

def msgPrefix : LogLevel → List UInt8
  | .verbose => ascii "[DD]"
  | .info => ascii "[II]"
  | .warning => ascii "[WW]"
  | .err => ascii "[EE]"
  | .none => []

end LogLevel

/-! ### Lines -/

/-- What is inserted while the mutex is held. The base is decimal again behind it. -/
structure Line where
  items : List Item
  restoring : Restoring items

def Line.text (line : Line) : List UInt8 := rendered .dec line.items

/-- An argument of `log`; none of them is a manipulator. -/
inductive Arg where
  | text (bytes : List UInt8)
  | number (number : Number)
  deriving DecidableEq, Repr

def Arg.item : Arg → Item
  | .text bytes => .text bytes
  | .number n => .number n

theorem restoring_args (args : List Arg) : Restoring (args.map Arg.item) := by
  rw [List.map_eq_flatMap]
  apply Restoring.flatMap
  intro arg _
  cases arg <;> rfl

/-- The statements of `log` under the lock; `time` is what `current_time_and_date` returns. -/
def logLine (ll : LogLevel) (time : List UInt8) (args : List Arg) : Line where
  items := [.text time, .text (ascii " "), .text ll.msgPrefix, .text (ascii " ")] ++
    (args.map Arg.item ++ [endl])
  restoring := by
    apply Restoring.append
    · rfl
    · exact (restoring_args args).append rfl

/-- An array whose length an `unsigned int` can count up to. -/
structure BitArray where
  bytes : List UInt8
  small : bytes.length < 2 ^ 32

def arrayLine (bitArray : BitArray) : Line where
  items := [.text (ascii "("), .number ⟨bitArray.bytes.length, 64⟩, .text (ascii "B): 0x")] ++
    (bitArray.bytes.flatMap hexByte ++ [endl])
  restoring := by
    apply Restoring.append
    · rfl
    · exact (Restoring.flatMap fun byte _ => restoring_hexByte byte).append rfl

/-! ### Calls -/

inductive Op where
  /-- `if (ll >= m_logLevel)`, and the body behind it when it holds. -/
  | check (ll : LogLevel) (line : Line)
  | lock
  | put (item : Item)
  | unlock
  /-- `m_logLevel = ll`. -/
  | store (ll : LogLevel)

/-- The scope of a `std::lock_guard`. -/
def guarded (line : Line) : List Op := .lock :: (line.items.map .put ++ [.unlock])

def log (ll : LogLevel) (time : List UInt8) (args : List Arg) : List Op :=
  [.check ll (logLine ll time args)]

def printArray (bitArray : BitArray) : List Op := guarded (arrayLine bitArray)

def setLogLevel (ll : LogLevel) : List Op := [.store ll]

def isSpace (c : UInt8) : Bool := c = 0x20 ∨ (0x09 ≤ c ∧ c ≤ 0x0d)

def isDigit (c : UInt8) : Bool := 0x30 ≤ c ∧ c ≤ 0x39

/-- `std::stoi`, `none` when it throws. -/
def stoi (str : List UInt8) : Option Int :=
  let (sign, rest) : Int × List UInt8 := match str.dropWhile isSpace with
    | 0x2d :: rest => (-1, rest)
    | 0x2b :: rest => (1, rest)
    | rest => (1, rest)
  let number := rest.takeWhile isDigit
  let value := sign * digitsValue .dec number
  if number ≠ [] ∧ -2 ^ 31 ≤ value ∧ value < 2 ^ 31 then some value else none

def invalidLevel (ll : List UInt8) : List Arg :=
  [.text (ascii "Invalid verbosity level ("), .text ll, .text (ascii ").")]

/-- The cases of the `switch`, `none` for its default. -/
def levelCase : Int → Option LogLevel
  | 0 => some .none
  | 1 => some .err
  | 2 => some .warning
  | 3 => some .info
  | 4 => some .verbose
  | _ => none

/-- `setLogLevel` of a string. -/
def setLogLevelString (ll time : List UInt8) : List Op :=
  match stoi ll with
  | none => []
  | some value =>
    match levelCase value with
    | some level => setLogLevel level
    | none => log .err time (invalidLevel ll) ++ setLogLevel .info

/-- A call of a member function. -/
inductive Call where
  | log (ll : LogLevel) (time : List UInt8) (args : List Arg)
  | printArray (bitArray : BitArray)
  | setLogLevel (ll : LogLevel)
  | setLogLevelString (ll time : List UInt8)

def Call.ops : Call → List Op
  | .log ll time args => Common.log ll time args
  | .printArray bitArray => Common.printArray bitArray
  | .setLogLevel ll => Common.setLogLevel ll
  | .setLogLevelString ll time => Common.setLogLevelString ll time

/-! ### Threads -/

structure Logger where
  /-- `m_logLevel`. -/
  level : LogLevel
  /-- The thread that has locked `m_debugPrint`. -/
  holder : Option Nat
  cerr : Stream
  /-- What is left to do of each thread. -/
  threads : Nat → List Op

namespace Logger

/-- The constructor's default level is `WARNING`. -/
def start (level : LogLevel) (calls : Nat → List Call) : Logger :=
  ⟨level, none, ⟨[], .dec⟩, fun t => (calls t).flatMap Call.ops⟩

def resume (s : Logger) (t : Nat) (ops : List Op) : Logger :=
  { s with threads := Function.update s.threads t ops }

/-- The next step of a thread; a thread that finds the mutex locked has none. -/
def step (s : Logger) (t : Nat) : Option Logger :=
  match s.threads t with
  | [] => none
  | .check ll line :: rest =>
    some (s.resume t (if s.level ≤ ll then guarded line ++ rest else rest))
  | .lock :: rest => if s.holder = none then some { s.resume t rest with holder := some t } else none
  | .put item :: rest => some { s.resume t rest with cerr := s.cerr.put item }
  | .unlock :: rest => some { s.resume t rest with holder := none }
  | .store ll :: rest => some { s.resume t rest with level := ll }

end Logger

end MonitoringDemos.Common
