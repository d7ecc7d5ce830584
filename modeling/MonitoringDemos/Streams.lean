import Mathlib.Data.Nat.Digits.Lemmas
import MonitoringDemos.Text

/-! Formatted output: a stream remembers the base in which it prints numbers, and what is
inserted may change that base for everything behind it. -/
namespace MonitoringDemos.Streams
open Text

/-! ### Numbers -/

inductive Base where
  | dec | hex
  deriving DecidableEq, Repr

def Base.radix : Base → Nat
  | .dec => 10
  | .hex => 16

def digitChar (digit : Nat) : UInt8 := UInt8.ofNat (if digit < 10 then 0x30 + digit else 0x57 + digit)

def digitValue (c : UInt8) : Nat := if c.toNat < 0x3a then c.toNat - 0x30 else c.toNat - 0x57

/-- The digits of a number, the first one for the highest power. -/
def digits (base : Base) (n : Nat) : List UInt8 :=
  if n = 0 then [digitChar 0] else ((Nat.digits base.radix n).map digitChar).reverse

/-- The number that a string of digits stands for. -/
def digitsValue (base : Base) (text : List UInt8) : Nat :=
  Nat.ofDigits base.radix (text.map digitValue).reverse

theorem digitValue_digitChar (small : digit < 16) : digitValue (digitChar digit) = digit := by
  have fixed : ∀ digit < 16, digitValue (digitChar digit) = digit := by decide
  exact fixed digit small

theorem Base.radix_le (base : Base) : base.radix ≤ 16 := by cases base <;> decide

theorem Base.one_lt_radix (base : Base) : 1 < base.radix := by cases base <;> decide

/-- Reading the digits of a number gives the number back. -/
theorem digitsValue_digits (base : Base) (n : Nat) : digitsValue base (digits base n) = n := by
  by_cases zero : n = 0
  · rw [zero]
    cases base <;> rfl
  · have own : ∀ digit ∈ Nat.digits base.radix n, (digitValue ∘ digitChar) digit = id digit := by
      intro digit member
      have small := Nat.digits_lt_base base.one_lt_radix member
      exact digitValue_digitChar (Nat.lt_of_lt_of_le small base.radix_le)
    rw [digitsValue, digits, if_neg zero, List.map_reverse, List.reverse_reverse, List.map_map,
      List.map_congr_left own, List.map_id, Nat.ofDigits_digits]

theorem digits_of_lt (small : n < 16) : digits .hex n = [digitChar n] := by
  by_cases zero : n = 0
  · rw [zero]
    rfl
  · rw [digits, if_neg zero]
    change ((Nat.digits 16 n).map digitChar).reverse = _
    rw [Nat.digits_of_lt 16 n zero small]
    rfl

/-- A number of a type with `width` bits. -/
structure Number where
  value : Int
  width : Nat
  deriving DecidableEq, Repr

/-- A sign is printed in decimal only; in hexadecimal the bits are. -/
def Number.text (number : Number) : Base → List UInt8
  | .dec =>
    if number.value < 0 then ascii "-" ++ digits .dec number.value.natAbs
    else digits .dec number.value.natAbs
  | .hex => digits .hex (number.value % 2 ^ number.width).toNat

/-- The number that a decimal text with an optional sign stands for. -/
def readDec : List UInt8 → Int
  | [] => 0
  | c :: rest =>
    if c = 0x2d then -(digitsValue .dec rest : Int) else digitsValue .dec (c :: rest)

theorem digitChar_ne_minus (small : digit < 16) : digitChar digit ≠ 0x2d := by
  have fixed : ∀ digit < 16, digitChar digit ≠ 0x2d := by decide
  exact fixed digit small

theorem readDec_digits (n : Nat) : readDec (digits .dec n) = n := by
  have plain : ∀ c ∈ digits .dec n, c ≠ 0x2d := by
    intro c member
    rw [digits] at member
    split at member
    · rw [List.mem_singleton.mp member]
      exact digitChar_ne_minus (by decide)
    · obtain ⟨digit, inside, rfl⟩ := List.mem_map.mp (List.mem_reverse.mp member)
      have small := Nat.digits_lt_base Base.dec.one_lt_radix inside
      exact digitChar_ne_minus (Nat.lt_of_lt_of_le small Base.dec.radix_le)
  have value := digitsValue_digits .dec n
  cases text : digits .dec n with
  | nil =>
    rw [text] at value
    rw [← value]
    rfl
  | cons c rest =>
    rw [text] at plain value
    rw [readDec, if_neg (plain c List.mem_cons_self), value]

/-- A number that is printed in decimal can be read back, whatever its sign. -/
theorem readDec_text (number : Number) : readDec (number.text .dec) = number.value := by
  rw [Number.text]
  split
  · have minus : ascii "-" ++ digits .dec number.value.natAbs =
        0x2d :: digits .dec number.value.natAbs := rfl
    rw [minus, readDec, if_pos rfl, digitsValue_digits]
    omega
  · rw [readDec_digits]
    omega

/-! ### Streams -/

structure Stream where
  text : List UInt8
  base : Base
  deriving DecidableEq, Repr

/-- What `operator <<` inserts. -/
inductive Item where
  | text (bytes : List UInt8)
  | number (number : Number)
  /-- `std::dec` or `std::hex`. -/
  | base (base : Base)
  deriving DecidableEq, Repr

/-- `std::endl`. -/
def endl : Item := .text (ascii "\n")

namespace Stream

def put (out : Stream) : Item → Stream
  | .text bytes => { out with text := out.text ++ bytes }
  | .number number => { out with text := out.text ++ number.text out.base }
  | .base base => { out with base }

def putAll (out : Stream) (items : List Item) : Stream := items.foldl put out

end Stream

/-- The text that the items add to a stream which prints in `base`. -/
def rendered (base : Base) (items : List Item) : List UInt8 := (Stream.putAll ⟨[], base⟩ items).text

/-- The base that they leave behind. -/
def left (base : Base) (items : List Item) : Base := (Stream.putAll ⟨[], base⟩ items).base

theorem putAll_eq (out : Stream) (items : List Item) :
    out.putAll items = ⟨out.text ++ rendered out.base items, left out.base items⟩ := by
  have shifted : ∀ (items : List Item) (base : Base) (front text : List UInt8),
      Stream.putAll ⟨front ++ text, base⟩ items =
        ⟨front ++ (Stream.putAll ⟨text, base⟩ items).text, (Stream.putAll ⟨text, base⟩ items).base⟩ := by
    intro items
    induction items with
    | nil => exact fun _ _ _ => rfl
    | cons item rest ih =>
      intro base front text
      simp only [Stream.putAll, List.foldl_cons]
      cases item with
      | text bytes =>
        rw [Stream.put, Stream.put, List.append_assoc]
        exact ih base front _
      | number number =>
        rw [Stream.put, Stream.put, List.append_assoc]
        exact ih base front _
      | base next => exact ih next front text
  have empty := shifted items out.base out.text []
  rwa [List.append_nil] at empty

theorem putAll_append (out : Stream) (first second : List Item) :
    out.putAll (first ++ second) = (out.putAll first).putAll second := List.foldl_append

theorem rendered_append (base : Base) (first second : List Item) :
    rendered base (first ++ second) = rendered base first ++ rendered (left base first) second := by
  rw [rendered, putAll_append, putAll_eq]
  rfl

theorem left_append (base : Base) (first second : List Item) :
    left base (first ++ second) = left (left base first) second := by
  rw [left, putAll_append, putAll_eq]
  rfl

theorem rendered_text (base : Base) (bytes : List UInt8) (rest : List Item) :
    rendered base (.text bytes :: rest) = bytes ++ rendered base rest :=
  rendered_append base [.text bytes] rest

theorem rendered_number (base : Base) (number : Number) (rest : List Item) :
    rendered base (.number number :: rest) = number.text base ++ rendered base rest :=
  rendered_append base [.number number] rest

theorem rendered_base (base next : Base) (rest : List Item) :
    rendered base (.base next :: rest) = rendered next rest :=
  rendered_append base [.base next] rest

/-! ### Items that keep the base -/

/-- A stream that prints in decimal does so again behind the items. -/
def Restoring (items : List Item) : Prop := left .dec items = .dec

instance (items : List Item) : Decidable (Restoring items) :=
  inferInstanceAs (Decidable (left .dec items = .dec))

theorem Restoring.append (first : Restoring items) (second : Restoring more) :
    Restoring (items ++ more) := by
  rw [Restoring, left_append, first]
  exact second

theorem Restoring.flatMap {α : Type} {items : α → List Item} {entries : List α}
    (each : ∀ entry ∈ entries, Restoring (items entry)) : Restoring (entries.flatMap items) := by
  induction entries with
  | nil => rfl
  | cons entry rest ih =>
    rw [List.flatMap_cons]
    apply Restoring.append (each entry List.mem_cons_self)
    exact ih fun later member => each later (List.mem_cons_of_mem entry member)

theorem rendered_restoring (first : Restoring items) (second : List Item) :
    rendered .dec (items ++ second) = rendered .dec items ++ rendered .dec second := by
  rw [rendered_append, first]

/-- Entries that each keep the base print as if each had been alone. -/
theorem rendered_flatMap {α : Type} {items : α → List Item} {entries : List α}
    (each : ∀ entry ∈ entries, Restoring (items entry)) :
    rendered .dec (entries.flatMap items) = entries.flatMap fun entry => rendered .dec (items entry) := by
  induction entries with
  | nil => rfl
  | cons entry rest ih =>
    obtain ⟨first, later⟩ := List.forall_mem_cons.mp each
    rw [List.flatMap_cons, List.flatMap_cons, rendered_restoring first, ih later]

/-! ### Bytes in hexadecimal -/

/-- Both halves of a byte, as numbers. -/
def halves (byte : UInt8) : List Item :=
  [.number ⟨(byte >>> 4).toNat, 32⟩, .number ⟨(byte &&& 0x0f).toNat, 32⟩]

/-- Both halves, with the base set around them. -/
def hexByte (byte : UInt8) : List Item := .base .hex :: (halves byte ++ [.base .dec])

def hexPair (byte : UInt8) : List UInt8 :=
  [digitChar (byte.toNat / 16), digitChar (byte.toNat % 16)]

/-- The bytes that pairs of hexadecimal digits stand for. -/
def readPairs : List UInt8 → List UInt8
  | high :: low :: rest => UInt8.ofNat (16 * digitValue high + digitValue low) :: readPairs rest
  | _ => []

theorem readPairs_hexPair (bytes : List UInt8) : readPairs (bytes.flatMap hexPair) = bytes := by
  induction bytes with
  | nil => rfl
  | cons byte rest ih =>
    have bound := byte.toNat_lt
    have value : 16 * digitValue (digitChar (byte.toNat / 16)) +
        digitValue (digitChar (byte.toNat % 16)) = byte.toNat := by
      rw [digitValue_digitChar (by omega), digitValue_digitChar (Nat.mod_lt _ (by decide))]
      exact Nat.div_add_mod _ 16
    rw [List.flatMap_cons, hexPair, List.cons_append, List.cons_append, List.nil_append, readPairs,
      value, ih, UInt8.ofNat_toNat]

theorem nibble_text {n : Nat} (small : n < 16) : Number.text ⟨(n : Int), 32⟩ .hex = [digitChar n] := by
  have value : ((n : Int) % 2 ^ 32).toNat = n := by omega
  rw [Number.text, value, digits_of_lt small]

theorem high_nibble (byte : UInt8) : (byte >>> 4).toNat = byte.toNat / 16 := by
  rw [UInt8.toNat_shiftRight]
  exact Nat.shiftRight_eq_div_pow _ 4

theorem low_nibble (byte : UInt8) : (byte &&& 0x0f).toNat = byte.toNat % 16 := by
  rw [UInt8.toNat_and]
  exact Nat.and_two_pow_sub_one_eq_mod _ 4

theorem rendered_halves (byte : UInt8) : rendered .hex (halves byte) = hexPair byte := by
  have bound := byte.toNat_lt
  have high : byte.toNat / 16 < 16 := by omega
  have low : byte.toNat % 16 < 16 := Nat.mod_lt _ (by decide)
  rw [halves, high_nibble, low_nibble, rendered_number, rendered_number, nibble_text high,
    nibble_text low]
  rfl

theorem left_halves (base : Base) (byte : UInt8) : left base (halves byte) = base := rfl

/-- Whatever the base was, the halves print as two hexadecimal digits. -/
theorem rendered_hexByte (base : Base) (byte : UInt8) : rendered base (hexByte byte) = hexPair byte := by
  rw [hexByte, rendered_base, rendered_append, rendered_halves, left_halves]
  exact List.append_nil _

theorem restoring_hexByte (byte : UInt8) : Restoring (hexByte byte) := rfl

theorem rendered_hexBytes (bytes : List UInt8) :
    rendered .dec (bytes.flatMap hexByte) = bytes.flatMap hexPair := by
  rw [rendered_flatMap fun byte _ => restoring_hexByte byte]
  simp only [rendered_hexByte]

/-- Bytes that are inserted while the base stays hexadecimal. -/
theorem hexRun (bytes : List UInt8) : left .hex (bytes.flatMap halves) = .hex ∧
    rendered .hex (bytes.flatMap halves) = bytes.flatMap hexPair := by
  induction bytes with
  | nil => exact ⟨rfl, rfl⟩
  | cons byte rest ih =>
    rw [List.flatMap_cons, List.flatMap_cons, left_append, rendered_append, left_halves,
      rendered_halves]
    exact ⟨ih.1, congrArg (hexPair byte ++ ·) ih.2⟩

/-! ### Insertion that may be given up -/

/-- What is inserted, and the value or the exception behind it. -/
structure Output (ε α : Type) where
  items : List Item
  result : Except ε α

namespace Output
variable {ε α β : Type}

instance : Monad (Output ε) where
  pure value := ⟨[], .ok value⟩
  bind first next :=
    match first.result with
    | .error e => ⟨first.items, .error e⟩
    | .ok value => ⟨first.items ++ (next value).items, (next value).result⟩

def put (items : List Item) : Output ε Unit := ⟨items, .ok ()⟩

/-- A computation that inserts nothing. -/
def call (result : Except ε α) : Output ε α := ⟨[], result⟩

theorem bind_ok {first : Output ε α} (result : first.result = .ok value)
    (next : α → Output ε β) :
    (first >>= next) = ⟨first.items ++ (next value).items, (next value).result⟩ := by
  simp only [Bind.bind, result]

theorem bind_error {first : Output ε α} (result : first.result = .error e)
    (next : α → Output ε β) : (first >>= next) = ⟨first.items, .error e⟩ := by
  simp only [Bind.bind, result]

theorem bind_done (items : List Item) (value : α) (next : α → Output ε β) :
    ((⟨items, .ok value⟩ : Output ε α) >>= next) =
      ⟨items ++ (next value).items, (next value).result⟩ := rfl

theorem bind_stopped (items : List Item) (e : ε) (next : α → Output ε β) :
    ((⟨items, .error e⟩ : Output ε α) >>= next) = ⟨items, .error e⟩ := rfl

theorem id_map (out : Output ε α) : id <$> out = out := by
  obtain ⟨items, _ | value⟩ := out
  · rfl
  · exact congrArg (Output.mk · _) (List.append_nil items)

theorem bind_assoc {γ : Type} (out : Output ε α) (f : α → Output ε β) (g : β → Output ε γ) :
    out >>= f >>= g = out >>= fun value => f value >>= g := by
  obtain ⟨items, _ | value⟩ := out
  · rfl
  · simp only [bind_done]
    cases result : (f value).result with
    | error e => rw [bind_error result, bind_stopped]
    | ok later => rw [bind_ok result, bind_done, List.append_assoc]

instance : LawfulMonad (Output ε) :=
  LawfulMonad.mk' _ id_map (fun _ _ => rfl) bind_assoc

/-- The stream is left in decimal, also by an exception. -/
def Steady (out : Output ε α) : Prop := Restoring out.items

theorem Steady.pure (value : α) : Steady (Pure.pure value : Output ε α) := rfl

theorem Steady.put {inserted : List Item} (restoring : Restoring inserted) :
    Steady (put inserted : Output ε Unit) := restoring

theorem Steady.call (result : Except ε α) : Steady (call result) := rfl

theorem Steady.bind {first : Output ε α} {next : α → Output ε β} (steady : first.Steady)
    (later : ∀ value, (next value).Steady) : (first >>= next).Steady := by
  cases result : first.result with
  | error e =>
    rw [bind_error result]
    exact steady
  | ok value =>
    rw [bind_ok result]
    exact Restoring.append steady (later value)

end Output

end MonitoringDemos.Streams
