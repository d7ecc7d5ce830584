import MonitoringDemos.Bytes

/-! Text built up in a block of memory: runs of bytes written one behind the other, and
the C string that stands there afterwards. -/
namespace MonitoringDemos.Writes
open Bytes

/-- A run of bytes with the index of its first one. -/
abbrev Write := Nat × List UInt8

/-- Each byte of the run goes to an index below the size of the block. -/
def Write.Inside (size : Nat) (w : Write) : Prop := ∀ i < w.2.length, w.1 + i < size

def write (mem : Memory) (w : Write) : Memory :=
  fun k => if k < w.1 then mem k else w.2.getD (k - w.1) (mem k)

def writeAll (mem : Memory) (ws : List Write) : Memory := ws.foldl write mem

theorem write_below (mem : Memory) (below : k < w.1) : write mem w k = mem k := if_pos below

theorem stored_below (mem : Memory) {w : Write} (below : addr + bytes.length ≤ w.1) :
    Stored (write mem w) addr bytes ↔ Stored mem addr bytes := by
  induction bytes generalizing addr with
  | nil => rfl
  | cons byte rest ih =>
    rw [List.length_cons] at below
    rw [Stored, Stored, write_below mem (by omega), ih (by omega)]

theorem stored_write (mem : Memory) (addr : Nat) (bytes : List UInt8) :
    Stored (write mem (addr, bytes)) addr bytes := by
  apply stored_shift
  intro k inside
  rw [write, if_neg (by simp), Nat.add_sub_cancel_left]
  simp [List.getD_eq_getElem?_getD, List.getElem?_eq_getElem inside]

/-! ### Consecutive writes -/

/-- The runs follow each other without a gap and make up the text. -/
inductive Spells : Nat → List Write → List UInt8 → Prop where
  | nil : Spells addr [] []
  | cons {bytes : List UInt8} : Spells (addr + bytes.length) ws text →
      Spells addr ((addr, bytes) :: ws) (bytes ++ text)

namespace Spells

theorem append (first : Spells addr ws text) (second : Spells (addr + text.length) ws' text') :
    Spells addr (ws ++ ws') (text ++ text') := by
  induction first with
  | nil => exact second
  | cons _ ih =>
    rw [List.length_append, ← Nat.add_assoc] at second
    rw [List.append_assoc]
    exact .cons (ih second)

theorem single (addr : Nat) (bytes : List UInt8) : Spells addr [(addr, bytes)] bytes := by
  have one : Spells addr [(addr, bytes)] (bytes ++ []) := .cons .nil
  rwa [List.append_nil] at one

theorem inside (spells : Spells addr ws text) (room : addr + text.length ≤ size) :
    ∀ w ∈ ws, Write.Inside size w := by
  induction spells with
  | nil => nofun
  | cons _ ih =>
    rw [List.length_append, ← Nat.add_assoc] at room
    intro w member
    rcases List.mem_cons.mp member with rfl | later
    · intro i small
      simp only at small ⊢
      omega
    · exact ih room w later

theorem stored_before (spells : Spells addr ws text) (mem : Memory) (room : start + bytes.length ≤ addr) :
    Stored (writeAll mem ws) start bytes ↔ Stored mem start bytes := by
  induction spells generalizing mem with
  | nil => rfl
  | @cons addr _ _ run _ ih =>
    exact (ih (write mem (addr, run)) (by omega)).trans (stored_below mem room)

theorem stored (spells : Spells addr ws text) (mem : Memory) : Stored (writeAll mem ws) addr text := by
  induction spells generalizing mem with
  | nil => trivial
  | @cons addr _ _ bytes rest ih =>
    rw [stored_append]
    exact ⟨(rest.stored_before _ (Nat.le_refl _)).mpr (stored_write mem addr bytes), ih _⟩

end Spells

/-! ### Terminated text -/

/-- A C string of exactly this text stands at the address. -/
def Holds (mem : Memory) (addr : Nat) (text : List UInt8) : Prop :=
  Stored mem addr (text ++ [0]) ∧ 0 ∉ text

theorem writeAll_concat (mem : Memory) (ws : List Write) (w : Write) :
    writeAll mem (ws ++ [w]) = write (writeAll mem ws) w := List.foldl_concat ..

/-- A last NUL behind the text. -/
theorem holds_terminated {ws : List Write} (stored : Stored (writeAll mem ws) addr text)
    (proper : 0 ∉ text) : Holds (writeAll mem (ws ++ [(addr + text.length, [0])])) addr text := by
  refine ⟨?_, proper⟩
  rw [writeAll_concat, stored_append]
  exact ⟨(stored_below _ (Nat.le_refl _)).mpr stored, stored_write _ _ _⟩

/-- The text is what stands before the first NUL. -/
theorem Holds.length_le (first : Holds mem addr text) (second : Holds mem addr text') :
    text.length ≤ text'.length := by
  by_contra longer
  have inside : text'.length < text.length := by omega
  have ended : mem (addr + text'.length) = 0 := ((stored_append.mp second.1).2).1
  have char := stored_getD (stored_append.mp first.1).1 inside 0
  rw [ended, List.getD_eq_getElem?_getD, List.getElem?_eq_getElem inside] at char
  exact first.2 (by rw [char]; exact List.getElem_mem inside)

theorem Holds.unique (first : Holds mem addr text) (second : Holds mem addr text') :
    text = text' := by
  have length := Nat.le_antisymm (first.length_le second) (second.length_le first)
  exact stored_unique (stored_append.mp first.1).1 (stored_append.mp second.1).1 length

/-! ### C strings in a block -/

/-- The text up to the first NUL of a block. -/
def cString (mem : Memory) (size : Nat) : List UInt8 :=
  ((List.range size).map mem).takeWhile (· ≠ 0)

theorem cString_holds {mem : Memory} (holds : Holds mem 0 text) (inside : text.length < size) :
    cString mem size = text := by
  obtain ⟨stored, plain⟩ := holds
  obtain ⟨k, rfl⟩ := Nat.exists_eq_add_of_lt inside
  have front : (List.range (text.length + 1)).map mem = text ++ [0] := by
    apply List.ext_getElem
    · simp
    · intro i short inside
      have char := stored_getD stored inside 0
      rw [Nat.zero_add, List.getD_eq_getElem?_getD, List.getElem?_eq_getElem inside] at char
      simpa using char
  have other : ∀ c ∈ text, decide (c ≠ 0) = true := by
    intro c member
    exact decide_eq_true fun zero => plain (zero ▸ member)
  rw [cString, Nat.add_right_comm, List.range_add, List.map_append, front, List.append_assoc,
    List.takeWhile_append_of_pos other]
  simp

/-- The index of the NUL; `none` when there is none in the block. -/
def strlen (mem : Memory) (size : Nat) : Option Nat := (List.range size).find? fun k => mem k = 0

/-- `none` when the search or the copy would leave the block. -/
def strcat (mem : Memory) (size : Nat) (src : List UInt8) : Option Memory :=
  match strlen mem size with
  | none => none
  | some end_ => if end_ + src.length < size then some (write mem (end_, src ++ [0])) else none

theorem holds_at {mem : Memory} (holds : Holds mem 0 text) (inside : k < text.length) : mem k ≠ 0 := by
  have char := stored_getD (stored_append.mp holds.1).1 inside 0
  rw [Nat.zero_add, List.getD_eq_getElem?_getD, List.getElem?_eq_getElem inside] at char
  intro zero
  exact holds.2 (List.mem_iff_getElem.mpr ⟨k, inside, char.symm.trans zero⟩)

theorem strlen_holds {mem : Memory} (holds : Holds mem 0 text) (inside : text.length < size) :
    strlen mem size = some text.length := by
  have ended : mem text.length = 0 := by
    have last := (stored_append.mp holds.1).2.1
    rwa [Nat.zero_add] at last
  rw [strlen, List.find?_range_eq_some]
  refine ⟨decide_eq_true ended, List.mem_range.mpr inside, fun k before => ?_⟩
  simpa using holds_at holds before

/-- A plain text behind the one that stands in the block. -/
theorem strcat_holds {mem : Memory} (holds : Holds mem 0 text) (plain : 0 ∉ src)
    (room : text.length + src.length < size) : ∃ mem', strcat mem size src = some mem' ∧
      Holds mem' 0 (text ++ src) ∧ ∀ k, size ≤ k → mem' k = mem k := by
  have length : strlen mem size = some text.length := strlen_holds holds (by omega)
  refine ⟨_, by rw [strcat, length]; exact if_pos room, ⟨?_, ?_⟩, ?_⟩
  · rw [List.append_assoc, stored_append, Nat.zero_add]
    refine ⟨(stored_below mem ?_).mpr (stored_append.mp holds.1).1, stored_write mem _ _⟩
    exact Nat.le_of_eq (Nat.zero_add _)
  · exact fun member => (List.mem_append.mp member).elim holds.2 plain
  · intro k outside
    have behind : ¬ k < text.length := by omega
    rw [write, if_neg behind, List.getD_eq_default]
    rw [List.length_append, List.length_singleton]
    omega

end MonitoringDemos.Writes
