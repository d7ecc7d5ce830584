import MonitoringDemos.Flags

/-! Flags by name: the names of the entries of a table that share a bit with the flags, and
what a reader who looks the names up again makes of them. -/
namespace MonitoringDemos.FlagNames
open Flags

variable {α κ : Type} (mask : α → UInt32) (name : α → κ)

def names (table : List α) (flags : UInt32) : List κ :=
  (table.filter fun a => flags &&& mask a ≠ 0).map name

variable {mask name}

theorem names_cons (a : α) (rest : List α) (flags : UInt32) : names mask name (a :: rest) flags =
    if flags &&& mask a ≠ 0 then name a :: names mask name rest flags
    else names mask name rest flags := by
  simp only [names, List.filter_cons, decide_eq_true_eq]
  split <;> rfl

theorem names_sublist (table : List α) (flags : UInt32) :
    (names mask name table flags).Sublist (table.map name) := List.filter_sublist.map name

theorem covered_perm {table table' : List α} (perm : table.Perm table') :
    covered mask table = covered mask table' := by
  apply ext
  intro i
  rw [Bool.eq_iff_iff, bit_covered, bit_covered]
  simp only [perm.mem_iff]

variable [DecidableEq κ] (mask name)

/-- The mask of a name, and no bit for any other key. -/
def lookUp (table : List α) (key : κ) : UInt32 :=
  match table.find? fun a => name a = key with
  | some a => mask a
  | none => 0

/-- The bits that the keys stand for. -/
def named (table : List α) (keys : List κ) : UInt32 := covered (lookUp mask name table) keys

variable {mask name}

theorem lookUp_name {table : List α} (distinct : (table.map name).Nodup) (member : a ∈ table) :
    lookUp mask name table (name a) = mask a := by
  unfold lookUp
  cases found : table.find? fun other => name other = name a with
  | none =>
    have other := List.find?_eq_none.mp found a member
    simp at other
  | some other =>
    have hit : decide (name other = name a) = true := by
      apply List.find?_some found
    have same : other = a := List.inj_on_of_nodup_map distinct (List.mem_of_find?_eq_some found)
      member (of_decide_eq_true hit)
    rw [same]

theorem lookUp_other {table : List α} (other : key ∉ table.map name) :
    lookUp mask name table key = 0 := by
  have none : (table.find? fun a => name a = key) = none := by
    rw [List.find?_eq_none]
    intro a member same
    exact other (List.mem_map.mpr ⟨a, member, of_decide_eq_true same⟩)
  rw [lookUp, none]

/-- A key that is no name adds no bit. -/
theorem named_concat {table : List α} (keys : List κ) (other : key ∉ table.map name) :
    named mask name table (keys ++ [key]) = named mask name table keys := by
  unfold named
  rw [covered_append, covered_cons, lookUp_other other, covered_nil, UInt32.or_zero, UInt32.or_zero]

/-- Reading the names gives back the flags that the table knows, if each mask is a bit of
its own or none. -/
theorem named_names {table : List α} (distinct : (table.map name).Nodup)
    (single : ∀ a ∈ table, mask a = 0 ∨ SingleBit (mask a)) (flags : UInt32) :
    named mask name table (names mask name table flags) = flags &&& covered mask table := by
  apply ext
  intro i
  rw [Bool.eq_iff_iff, named, bit_covered, bit_and, Bool.and_eq_true, bit_covered]
  constructor
  · rintro ⟨key, member, own⟩
    obtain ⟨a, kept, rfl⟩ := List.mem_map.mp member
    obtain ⟨inside, hit⟩ := List.mem_filter.mp kept
    rw [lookUp_name distinct inside] at own
    refine ⟨?_, a, inside, own⟩
    rcases single a inside with zero | bit
    · rw [zero, bit_zero] at own
      contradiction
    · exact bit.bit_of_hit (of_decide_eq_true hit) own
  · rintro ⟨set, a, inside, own⟩
    have hit : flags &&& mask a ≠ 0 := (ne_zero_iff _).mpr ⟨i, by rw [bit_and, set, own]; rfl⟩
    refine ⟨name a, List.mem_map.mpr ⟨a, List.mem_filter.mpr ⟨inside, decide_eq_true hit⟩, rfl⟩, ?_⟩
    rwa [lookUp_name distinct inside]

end MonitoringDemos.FlagNames
