import Mathlib.Data.List.Infix

/-! Byte strings: the first occurrence of a pattern, as `std::string::find` and
`strstr` search for it. -/
namespace MonitoringDemos.Text

/-- The position of the first occurrence of `pat`. -/
def find [DecidableEq α] (pat : List α) : List α → Option Nat
  | [] => if pat = [] then some 0 else none
  | c :: rest => if pat <+: c :: rest then some 0 else (find pat rest).map (· + 1)

theorem find_isSome [DecidableEq α] (pat str : List α) :
    (find pat str).isSome = true ↔ pat <:+: str := by
  induction str with
  | nil =>
    rw [find, List.infix_nil]
    split
    · exact ⟨fun _ => by assumption, fun _ => rfl⟩
    · exact ⟨nofun, fun empty => absurd empty (by assumption)⟩
  | cons c rest ih =>
    rw [find, List.infix_cons_iff]
    by_cases here : pat <+: c :: rest
    · rw [if_pos here]
      exact ⟨fun _ => Or.inl here, fun _ => rfl⟩
    · rw [if_neg here, Option.isSome_map, ih]
      exact ⟨Or.inr, fun found => found.resolve_left here⟩

/-- The bytes of an ASCII literal. -/
def ascii (s : String) : List UInt8 := s.toList.map fun c => UInt8.ofNat c.toNat

end MonitoringDemos.Text
