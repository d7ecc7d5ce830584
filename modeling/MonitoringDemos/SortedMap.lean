import Mathlib.Data.List.Perm.Basic

/-! A map with ordered keys as the list that an iteration over it visits: `insert` leaves an
entry alone that has the key already. -/
namespace MonitoringDemos.SortedMap

variable {κ β : Type} [LT κ] [DecidableLT κ] [DecidableEq κ]

def insert (entry : κ × β) : List (κ × β) → List (κ × β)
  | [] => [entry]
  | first :: rest =>
    if entry.1 < first.1 then entry :: first :: rest
    else if entry.1 = first.1 then first :: rest
    else first :: insert entry rest

/-- The entries go in one behind the other. -/
def ofList (entries : List (κ × β)) : List (κ × β) :=
  entries.foldl (fun map entry => insert entry map) []

def Sorted (map : List (κ × β)) : Prop := map.Pairwise fun entry later => entry.1 < later.1

theorem mem_insert {entry other : κ × β} {map : List (κ × β)} (member : other ∈ insert entry map) :
    other = entry ∨ other ∈ map := by
  induction map with
  | nil => exact .inl (List.mem_singleton.mp member)
  | cons first rest ih =>
    rw [insert] at member
    split at member
    · exact List.mem_cons.mp member
    · split at member
      · exact .inr member
      · rcases List.mem_cons.mp member with same | later
        · exact .inr (same ▸ List.mem_cons_self)
        · exact (ih later).imp_right (List.mem_cons_of_mem first)

/-- A key that the map does not have. -/
theorem insert_perm {entry : κ × β} {map : List (κ × β)} (new : entry.1 ∉ map.map Prod.fst) :
    (insert entry map).Perm (entry :: map) := by
  induction map with
  | nil => rfl
  | cons first rest ih =>
    rw [List.map_cons] at new
    obtain ⟨different, later⟩ := List.ne_and_not_mem_of_not_mem_cons new
    rw [insert]
    split
    · rfl
    · exact ((ih later).cons first).trans (List.Perm.swap entry first rest)

/-- Entries with different keys are all kept. -/
theorem ofList_perm {entries : List (κ × β)} (distinct : (entries.map Prod.fst).Nodup) :
    (ofList entries).Perm entries := by
  have kept : ∀ (entries map : List (κ × β)), ((map ++ entries).map Prod.fst).Nodup →
      (entries.foldl (fun map entry => insert entry map) map).Perm (map ++ entries) := by
    intro entries
    induction entries with
    | nil => exact fun map _ => by rw [List.append_nil]; rfl
    | cons entry rest ih =>
      intro map distinct
      have moved : (map ++ entry :: rest).Perm (entry :: map ++ rest) := List.perm_middle
      have inserted : entry.1 ∉ map.map Prod.fst := by
        have apart := (moved.map Prod.fst).nodup_iff.mp distinct
        rw [List.cons_append, List.map_cons, List.map_append] at apart
        exact fun member => (List.nodup_cons.mp apart).1 (List.mem_append_left _ member)
      have same : (insert entry map ++ rest).Perm (map ++ entry :: rest) :=
        ((insert_perm inserted).append_right rest).trans moved.symm
      exact (ih _ ((same.map Prod.fst).nodup_iff.mpr distinct)).trans same
  exact kept entries [] distinct

/-! ### Order -/

section Order
variable (trans : ∀ {a b c : κ}, a < b → b < c → a < c)
variable (connected : ∀ {a b : κ}, ¬ a < b → a ≠ b → b < a)
include trans connected

theorem Sorted.insert {map : List (κ × β)} (sorted : Sorted map) (entry : κ × β) :
    Sorted (insert entry map) := by
  induction map with
  | nil => exact List.pairwise_singleton _ _
  | cons first rest ih =>
    obtain ⟨before, later⟩ := List.pairwise_cons.mp sorted
    rw [SortedMap.insert]
    split
    · rename_i smaller
      apply List.pairwise_cons.mpr
      refine ⟨fun other member => ?_, sorted⟩
      rcases List.mem_cons.mp member with same | behind
      · rwa [same]
      · exact trans smaller (before other behind)
    · split
      · exact sorted
      · rename_i notSmaller different
        apply List.pairwise_cons.mpr
        refine ⟨fun other member => ?_, ih later⟩
        rcases mem_insert member with same | behind
        · rw [same]
          exact connected notSmaller different
        · exact before other behind

theorem ofList_sorted (entries : List (κ × β)) : Sorted (ofList entries) := by
  have kept : ∀ (entries map : List (κ × β)), Sorted map →
      Sorted (entries.foldl (fun map entry => insert entry map) map) := by
    intro entries
    induction entries with
    | nil => exact fun _ sorted => sorted
    | cons entry rest ih => exact fun map sorted => ih _ (sorted.insert trans connected entry)
  exact kept entries [] List.Pairwise.nil

end Order

end MonitoringDemos.SortedMap
