import Mathlib.Algebra.BigOperators.Group.Finset.Piecewise
import MonitoringDemos.Ledger

/-! Traces of several parties that act in turns: the part of each, and what all of them
hold together. -/
namespace MonitoringDemos.Interleaving
open Ledger
variable {ι α β : Type}

/-- The trace of what the steps of another one amount to. -/
def view (f : α → Option β) (trace : List (ι × α)) : List (ι × β) :=
  trace.filterMap fun made => (f made.2).map (made.1, ·)

theorem map_view (f : α → Option β) (trace : List (ι × α)) :
    (view f trace).map Prod.snd = (trace.map Prod.snd).filterMap f := by
  rw [view, List.map_filterMap, List.filterMap_map]
  congr 1
  funext made
  cases found : f made.2 <;> simp [found]

theorem view_tags {f : α → Option β} {trace : List (ι × α)} {P : ι → Prop}
    (tags : ∀ made ∈ trace, P made.1) : ∀ made ∈ view f trace, P made.1 := by
  intro made member
  obtain ⟨source, listed, found⟩ := List.mem_filterMap.mp member
  obtain ⟨_, _, rfl⟩ := Option.map_eq_some_iff.mp found
  exact tags source listed

variable [DecidableEq ι]

/-- What a party has contributed to a trace. -/
def own (i : ι) (trace : List (ι × α)) : List α :=
  trace.filterMap fun made => if made.1 = i then some made.2 else none

@[simp] theorem own_append (i : ι) (first second : List (ι × α)) :
    own i (first ++ second) = own i first ++ own i second := List.filterMap_append

theorem own_cons (i : ι) (a : α) (trace : List (ι × α)) :
    own i ((i, a) :: trace) = a :: own i trace := by
  simp [own]

theorem own_cons_other {i j : ι} (apart : i ≠ j) (a : α) (trace : List (ι × α)) :
    own j ((i, a) :: trace) = own j trace := by
  simp [own, apart]

theorem own_concat (i : ι) (trace : List (ι × α)) (a : α) :
    own i (trace ++ [(i, a)]) = own i trace ++ [a] := by
  simp [own]

theorem own_concat_other {i j : ι} (apart : i ≠ j) (trace : List (ι × α)) (a : α) :
    own j (trace ++ [(i, a)]) = own j trace := by
  simp [own, apart]

/-- Who is not among the parties has contributed nothing. -/
theorem own_outside {i : ι} {trace : List (ι × α)} (outside : ∀ made ∈ trace, made.1 ≠ i) :
    own i trace = [] := by
  apply List.filterMap_eq_nil_iff.mpr
  intro made member
  exact if_neg (outside made member)

theorem own_view (f : α → Option β) (i : ι) (trace : List (ι × α)) :
    own i (view f trace) = (own i trace).filterMap f := by
  rw [own, own, view, List.filterMap_filterMap, List.filterMap_filterMap]
  congr 1
  funext made
  by_cases mine : made.1 = i
  · cases found : f made.2 <;> simp [mine, found]
  · cases found : f made.2 <;> simp [mine]

variable [DecidableEq α]

/-- Parties that settle their own accounts settle the common one, however their turns are
interleaved: what they hold together is the sum of what each of them holds. -/
theorem settle_interleaved {trace : List (ι × Event α)} {held left : ι → Multiset α}
    {parties : Finset ι} (inside : ∀ made ∈ trace, made.1 ∈ parties)
    (settled : ∀ i ∈ parties, settle (held i) (own i trace) = some (left i)) :
    settle (∑ i ∈ parties, held i) (trace.map Prod.snd) = some (∑ i ∈ parties, left i) := by
  induction trace generalizing held with
  | nil =>
    have same : ∑ i ∈ parties, held i = ∑ i ∈ parties, left i :=
      Finset.sum_congr rfl fun i member => Option.some.inj (settled i member)
    rw [List.map_nil, settle, same]
  | cons made rest ih =>
    obtain ⟨j, event⟩ := made
    have member : j ∈ parties := inside _ List.mem_cons_self
    have later := fun made listed => inside made (List.mem_cons_of_mem _ listed)
    have mine := settled j member
    rw [own_cons] at mine
    -- the account of `j` moves on, the others stay as they are
    have others : ∀ account, settle account (own j rest) = some (left j) →
        ∀ i ∈ parties, settle (Function.update held j account i) (own i rest) = some (left i) := by
      intro account moved i listed
      by_cases same : i = j
      · subst same
        rw [Function.update_self]
        exact moved
      · rw [Function.update_of_ne same, ← own_cons_other (Ne.symm same) event]
        exact settled i listed
    have total := Finset.add_sum_erase parties held member
    have moves : ∀ account, ∑ i ∈ parties, Function.update held j account i =
        account + ∑ i ∈ parties.erase j, held i := by
      intro account
      rw [Finset.sum_update_of_mem member, Finset.sdiff_singleton_eq_erase]
    cases event with
    | obtain resource =>
      have settles := ih later (others _ mine)
      rw [moves, Multiset.cons_add, total] at settles
      exact settles
    | release resource =>
      rw [settle] at mine
      split at mine
      · rename_i owned
        have settles := ih later (others _ mine)
        have listed : resource ∈ ∑ i ∈ parties, held i := by
          rw [← total]
          exact Multiset.mem_add.mpr (.inl owned)
        rw [moves] at settles
        rw [List.map_cons, settle, if_pos listed, ← total, Multiset.erase_add_left_pos _ owned]
        exact settles
      · contradiction

end MonitoringDemos.Interleaving
