import Mathlib.Data.Set.Lattice
import Mathlib.Order.Interval.Set.LinearOrder

/-! Ranges of positions that follow one another without a gap. -/
namespace MonitoringDemos.Tiling

structure Range where
  start : Nat
  length : Nat
  deriving DecidableEq, Repr

def Range.stop (range : Range) : Nat := range.start + range.length

theorem Range.start_le (range : Range) : range.start ≤ range.stop := Nat.le_add_right _ _

/-- Each range starts where the one before it stops. -/
inductive Tiles : Nat → List Range → Nat → Prop where
  | nil (position : Nat) : Tiles position [] position
  | cons (range : Range) : Tiles range.stop rest stop → Tiles range.start (range :: rest) stop

namespace Tiles

theorem append (first : Tiles start ranges middle) (second : Tiles middle more stop) :
    Tiles start (ranges ++ more) stop := by
  induction first with
  | nil => exact second
  | cons range _ ih => exact .cons range (ih second)

theorem snoc (first : Tiles start ranges stop) (length : Nat) :
    Tiles start (ranges ++ [⟨stop, length⟩]) (stop + length) :=
  first.append (.cons ⟨stop, length⟩ (.nil _))

theorem le (tiles : Tiles start ranges stop) : start ≤ stop := by
  induction tiles with
  | nil => exact Nat.le_refl _
  | cons range _ ih => exact Nat.le_trans range.start_le ih

/-- The positions of the ranges are those from the start to the stop. -/
theorem cover (tiles : Tiles start ranges stop) :
    (⋃ range ∈ ranges, Set.Ico range.start range.stop) = Set.Ico start stop := by
  induction tiles with
  | nil => simp
  | cons range rest ih =>
    simp only [List.mem_cons, Set.iUnion_iUnion_eq_or_left, ih]
    exact Set.Ico_union_Ico_eq_Ico range.start_le rest.le

theorem starts_behind (tiles : Tiles start ranges stop) : ∀ range ∈ ranges, start ≤ range.start := by
  induction tiles with
  | nil => nofun
  | cons range _ ih =>
    refine List.forall_mem_cons.mpr ⟨Nat.le_refl _, fun later member => ?_⟩
    exact Nat.le_trans range.start_le (ih later member)

/-- No two of the ranges overlap. -/
theorem pairwise (tiles : Tiles start ranges stop) :
    ranges.Pairwise fun range later => range.stop ≤ later.start := by
  induction tiles with
  | nil => exact .nil
  | cons range rest ih => exact .cons rest.starts_behind ih

end Tiles

end MonitoringDemos.Tiling
