/-! Labelled transition systems: runs, their invariants, and the runs all of whose steps
meet a condition. A system is a relation; where it is a partial function of the
state and the label, its runs can be executed. -/
namespace MonitoringDemos.Transition
variable {S L : Type} {step : S → L → S → Prop}

inductive Run (step : S → L → S → Prop) : S → List L → S → Prop where
  | stay (s : S) : Run step s [] s
  | next : step s l t → Run step t ls u → Run step s (l :: ls) u

namespace Run

/-- What every step preserves, every run preserves. -/
theorem invariant {P : S → Prop} (preserves : ∀ s l t, P s → step s l t → P t)
    (run : Run step s ls t) (start : P s) : P t := by
  induction run with
  | stay => exact start
  | next head _ ih => exact ih (preserves _ _ _ start head)

theorem append (first : Run step s ls t) (second : Run step t more u) :
    Run step s (ls ++ more) u := by
  induction first with
  | stay => exact second
  | next head _ ih => exact .next head (ih second)

/-- A system that can do more has the same runs, and others. -/
theorem mono {step' : S → L → S → Prop} (included : ∀ s l t, step s l t → step' s l t)
    (run : Run step s ls t) : Run step' s ls t := by
  induction run with
  | stay s => exact .stay s
  | next head _ ih => exact .next (included _ _ _ head) ih

/-- A step that is matched by the steps of another system, none or several. -/
theorem simulation {S' L' : Type} {step' : S' → L' → S' → Prop} {Matches : S → S' → Prop}
    (simulates : ∀ s l t s', Matches s s' → step s l t →
      ∃ ls' t', Run step' s' ls' t' ∧ Matches t t')
    (run : Run step s ls t) {s' : S'} (start : Matches s s') :
    ∃ ls' t', Run step' s' ls' t' ∧ Matches t t' := by
  induction run generalizing s' with
  | stay => exact ⟨[], s', .stay s', start⟩
  | next head _ ih =>
    obtain ⟨_, middle, first, matched⟩ := simulates _ _ _ _ start head
    obtain ⟨_, last, second, related⟩ := ih matched
    exact ⟨_, last, first.append second, related⟩

end Run

/-- The steps that meet a condition on the state before them. -/
def restrict (step : S → L → S → Prop) (guard : S → L → Prop) (s : S) (l : L) (t : S) : Prop :=
  guard s l ∧ step s l t

/-- The relation of an executable step; `none` when the label is not enabled. -/
def stepOf (f : S → L → Option S) (s : S) (l : L) (t : S) : Prop := f s l = some t

def exec (f : S → L → Option S) : S → List L → Option S
  | s, [] => some s
  | s, l :: ls => (f s l).bind fun t => exec f t ls

theorem exec_run {f : S → L → Option S} (executed : exec f s ls = some t) :
    Run (stepOf f) s ls t := by
  induction ls generalizing s with
  | nil =>
    cases executed
    exact .stay _
  | cons l ls ih =>
    obtain ⟨middle, first, rest⟩ := Option.bind_eq_some_iff.mp executed
    exact .next first (ih rest)

end MonitoringDemos.Transition
