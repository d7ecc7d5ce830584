import Mathlib.Data.Multiset.AddSub

/-! Resources that a trace of events obtains and releases. What is held is a multiset, so
that resources may carry equal names. -/
namespace MonitoringDemos.Ledger

variable {α : Type} [DecidableEq α]

inductive Event (α : Type) where
  | obtain (resource : α)
  | release (resource : α)
  deriving DecidableEq, Repr

/-- What is held behind the events, unless one of them releases what is not held. -/
def settle : Multiset α → List (Event α) → Option (Multiset α)
  | held, [] => some held
  | held, .obtain resource :: rest => settle (resource ::ₘ held) rest
  | held, .release resource :: rest =>
    if resource ∈ held then settle (held.erase resource) rest else none

/-- Every resource is released once after it has been obtained, and no other one. -/
def Balanced (events : List (Event α)) : Prop := settle 0 events = some 0

theorem settle_append (held : Multiset α) (first second : List (Event α)) :
    settle held (first ++ second) = (settle held first).bind (settle · second) := by
  induction first generalizing held with
  | nil => rfl
  | cons event rest ih =>
    cases event with
    | obtain resource => exact ih _
    | release resource =>
      rw [List.cons_append, settle, settle]
      split
      · exact ih _
      · rfl

/-- A release of something that was held in front of it. -/
theorem settle_release (resource : α) (held : Multiset α) :
    settle (resource ::ₘ held) [.release resource] = some held := by
  rw [settle, if_pos (Multiset.mem_cons_self resource held), Multiset.erase_cons_head, settle]

def obtained (events : List (Event α)) : List α :=
  events.filterMap fun
    | .obtain resource => some resource
    | .release _ => none

def released (events : List (Event α)) : List α :=
  events.filterMap fun
    | .obtain _ => none
    | .release resource => some resource

/-- What is held at the start and obtained later is released or held at the end. -/
theorem settle_accounts {held : Multiset α} (settled : settle held events = some left) :
    held + (obtained events : Multiset α) = left + (released events : Multiset α) := by
  induction events generalizing held with
  | nil =>
    cases settled
    rfl
  | cons event rest ih =>
    cases event with
    | obtain resource =>
      have later := ih settled
      rw [Multiset.cons_add, ← Multiset.add_cons] at later
      exact later
    | release resource =>
      rw [settle] at settled
      split at settled
      · rename_i member
        have later := ih settled
        calc held + (obtained rest : Multiset α)
          _ = (resource ::ₘ held.erase resource) + (obtained rest : Multiset α) := by
            rw [Multiset.cons_erase member]
          _ = resource ::ₘ (left + (released rest : Multiset α)) := by
            rw [Multiset.cons_add, later]
          _ = left + (resource ::ₘ (released rest : Multiset α)) :=
            (Multiset.add_cons resource left _).symm
      · contradiction

/-- A balanced trace releases what it obtains, each resource as often. -/
theorem Balanced.perm {events : List (Event α)} (balanced : Balanced events) :
    (released events).Perm (obtained events) := by
  have accounts := settle_accounts balanced
  rw [Multiset.zero_add, Multiset.zero_add] at accounts
  exact Multiset.coe_eq_coe.mp accounts.symm

end MonitoringDemos.Ledger
