import MonitoringDemos.Ledger
import MonitoringDemos.Kauth.Listener

/-! The runs of an invocation: the kernel calls it makes, each with what the kernel
answered. Any answer is possible. Asserts are calls without an effect, as a release kernel
compiles them out. -/
namespace MonitoringDemos.Kauth
open Ledger

/-- A kernel call and its answer. -/
inductive Call where
  | assert (holds : Bool)
  | osMalloc (size : Nat) (block : Option Nat)
  | osFree (block size : Nat)
  | vnGetpath (vp : Vnode) (block : Nat) (err : Int32) (path : List UInt8)
  deriving DecidableEq, Repr

/-- The program can make these calls and then has this result. -/
def Prog.Runs : Prog α → List Call → α → Prop
  | .ret a, calls, result => calls = [] ∧ a = result
  | .assert holds next, calls, result =>
    ∃ later, calls = .assert holds :: later ∧ next.Runs later result
  | .osMalloc size next, calls, result =>
    ∃ block later, calls = .osMalloc size block :: later ∧ (next block).Runs later result
  | .osFree block size next, calls, result =>
    ∃ later, calls = .osFree block size :: later ∧ next.Runs later result
  | .vnGetpath vp block next, calls, result =>
    ∃ err path later, calls = .vnGetpath vp block err path :: later ∧
      (next err path).Runs later result

theorem runs_bind {p : Prog α} {f : α → Prog β} (runs : (p >>= f).Runs calls result) :
    ∃ first later a, calls = first ++ later ∧ p.Runs first a ∧ (f a).Runs later result := by
  induction p generalizing calls with
  | ret a => exact ⟨[], calls, a, rfl, ⟨rfl, rfl⟩, runs⟩
  | assert holds next ih =>
    obtain ⟨rest, rfl, runs⟩ := runs
    obtain ⟨first, later, a, rfl, one, two⟩ := ih runs
    exact ⟨_ :: first, later, a, rfl, ⟨first, rfl, one⟩, two⟩
  | osMalloc size next ih =>
    obtain ⟨block, rest, rfl, runs⟩ := runs
    obtain ⟨first, later, a, rfl, one, two⟩ := ih block runs
    exact ⟨_ :: first, later, a, rfl, ⟨block, first, rfl, one⟩, two⟩
  | osFree block size next ih =>
    obtain ⟨rest, rfl, runs⟩ := runs
    obtain ⟨first, later, a, rfl, one, two⟩ := ih runs
    exact ⟨_ :: first, later, a, rfl, ⟨first, rfl, one⟩, two⟩
  | vnGetpath vp block next ih =>
    obtain ⟨err, path, rest, rfl, runs⟩ := runs
    obtain ⟨first, later, a, rfl, one, two⟩ := ih err path runs
    exact ⟨_ :: first, later, a, rfl, ⟨err, path, first, rfl, one⟩, two⟩

theorem runs_append {p : Prog α} {f : α → Prog β} (one : p.Runs first a)
    (two : (f a).Runs later result) : (p >>= f).Runs (first ++ later) result := by
  induction p generalizing first with
  | ret b =>
    obtain ⟨rfl, rfl⟩ := one
    exact two
  | assert holds next ih =>
    obtain ⟨rest, rfl, one⟩ := one
    exact ⟨_, rfl, ih one⟩
  | osMalloc size next ih =>
    obtain ⟨block, rest, rfl, one⟩ := one
    exact ⟨block, _, rfl, ih block one⟩
  | osFree block size next ih =>
    obtain ⟨rest, rfl, one⟩ := one
    exact ⟨_, rfl, ih one⟩
  | vnGetpath vp block next ih =>
    obtain ⟨err, path, rest, rfl, one⟩ := one
    exact ⟨err, path, _, rfl, ih err path one⟩

/-! ### The books -/

/-- What a call does to the blocks that are held, each a pair of address and size. -/
def Call.event : Call → Option (Event (Nat × Nat))
  | .osMalloc size (some block) => some (.obtain (block, size))
  | .osFree block size => some (.release (block, size))
  | _ => none

def events (calls : List Call) : List (Event (Nat × Nat)) := calls.filterMap Call.event

@[simp] theorem events_append (first second : List Call) :
    events (first ++ second) = events first ++ events second := List.filterMap_append

end MonitoringDemos.Kauth
