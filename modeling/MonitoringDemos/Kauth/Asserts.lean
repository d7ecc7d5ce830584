import MonitoringDemos.Kauth.Balance

/-! The asserts of a listener invocation. A debug kernel panics at the first that does not
hold; the calls of a run are those of a release kernel, which goes on behind it. -/
namespace MonitoringDemos.Kauth
open Text

/-- An assert of the call holds. -/
def Call.Holds : Call → Prop
  | .assert holds => holds = true
  | _ => True

/-- The call was to give a path and did not: no buffer for it, or an error of `vn_getpath`. -/
def Call.LookupFailed : Call → Prop
  | .osMalloc size block => size = maxPathLen ∧ block = none
  | .vnGetpath _ _ err _ => err ≠ 0
  | _ => False

theorem count_tripped {calls : List Call} (held : ∀ call ∈ calls, call.Holds) :
    calls.count (.assert false) = 0 :=
  List.count_eq_zero.mpr fun member => Bool.false_ne_true (held _ member)

theorem count_tripped_behind {calls : List Call} (held : ∀ call ∈ calls, call.Holds)
    (more : List Call) : (calls ++ more).count (.assert false) = more.count (.assert false) := by
  rw [List.count_append, count_tripped held, Nat.zero_add]

theorem count_tripped_before {more : List Call} (held : ∀ call ∈ more, call.Holds)
    (calls : List Call) : (calls ++ more).count (.assert false) = calls.count (.assert false) := by
  rw [List.count_append, count_tripped held, Nat.add_zero]

/-- Nothing is asserted in vain and no path is missing. -/
def Quiet (calls : List Call) : Prop := ∀ call ∈ calls, call.Holds ∧ ¬ call.LookupFailed

theorem quiet_nil : Quiet [] := nofun

theorem quiet_osFree (block size : Nat) : Quiet [.osFree block size] := by
  simp [Quiet, Call.Holds, Call.LookupFailed]

theorem Quiet.append (first : Quiet calls) (second : Quiet more) : Quiet (calls ++ more) :=
  List.forall_mem_append.mpr ⟨first, second⟩

/-! ### Paths -/

/-- Calls up to the error `err` of a path that is looked up. -/
structure Lookups (calls : List Call) (err : Int32) : Prop where
  held : ∀ call ∈ calls, call.Holds
  failed : (∃ call ∈ calls, call.LookupFailed) ↔ err ≠ 0

theorem lookups_nil : Lookups [] 0 := ⟨nofun, nofun, fun nonzero => absurd rfl nonzero⟩

theorem Lookups.append (lookups : Lookups calls 0) (next : Lookups more err) :
    Lookups (calls ++ more) err where
  held := List.forall_mem_append.mpr ⟨lookups.held, next.held⟩
  failed := by
    have fine : ¬ ∃ call ∈ calls, call.LookupFailed := fun missing =>
      lookups.failed.mp missing rfl
    simp only [List.mem_append, or_and_right, exists_or, fine, false_or]
    exact next.failed

theorem lookups_of_pathRun (run : PathRun vp calls err path) : Lookups calls err := by
  cases run with
  | null => exact ⟨by simp [Call.Holds], by simp [Call.LookupFailed]⟩
  | unallocated => exact ⟨by simp [Call.Holds], by simp [Call.LookupFailed, enomem]⟩
  | answered => exact ⟨by simp [Call.Holds], by simp [Call.LookupFailed]⟩

theorem nextPath_lookups (lookups : Lookups calls err)
    (runs : (nextPath err vp).Runs more (err', path)) : Lookups (calls ++ more) err' := by
  unfold nextPath at runs
  split at runs
  · rename_i fine
    rw [fine] at lookups
    exact lookups.append (lookups_of_pathRun (pathRun_of_runs runs))
  · obtain ⟨rfl, same⟩ := runs
    cases same
    rwa [List.append_nil]

/-! ### The string -/

/-- A string of actions is shorter than a path buffer. -/
theorem actionText_length_lt (mask : VnodeAction → UInt32) (isDir : Bool) (action : UInt32) :
    (actionText isDir (vnodeActionInfo mask) action).length + 1 < maxPathLen := by
  have bound := run_length (vnodeActionInfo_short mask) isDir action none
  have entries : (vnodeActionInfo mask).length = 18 := rfl
  rw [run_actionStrLen, entries] at bound
  exact Nat.lt_of_le_of_lt (Nat.succ_le_succ bound) (by decide)

/-- The stage behind the paths trips the assert that `*actionStrPtr` is not NULL, once it
is reached. -/
theorem nextString_asserts
    (runs : (nextString mask action vp err).Runs calls (err', actionStr, actionStrBufSize)) :
    ((∀ call ∈ calls, call.Holds) ↔ err ≠ 0) ∧ calls.count (.assert false) ≤ 1 ∧
      ∀ call ∈ calls, ¬ call.LookupFailed := by
  unfold nextString at runs
  split at runs
  · rename_i fine
    obtain ⟨block, rfl, _⟩ := createVnodeActionString_runs mask _ action none 0 runs
    have short := fun isDir => Nat.ne_of_lt (actionText_length_lt mask isDir action)
    refine ⟨?_, ?_, ?_⟩
    · simp [Call.Holds, fine]
    · simp
    · simp [Call.LookupFailed, short]
  · rename_i failed
    obtain ⟨rfl, _⟩ := runs
    exact ⟨⟨fun _ => failed, fun _ => nofun⟩, Nat.zero_le 1, nofun⟩

/-! ### The invocation -/

theorem freePath_quiet (runs : (freePath path).Runs calls result) : Quiet calls := by
  cases path with
  | none =>
    obtain ⟨rfl, _⟩ := runs
    exact quiet_nil
  | some buffer =>
    obtain ⟨_, rfl, rfl, _⟩ := runs
    exact quiet_osFree buffer.block maxPathLen

theorem freeActionStr_quiet (runs : (freeActionStr actionStr size).Runs calls result) :
    Quiet calls := by
  cases actionStr with
  | none =>
    obtain ⟨rfl, _⟩ := runs
    exact quiet_nil
  | some actionStr =>
    obtain ⟨_, rfl, rfl, _⟩ := runs
    exact quiet_osFree actionStr.block size

/-- The lookups, the string and the clean-up: the first and the last hold anyway, and the
string trips an assert when the lookups have succeeded. -/
theorem Lookups.complete {string freed : List Call} (lookups : Lookups looked err)
    (described : (∀ call ∈ string, call.Holds) ↔ err ≠ 0)
    (found : ∀ call ∈ string, ¬ call.LookupFailed) (quiet : Quiet freed) :
    (∀ call ∈ looked ++ string ++ freed, call.Holds) ↔
      ∃ call ∈ looked ++ string ++ freed, call.LookupFailed := by
  have missing : (∃ call ∈ looked ++ string ++ freed, call.LookupFailed) ↔ err ≠ 0 := by
    rw [← lookups.failed]
    constructor
    · rintro ⟨call, member, failed⟩
      rcases List.mem_append.mp member with early | late
      · rcases List.mem_append.mp early with path | name
        · exact ⟨call, path, failed⟩
        · exact absurd failed (found call name)
      · exact absurd failed (quiet call late).2
    · rintro ⟨call, member, failed⟩
      exact ⟨call, List.mem_append_left _ (List.mem_append_left _ member), failed⟩
  rw [missing, ← described]
  constructor
  · intro held call member
    exact held call (List.mem_append_left _ (List.mem_append_right _ member))
  · intro held
    have behind : ∀ call ∈ freed, call.Holds := fun call member => (quiet call member).1
    exact List.forall_mem_append.mpr ⟨List.forall_mem_append.mpr ⟨lookups.held, held⟩, behind⟩

/-- An invocation trips no assert exactly when a path that it looks up is missing: when both
are there the string is made, and its caller passes a NULL where the callee wants a string.
All other asserts hold. -/
theorem asserts_hold_iff (mask : VnodeAction → UInt32) (action : UInt32) (vp dvp : Option Vnode)
    (runs : (vnodeScopeListener mask action vp dvp).Runs calls result) :
    ((∀ call ∈ calls, call.Holds) ↔ ∃ call ∈ calls, call.LookupFailed) ∧
      calls.count (.assert false) ≤ 1 := by
  cases invocation_of_runs runs with
  | stages one two three four five six =>
    have lookups := nextPath_lookups (nextPath_lookups lookups_nil one) two
    rw [List.nil_append] at lookups
    obtain ⟨described, once, found⟩ := nextString_asserts three
    have quiet := (freeActionStr_quiet four).append
      ((freePath_quiet five).append (freePath_quiet six))
    refine ⟨lookups.complete described found quiet, ?_⟩
    rw [count_tripped_before fun call member => (quiet call member).1,
      count_tripped_behind lookups.held]
    exact once

/-- The calls for a vnode whose path gets no buffer. -/
def unallocatedCalls : List Call := [.assert true, .assert true, .osMalloc maxPathLen none]

theorem asserts_hold_iff_unallocated :
    (∀ call ∈ unallocatedCalls, call.Holds) ∧ unallocatedCalls.count (.assert false) ≤ 1 := by
  have runs : (vnodeScopeListener (fun _ => 2) 2 (some ⟨1, false⟩) none).Runs
      unallocatedCalls .defer :=
    ⟨_, rfl, _, rfl, none, _, rfl, rfl, rfl⟩
  obtain ⟨held, once⟩ := asserts_hold_iff (fun _ => 2) 2 (some ⟨1, false⟩) none runs
  refine ⟨held.mpr ⟨.osMalloc maxPathLen none, ?_, rfl, rfl⟩, once⟩
  simp [unallocatedCalls]

/-- The calls for an action without vnodes. -/
def tripped : List Call := [
  .assert true, .assert true, .assert true, .assert true,
  .assert true, .assert false, .assert true, .osMalloc 10 (some 2), .assert true, .osFree 2 10]

theorem assert_tripped : ¬ ∀ mask action vp dvp calls result,
    (vnodeScopeListener mask action vp dvp).Runs calls result → ∀ call ∈ calls, call.Holds := by
  intro holding
  have absent : (nextPath 0 none).Runs [.assert true, .assert true] (0, none) :=
    ⟨_, rfl, _, rfl, rfl, rfl⟩
  have described := createVnodeActionString_succeeds (fun _ => 2) false 2 none 0 2
  have length : (actionText false (vnodeActionInfo fun _ => 2) 2).length + 1 = 10 := by
    decide +kernel
  rw [length] at described
  have runs : (vnodeScopeListener (fun _ => 2) 2 none none).Runs tripped .defer := by
    rw [vnodeScopeListener_eq]
    apply runs_append absent
    apply runs_append absent
    apply runs_append described
    exact ⟨_, rfl, rfl, rfl⟩
  have held := holding _ _ _ _ _ _ runs (.assert false) (by simp [tripped])
  exact Bool.false_ne_true held

end MonitoringDemos.Kauth
