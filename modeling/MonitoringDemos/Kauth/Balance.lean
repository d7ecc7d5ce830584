import MonitoringDemos.Kauth.ActionBuffer

/-! The books of a listener invocation: what it takes from the allocator it gives back, and
it denies an action only when nothing has failed on the way. -/
namespace MonitoringDemos.Kauth
open Ledger Text

/-! ### What the calls of a run say -/

/-- The call did what it was made for. -/
def Call.Succeeded : Call → Prop
  | .osMalloc _ block => block ≠ none
  | .vnGetpath _ _ err _ => err = 0
  | _ => True

/-- The path that a call left in its buffer, and the vnode it is of. -/
def Call.answer : Call → Option (Vnode × List UInt8)
  | .vnGetpath vp _ _ path => some (vp, path)
  | _ => none

def answers (calls : List Call) : List (Vnode × List UInt8) := calls.filterMap Call.answer

/-- Calls up to which `held` is to be freed. One of them has failed unless `err` is 0. -/
structure Account (calls : List Call) (err : Int32) (held : Multiset (Nat × Nat))
    (paths : List (Vnode × List UInt8)) : Prop where
  settled : settle 0 (events calls) = some held
  succeeded : (∀ call ∈ calls, call.Succeeded) ↔ err = 0
  answered : answers calls = paths

theorem account_nil : Account [] 0 0 [] := ⟨rfl, ⟨fun _ => rfl, fun _ => nofun⟩, rfl⟩

theorem Account.append (account : Account calls 0 held paths)
    (settled : settle held (events more) = some held')
    (succeeded : (∀ call ∈ more, call.Succeeded) ↔ err = 0) :
    Account (calls ++ more) err held' (paths ++ answers more) where
  settled := by
    rw [events_append, settle_append, account.settled]
    exact settled
  succeeded := by
    rw [← succeeded, List.forall_mem_append]
    exact and_iff_right (account.succeeded.mpr rfl)
  answered := by
    rw [← account.answered]
    exact List.filterMap_append

/-! ### Paths -/

/-- The runs of `CreateVnodePath`: nothing to look up, no buffer, and an answer. -/
inductive PathRun : Option Vnode → List Call → Int32 → Option PathBuf → Prop where
  | null : PathRun none [.assert true, .assert true] 0 none
  | unallocated : PathRun (some vp) [.assert true, .assert true, .osMalloc maxPathLen none] enomem none
  | answered : PathRun (some vp) [.assert true, .assert true, .osMalloc maxPathLen (some block),
      .vnGetpath vp block err path] err (some ⟨block, path⟩)

theorem pathRun_of_runs {vp : Option Vnode}
    (runs : (createVnodePath vp (some none)).Runs calls (err, path)) : PathRun vp calls err path := by
  obtain ⟨_, rfl, _, rfl, runs⟩ := runs
  cases vp with
  | none =>
    obtain ⟨rfl, same⟩ := runs
    cases same
    exact .null
  | some vp =>
    obtain ⟨block, _, rfl, runs⟩ := runs
    cases block with
    | none =>
      obtain ⟨rfl, same⟩ := runs
      cases same
      exact .unallocated
    | some block =>
      obtain ⟨err, text, _, rfl, rfl, same⟩ := runs
      cases same
      exact .answered

/-- The block that is to be freed for a path. -/
def pathHeld (path : Option PathBuf) : Multiset (Nat × Nat) :=
  match path with
  | none => 0
  | some buffer => {(buffer.block, maxPathLen)}

def pathAnswer (vp : Option Vnode) (path : Option PathBuf) : List (Vnode × List UInt8) :=
  match vp, path with
  | some vp, some buffer => [(vp, buffer.path)]
  | _, _ => []

/-- What a step that looks up a path tells about it. -/
structure Looked (vp : Option Vnode) (err : Int32) (path : Option PathBuf) : Prop where
  asked : err = 0 → (pathAnswer vp path).map Prod.fst = vp.toList
  found : occursIn path = true ↔ ∃ answer ∈ pathAnswer vp path, demoPath <:+: answer.2

theorem looked_none (vp : Option Vnode) (failed : err ≠ 0) : Looked vp err none := by
  have silent : pathAnswer vp none = [] := by cases vp <;> rfl
  refine ⟨fun zero => absurd zero failed, ?_⟩
  rw [silent]
  exact ⟨nofun, nofun⟩

theorem looked_of_pathRun (run : PathRun vp calls err path) : Looked vp err path := by
  cases run with
  | null => exact ⟨fun _ => rfl, nofun, nofun⟩
  | unallocated => exact looked_none _ (by decide)
  | @answered vp block err text =>
    refine ⟨fun _ => rfl, ?_⟩
    rw [occursIn, find_isSome]
    simp [pathAnswer]

theorem Account.pathRun (account : Account calls 0 held paths) (run : PathRun vp more err path) :
    Account (calls ++ more) err (pathHeld path + held) (paths ++ pathAnswer vp path) := by
  cases run with
  | null =>
    apply account.append
    · rw [pathHeld, Multiset.zero_add]
      rfl
    · simp [Call.Succeeded]
  | unallocated =>
    apply account.append
    · rw [pathHeld, Multiset.zero_add]
      rfl
    · simp [Call.Succeeded, enomem]
  | answered =>
    apply account.append
    · rw [pathHeld, Multiset.singleton_add]
      rfl
    · simp [Call.Succeeded]

/-! ### The listener in stages -/

/-- The path of the next vnode, unless something has failed. -/
def nextPath (err : Int32) (vp : Option Vnode) : Prog (Int32 × Option PathBuf) :=
  if err = 0 then createVnodePath vp (some none) else pure (err, none)

def nextString (mask : VnodeAction → UInt32) (action : UInt32) (vp : Option Vnode) (err : Int32) :
    Prog (Int32 × Option ActionStr × Nat) :=
  if err = 0 then
    let isDir := match vp with
      | some vp => vp.isVdir
      | none => false
    createVnodeActionString mask action isDir (some none) (some 0)
  else pure (err, none, 0)

def freeActionStr (actionStr : Option ActionStr) (actionStrBufSize : Nat) : Prog Unit :=
  match actionStr with
  | none => pure ()
  | some actionStr => osFree actionStr.block actionStrBufSize

def verdict (err : Int32) (vpPath dvpPath : Option PathBuf) : KauthResult :=
  if err = 0 ∧ (occursIn vpPath = true ∨ occursIn dvpPath = true) then .deny else .defer

theorem vnodeScopeListener_eq (mask : VnodeAction → UInt32) (action : UInt32)
    (vp dvp : Option Vnode) : vnodeScopeListener mask action vp dvp = (do
      let one ← nextPath 0 vp
      let two ← nextPath one.1 dvp
      let three ← nextString mask action vp two.1
      freeActionStr three.2.1 three.2.2
      freePath one.2
      freePath two.2
      return verdict three.1 one.2 two.2) := by
  unfold vnodeScopeListener
  rw [nextPath, if_pos rfl]
  congr 1
  funext one
  dsimp only
  unfold nextPath
  split
  · congr 1
    funext two
    unfold nextString
    split
    · congr 1
      funext three
      cases three.2.1 <;> rfl
    · rfl
  · rename_i failed
    unfold nextString
    dsimp only [Bind.bind, Prog.bind, pure]
    rw [if_neg failed, if_neg failed]
    rfl

/-- The calls and the result of an invocation, stage by stage. -/
inductive Invocation (mask : VnodeAction → UInt32) (action : UInt32) (vp dvp : Option Vnode) :
    List Call → KauthResult → Prop where
  | stages : (nextPath 0 vp).Runs looking (err, vpPath) →
      (nextPath err dvp).Runs parent (err', dvpPath) →
      (nextString mask action vp err').Runs describing (err'', actionStr, actionStrBufSize) →
      (freeActionStr actionStr actionStrBufSize).Runs freeing a → (freePath vpPath).Runs freeing' b →
      (freePath dvpPath).Runs freeing'' c →
      Invocation mask action vp dvp
        (looking ++ parent ++ describing ++ (freeing ++ (freeing' ++ freeing'')))
        (verdict err'' vpPath dvpPath)

theorem invocation_of_runs
    (runs : (vnodeScopeListener mask action vp dvp).Runs calls result) :
    Invocation mask action vp dvp calls result := by
  rw [vnodeScopeListener_eq] at runs
  obtain ⟨looking, _, ⟨err, vpPath⟩, rfl, one, runs⟩ := runs_bind runs
  obtain ⟨parent, _, ⟨err', dvpPath⟩, rfl, two, runs⟩ := runs_bind runs
  obtain ⟨describing, _, ⟨err'', actionStr, actionStrBufSize⟩, rfl, three, runs⟩ := runs_bind runs
  obtain ⟨freeing, _, _, rfl, four, runs⟩ := runs_bind runs
  obtain ⟨freeing', _, _, rfl, five, runs⟩ := runs_bind runs
  obtain ⟨freeing'', _, _, rfl, six, rfl, rfl⟩ := runs_bind runs
  have stages := Invocation.stages one two three four five six
  simp only [List.append_assoc, List.append_nil] at stages ⊢
  exact stages

theorem nextPath_account (account : Account calls err held paths)
    (runs : (nextPath err vp).Runs more (err', path)) :
    Account (calls ++ more) err' (pathHeld path + held) (paths ++ pathAnswer vp path) ∧
      Looked vp err' path := by
  rw [nextPath] at runs
  split at runs
  · rename_i fine
    rw [fine] at account
    have run := pathRun_of_runs runs
    exact ⟨account.pathRun run, looked_of_pathRun run⟩
  · rename_i failed
    obtain ⟨rfl, same⟩ := runs
    cases same
    have silent : pathAnswer vp none = [] := by cases vp <;> rfl
    rw [List.append_nil, pathHeld, Multiset.zero_add, silent, List.append_nil]
    exact ⟨account, looked_none vp failed⟩

def strHeld (actionStr : Option ActionStr) (actionStrBufSize : Nat) : Multiset (Nat × Nat) :=
  match actionStr with
  | none => 0
  | some actionStr => {(actionStr.block, actionStrBufSize)}

theorem nextString_account (account : Account calls err held paths)
    (runs : (nextString mask action vp err).Runs more (err', actionStr, actionStrBufSize)) :
    Account (calls ++ more) err' (strHeld actionStr actionStrBufSize + held) paths := by
  unfold nextString at runs
  split at runs
  · rename_i fine
    rw [fine] at account
    obtain ⟨block, rfl, result⟩ := createVnodeActionString_runs mask _ action none 0 runs
    rw [← List.append_nil paths]
    cases block with
    | none =>
      cases result
      apply account.append
      · rw [strHeld, Multiset.zero_add]
        rfl
      · simp [Call.Succeeded, enomem]
    | some block =>
      cases result
      apply account.append
      · rw [strHeld, Multiset.singleton_add]
        rfl
      · simp [Call.Succeeded]
  · obtain ⟨rfl, same⟩ := runs
    cases same
    rw [List.append_nil, strHeld, Multiset.zero_add]
    exact account

/-! ### The clean-up -/

/-- Calls that free `held` and nothing else. -/
structure CleansUp (calls : List Call) (held : Multiset (Nat × Nat)) : Prop where
  settled : ∀ before, settle (held + before) (events calls) = some before
  succeeded : ∀ call ∈ calls, call.Succeeded
  answered : answers calls = []

theorem cleansUp_nil : CleansUp [] 0 where
  settled := fun before => congrArg some (Multiset.zero_add before)
  succeeded := nofun
  answered := rfl

theorem cleansUp_osFree (block size : Nat) : CleansUp [.osFree block size] {(block, size)} where
  settled := by
    intro before
    rw [Multiset.singleton_add]
    exact settle_release (block, size) before
  succeeded := by simp [Call.Succeeded]
  answered := rfl

theorem CleansUp.append (first : CleansUp calls held) (second : CleansUp more held') :
    CleansUp (calls ++ more) (held + held') where
  settled := by
    intro before
    rw [events_append, settle_append, Multiset.add_assoc, first.settled]
    exact second.settled before
  succeeded := List.forall_mem_append.mpr ⟨first.succeeded, second.succeeded⟩
  answered := by
    rw [answers, List.filterMap_append]
    exact List.append_eq_nil_iff.mpr ⟨first.answered, second.answered⟩

theorem freePath_cleansUp (runs : (freePath path).Runs calls result) :
    CleansUp calls (pathHeld path) := by
  cases path with
  | none =>
    obtain ⟨rfl, _⟩ := runs
    exact cleansUp_nil
  | some buffer =>
    obtain ⟨_, rfl, rfl, _⟩ := runs
    exact cleansUp_osFree buffer.block maxPathLen

theorem freeActionStr_cleansUp (runs : (freeActionStr actionStr actionStrBufSize).Runs calls result) :
    CleansUp calls (strHeld actionStr actionStrBufSize) := by
  cases actionStr with
  | none =>
    obtain ⟨rfl, _⟩ := runs
    exact cleansUp_nil
  | some actionStr =>
    obtain ⟨_, rfl, rfl, _⟩ := runs
    exact cleansUp_osFree actionStr.block actionStrBufSize

theorem Account.cleanUp (account : Account calls err held paths) (cleans : CleansUp more held) :
    Account (calls ++ more) err 0 paths where
  settled := by
    have all := cleans.settled 0
    rw [Multiset.add_zero] at all
    rw [events_append, settle_append, account.settled]
    exact all
  succeeded := by
    rw [← account.succeeded, List.forall_mem_append]
    exact and_iff_left cleans.succeeded
  answered := by
    rw [← account.answered]
    change (calls ++ more).filterMap Call.answer = _
    rw [List.filterMap_append]
    exact (congrArg _ cleans.answered).trans (List.append_nil _)

/-! ### The invocation -/

/-- The verdict in terms of what the kernel answered. -/
theorem verdict_deny_iff (vpLooked : Looked vp err vpPath) (dvpLooked : Looked dvp err' dvpPath)
    (err'' : Int32) : verdict err'' vpPath dvpPath = .deny ↔ err'' = 0 ∧
      ∃ answer ∈ pathAnswer vp vpPath ++ pathAnswer dvp dvpPath, demoPath <:+: answer.2 := by
  have found : (occursIn vpPath = true ∨ occursIn dvpPath = true) ↔
      ∃ answer ∈ pathAnswer vp vpPath ++ pathAnswer dvp dvpPath, demoPath <:+: answer.2 := by
    rw [vpLooked.found, dvpLooked.found]
    simp only [List.mem_append, or_and_right, exists_or]
  rw [verdict, ← found]
  split
  · rename_i both
    exact ⟨fun _ => both, fun _ => rfl⟩
  · rename_i neither
    exact ⟨nofun, fun both => absurd both neither⟩

/-- Every invocation frees what it has allocated, once and with its size, and nothing else. It
denies the action when no call has failed and the path of a vnode contains the demo's path, and
only then. When no call has failed the paths of both vnodes have been answered. -/
theorem vnodeScopeListener_balanced (mask : VnodeAction → UInt32) (action : UInt32)
    (vp dvp : Option Vnode) (runs : (vnodeScopeListener mask action vp dvp).Runs calls result) :
    (Balanced (events calls) ∧ (released (events calls)).Perm (obtained (events calls))) ∧
      (result = .deny ↔ (∀ call ∈ calls, call.Succeeded) ∧
        ∃ answer ∈ answers calls, demoPath <:+: answer.2) ∧
      ((∀ call ∈ calls, call.Succeeded) →
        (answers calls).map Prod.fst = vp.toList ++ dvp.toList) := by
  cases invocation_of_runs runs with
  | stages one two three four five six =>
    obtain ⟨vpAccount, vpLooked⟩ := nextPath_account account_nil one
    obtain ⟨dvpAccount, dvpLooked⟩ := nextPath_account vpAccount two
    have cleans := (freeActionStr_cleansUp four).append
      ((freePath_cleansUp five).append (freePath_cleansUp six))
    have described := nextString_account dvpAccount three
    rw [Multiset.add_zero, Multiset.add_comm (pathHeld _)] at described
    have account := described.cleanUp cleans
    simp only [List.nil_append] at account vpAccount dvpAccount
    have balanced : Balanced _ := account.settled
    refine ⟨⟨balanced, balanced.perm⟩, ?_, ?_⟩
    · rw [verdict_deny_iff vpLooked dvpLooked, account.succeeded, account.answered]
    · intro all
      rw [List.append_assoc, List.append_assoc] at all
      have fine := vpAccount.succeeded.mp fun call member => all call (List.mem_append_left _ member)
      rw [← List.append_assoc] at all
      have fine' := dvpAccount.succeeded.mp fun call member => all call (List.mem_append_left _ member)
      rw [account.answered, List.map_append, vpLooked.asked fine, dvpLooked.asked fine']

/-- The calls for a file in the demo's folder: a string of 10 bytes and a path are freed. -/
def deniedCalls : List Call := [
  .assert true, .assert true, .osMalloc maxPathLen (some 1),
  .vnGetpath ⟨1, false⟩ 1 0 (ascii "/tmp/kauth-demo/a"),
  .assert true, .assert true,
  .assert true, .assert false, .assert true, .osMalloc 10 (some 2), .assert true,
  .osFree 2 10, .osFree 1 maxPathLen]

theorem vnodeScopeListener_balanced_denied :
    Balanced (events deniedCalls) ∧ ∀ call ∈ deniedCalls, call.Succeeded := by
  have looked : (nextPath 0 (some ⟨1, false⟩)).Runs
      [.assert true, .assert true, .osMalloc maxPathLen (some 1),
        .vnGetpath ⟨1, false⟩ 1 0 (ascii "/tmp/kauth-demo/a")]
      (0, some ⟨1, ascii "/tmp/kauth-demo/a"⟩) :=
    ⟨_, rfl, _, rfl, some 1, _, rfl, 0, _, _, rfl, rfl, rfl⟩
  have absent : (nextPath 0 none).Runs [.assert true, .assert true] (0, none) :=
    ⟨_, rfl, _, rfl, rfl, rfl⟩
  have described := createVnodeActionString_succeeds (fun _ => 2) false 2 none 0 2
  have length : (actionText false (vnodeActionInfo fun _ => 2) 2).length + 1 = 10 := by
    decide +kernel
  rw [length] at described
  have runs : (vnodeScopeListener (fun _ => 2) 2 (some ⟨1, false⟩) none).Runs deniedCalls .deny := by
    rw [vnodeScopeListener_eq]
    apply runs_append looked
    apply runs_append absent
    apply runs_append described
    exact ⟨_, rfl, _, rfl, rfl, rfl⟩
  obtain ⟨⟨balanced, _⟩, denied, _⟩ :=
    vnodeScopeListener_balanced (fun _ => 2) 2 (some ⟨1, false⟩) none runs
  exact ⟨balanced, (denied.mp rfl).1⟩

end MonitoringDemos.Kauth
