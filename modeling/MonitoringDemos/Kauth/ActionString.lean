import MonitoringDemos.Kauth.Listener

/-! How long an action string can get: one pass over the table adds at most a name and
a bar for each entry and one hex token. -/
namespace MonitoringDemos.Kauth
open Text

@[simp] theorem put_actionStrLen (pass : Pass) (bytes : List UInt8) :
    (pass.put bytes).actionStrLen = pass.actionStrLen + bytes.length := rfl

/-- Neither name of an entry is longer than `n`. -/
def VnodeActionInfo.Short (n : Nat) (info : VnodeActionInfo) : Prop :=
  info.fOpNameFile.length ≤ n ∧ ∀ name ∈ info.fOpNameDir, name.length ≤ n

theorem describeBit_length {info : VnodeActionInfo} (fits : info.Short n) (isDir : Bool)
    (pass : Pass) :
    (pass.describeBit isDir info).actionStrLen ≤ pass.actionStrLen + (n + 1) := by
  obtain ⟨file, dir⟩ := fits
  have name : (if isDir then info.fOpNameDir.getD info.fOpNameFile
      else info.fOpNameFile).length ≤ n := by
    cases isDir with
    | false => exact file
    | true =>
      cases named : info.fOpNameDir with
      | none => exact file
      | some own => exact dir own named
  have bar : (ascii "|").length = 1 := rfl
  unfold Pass.describeBit
  generalize (if isDir then info.fOpNameDir.getD info.fOpNameFile
    else info.fOpNameFile) = thisStr at name
  by_cases left : pass.actionsLeft &&& info.fMask ≠ 0
  · rw [if_pos left]
    dsimp only
    split
    · rw [put_actionStrLen, bar, put_actionStrLen]
      omega
    · rw [put_actionStrLen]
      omega
  · rw [if_neg left]
    omega

theorem describeBits_length {table : List VnodeActionInfo} (fits : ∀ info ∈ table, info.Short n)
    (isDir : Bool) (pass : Pass) :
    (pass.describeBits isDir table).actionStrLen ≤ pass.actionStrLen + (n + 1) * table.length := by
  induction table generalizing pass with
  | nil => simp [Pass.describeBits]
  | cons info rest ih =>
    unfold Pass.describeBits
    split
    · have one := describeBit_length (fits info List.mem_cons_self) isDir pass
      have more := ih (fun info member => fits info (List.mem_cons_of_mem _ member))
        (pass.describeBit isDir info)
      rw [List.length_cons, Nat.mul_succ]
      omega
    · omega

theorem run_length {table : List VnodeActionInfo} (fits : ∀ info ∈ table, info.Short n)
    (isDir : Bool) (action : UInt32) (size : Option Nat) :
    (Pass.run table isDir action size).actionStrLen ≤ (n + 1) * table.length + 10 := by
  have bits := describeBits_length fits isDir ⟨size, action, 0, []⟩
  rw [Nat.zero_add] at bits
  unfold Pass.run Pass.describeRest
  split
  · dsimp only
    omega
  · omega

theorem vnodeActionInfo_short (mask : VnodeAction → UInt32) :
    ∀ info ∈ vnodeActionInfo mask, info.Short 19 := by
  simp [vnodeActionInfo, VnodeActionInfo.Short, ascii]

/-- The bound that guards the allocation is never exceeded. -/
theorem actionStrLen_le (mask : VnodeAction → UInt32) (isDir : Bool) (action : UInt32)
    (size : Option Nat) :
    (Pass.run (vnodeActionInfo mask) isDir action size).actionStrLen ≤ actionStringMaxLength := by
  have bound := run_length (vnodeActionInfo_short mask) isDir action size
  have entries : (vnodeActionInfo mask).length = 18 := rfl
  rw [entries] at bound
  exact Nat.le_trans bound (by decide)

end MonitoringDemos.Kauth
