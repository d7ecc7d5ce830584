import MonitoringDemos.Flags
import MonitoringDemos.Tokens
import MonitoringDemos.Writes
import MonitoringDemos.Kauth.ActionString
import MonitoringDemos.Kauth.Calls

/-! The two passes of `CreateVnodeActionString`. Both spell the same text, one in length
only, so the second one fits the block that the first one measured. -/
namespace MonitoringDemos.Kauth
open Bytes Flags Text Tokens Writes

/-! ### The text -/

def bar : UInt8 := 0x7c

/-- The name that an entry has for a directory or a file. -/
def VnodeActionInfo.opName (isDir : Bool) (info : VnodeActionInfo) : List UInt8 :=
  if isDir then info.fOpNameDir.getD info.fOpNameFile else info.fOpNameFile

/-- The bits that no entry has claimed, as one token if there are any. -/
def restTokens (left : UInt32) : List (List UInt8) := if left ≠ 0 then [Pass.hexToken left] else []

def actionTokens (isDir : Bool) (table : List VnodeActionInfo) (action : UInt32) :
    List (List UInt8) :=
  (claimed VnodeActionInfo.fMask table action).map (VnodeActionInfo.opName isDir) ++
    restTokens (leftover VnodeActionInfo.fMask table action)

/-- The text of the action, whatever the masks are. -/
def actionText (isDir : Bool) (table : List VnodeActionInfo) (action : UInt32) : List UInt8 :=
  join bar (actionTokens isDir table action)

/-- What the loop over the table writes for one entry. -/
def entryText (isDir : Bool) (info : VnodeActionInfo) (left : UInt32) : List UInt8 :=
  if left &&& info.fMask ≠ 0 then
    info.opName isDir ++ if left &&& ~~~info.fMask ≠ 0 then [bar] else []
  else []

def tableText (isDir : Bool) : List VnodeActionInfo → UInt32 → List UInt8
  | [], _ => []
  | info :: rest, left => entryText isDir info left ++
      tableText isDir rest (leftover VnodeActionInfo.fMask [info] left)

@[simp] theorem hexToken_length (value : UInt32) : (Pass.hexToken value).length = 10 := rfl

theorem restTokens_eq_nil (left : UInt32) : restTokens left = [] ↔ left = 0 := by
  rw [restTokens]
  split
  · exact ⟨nofun, fun zero => absurd zero (by assumption)⟩
  · exact ⟨fun _ => not_not.mp (by assumption), fun _ => rfl⟩

theorem actionTokens_eq_nil (isDir : Bool) (table : List VnodeActionInfo) (left : UInt32) :
    actionTokens isDir table left = [] ↔ left = 0 := by
  rw [actionTokens, List.append_eq_nil_iff, List.map_eq_nil_iff, restTokens_eq_nil]
  constructor
  · rintro ⟨unclaimed, nothing⟩
    rwa [leftover_unclaimed unclaimed] at nothing
  · rintro rfl
    exact ⟨claimed_zero table, by rw [leftover_eq, UInt32.zero_and]⟩

/-- The bar behind a name is there when a token follows. -/
theorem actionText_cons (isDir : Bool) (info : VnodeActionInfo) (rest : List VnodeActionInfo)
    (left : UInt32) : actionText isDir (info :: rest) left = entryText isDir info left ++
      actionText isDir rest (leftover VnodeActionInfo.fMask [info] left) := by
  by_cases hit : left &&& info.fMask ≠ 0
  · have cleared : leftover VnodeActionInfo.fMask [info] left = left &&& ~~~info.fMask := if_pos hit
    have tokens : actionTokens isDir (info :: rest) left =
        info.opName isDir :: actionTokens isDir rest (left &&& ~~~info.fMask) := by
      rw [actionTokens, claimed, leftover, if_pos hit, if_pos hit]
      rfl
    rw [actionText, tokens, entryText, if_pos hit, cleared, actionText]
    by_cases last : left &&& ~~~info.fMask = 0
    · have none := (actionTokens_eq_nil isDir rest _).mpr last
      rw [none, join_singleton, join_nil, if_neg (not_not.mpr last), List.append_nil,
        List.append_nil]
    · have more := mt (actionTokens_eq_nil isDir rest _).mp last
      rw [join_cons bar _ more, if_pos last, List.append_assoc]
      rfl
  · have kept : leftover VnodeActionInfo.fMask [info] left = left := if_neg hit
    have tokens : actionTokens isDir (info :: rest) left = actionTokens isDir rest left := by
      rw [actionTokens, claimed, leftover, if_neg hit, if_neg hit]
      rfl
    rw [actionText, tokens, entryText, if_neg hit, kept]
    rfl

theorem actionText_eq (isDir : Bool) (table : List VnodeActionInfo) (left : UInt32) :
    actionText isDir table left = tableText isDir table left ++
      (restTokens (leftover VnodeActionInfo.fMask table left)).flatten := by
  induction table generalizing left with
  | nil =>
    rw [actionText, actionTokens, tableText, claimed, leftover, restTokens]
    split <;> simp
  | cons info rest ih =>
    rw [actionText_cons, ih]
    exact (List.append_assoc ..).symm

/-! ### The passes -/

/-- The pass stands behind the text. What it has stored spells the text, if it has a buffer. -/
def Pass.At (text : List UInt8) (pass : Pass) : Prop :=
  pass.actionStrLen = text.length ∧ (pass.size ≠ none → Spells 0 pass.writes text)

theorem store_writes {pass : Pass} (buffer : pass.size = some size) (bytes : List UInt8) :
    (pass.store bytes).writes = pass.writes ++ [(pass.actionStrLen, bytes)] := by
  rw [Pass.store, buffer]

theorem put_size (pass : Pass) (bytes : List UInt8) : (pass.put bytes).size = pass.size := by
  rw [Pass.put, Pass.store]
  split <;> rfl

theorem put_actionsLeft (pass : Pass) (bytes : List UInt8) :
    (pass.put bytes).actionsLeft = pass.actionsLeft := by
  rw [Pass.put, Pass.store]
  split <;> rfl

theorem put_at {pass : Pass} (reached : pass.At text) (bytes : List UInt8) :
    (pass.put bytes).At (text ++ bytes) := by
  obtain ⟨length, spelled⟩ := reached
  refine ⟨?_, ?_⟩
  · rw [put_actionStrLen, length, List.length_append]
  · intro buffer
    rw [put_size] at buffer
    obtain ⟨size, given⟩ := Option.ne_none_iff_exists'.mp buffer
    rw [Pass.put, Pass.store, given]
    apply (spelled buffer).append
    rw [Nat.zero_add, length]
    exact .single text.length bytes

def Pass.clear (mask : UInt32) (pass : Pass) : Pass :=
  { pass with actionsLeft := pass.actionsLeft &&& ~~~mask }

theorem describeBit_hit {info : VnodeActionInfo} {pass : Pass} (isDir : Bool)
    (hit : pass.actionsLeft &&& info.fMask ≠ 0) :
    pass.describeBit isDir info =
      if pass.actionsLeft &&& ~~~info.fMask ≠ 0 then
        ((pass.put (info.opName isDir)).clear info.fMask).put [bar]
      else (pass.put (info.opName isDir)).clear info.fMask := by
  rw [Pass.describeBit, if_pos hit]
  simp only [Pass.clear, put_actionsLeft]
  rfl

theorem describeBit_frame (isDir : Bool) (info : VnodeActionInfo) (pass : Pass) :
    (pass.describeBit isDir info).size = pass.size ∧
      (pass.describeBit isDir info).actionsLeft =
        leftover VnodeActionInfo.fMask [info] pass.actionsLeft := by
  by_cases hit : pass.actionsLeft &&& info.fMask ≠ 0
  · rw [describeBit_hit isDir hit, leftover, leftover, if_pos hit]
    split
    · rw [put_size, put_actionsLeft, Pass.clear, put_size, put_actionsLeft]
      exact ⟨rfl, rfl⟩
    · rw [Pass.clear, put_size, put_actionsLeft]
      exact ⟨rfl, rfl⟩
  · rw [Pass.describeBit, if_neg hit, leftover, leftover, if_neg hit]
    exact ⟨rfl, rfl⟩

theorem describeBit_at {pass : Pass} (reached : pass.At text) (isDir : Bool)
    (info : VnodeActionInfo) :
    (pass.describeBit isDir info).At (text ++ entryText isDir info pass.actionsLeft) := by
  by_cases hit : pass.actionsLeft &&& info.fMask ≠ 0
  · have named : ((pass.put (info.opName isDir)).clear info.fMask).At (text ++ info.opName isDir) :=
      put_at reached (info.opName isDir)
    rw [describeBit_hit isDir hit, entryText, if_pos hit]
    split
    · rw [← List.append_assoc]
      exact put_at named [bar]
    · rw [List.append_nil]
      exact named
  · rw [Pass.describeBit, if_neg hit, entryText, if_neg hit, List.append_nil]
    exact reached

theorem tableText_zero (isDir : Bool) (table : List VnodeActionInfo) :
    tableText isDir table 0 = [] := by
  have text := actionText_eq isDir table 0
  rw [actionText, (actionTokens_eq_nil isDir table 0).mpr rfl] at text
  exact (List.append_eq_nil_iff.mp text.symm).1

/-- The loop over the table, which ends early when no bit is left. -/
theorem describeBits_at (isDir : Bool) (table : List VnodeActionInfo) {pass : Pass}
    (reached : pass.At text) :
    (pass.describeBits isDir table).size = pass.size ∧
      (pass.describeBits isDir table).actionsLeft =
        leftover VnodeActionInfo.fMask table pass.actionsLeft ∧
      (pass.describeBits isDir table).At (text ++ tableText isDir table pass.actionsLeft) := by
  induction table generalizing pass text with
  | nil => exact ⟨rfl, rfl, by rwa [tableText, List.append_nil]⟩
  | cons info rest ih =>
    rw [Pass.describeBits]
    split
    · have next := ih (describeBit_at reached isDir info)
      obtain ⟨size, left⟩ := describeBit_frame isDir info pass
      rw [size, left, List.append_assoc] at next
      exact next
    · rename_i none
      have zero : pass.actionsLeft = 0 := not_not.mp none
      rw [zero, tableText_zero, List.append_nil, leftover_eq, UInt32.zero_and]
      exact ⟨rfl, rfl, reached⟩

/-! ### The string -/

theorem restTokens_flatten (left : UInt32) :
    (restTokens left).flatten = if left ≠ 0 then Pass.hexToken left else [] := by
  rw [restTokens]
  split
  · exact List.flatten_singleton
  · rfl

theorem describeRest_actionStrLen (pass : Pass) : pass.describeRest.actionStrLen =
    pass.actionStrLen + (restTokens pass.actionsLeft).flatten.length := by
  rw [Pass.describeRest, restTokens_flatten]
  split
  · rfl
  · rfl

/-- `snprintf` has room for the hex number and its NUL. -/
theorem describeRest_writes {pass : Pass} (buffer : pass.size = some size)
    (room : size = pass.actionStrLen + 11) (more : pass.actionsLeft ≠ 0) :
    pass.describeRest.writes =
      pass.writes ++ [(pass.actionStrLen, Pass.hexToken pass.actionsLeft ++ [0])] := by
  have eleven : size - pass.actionStrLen = 11 := by omega
  rw [Pass.describeRest, if_pos more, buffer, Option.getD_some, eleven]
  exact store_writes buffer _

theorem describeRest_spells {pass : Pass} (reached : pass.At text) (buffer : pass.size = some size)
    (fits : size = (text ++ (restTokens pass.actionsLeft).flatten).length + 1) :
    ∃ ended, (ended = [] ∨ ended = [0]) ∧ Spells 0 pass.describeRest.writes
      (text ++ (restTokens pass.actionsLeft).flatten ++ ended) := by
  obtain ⟨length, spelled⟩ := reached
  have spells := spelled (by rw [buffer]; nofun)
  rw [restTokens_flatten] at fits ⊢
  by_cases more : pass.actionsLeft ≠ 0
  · rw [if_pos more, List.length_append, hexToken_length, ← length] at fits
    rw [if_pos more, describeRest_writes buffer fits more]
    refine ⟨[0], Or.inr rfl, ?_⟩
    rw [List.append_assoc]
    apply spells.append
    rw [Nat.zero_add, length]
    exact .single text.length _
  · rw [if_neg more, Pass.describeRest, if_neg more, List.append_nil]
    exact ⟨[], Or.inl rfl, by rwa [List.append_nil]⟩

/-- The pass at the end of the table. -/
theorem table_at (isDir : Bool) (table : List VnodeActionInfo) (action : UInt32)
    (size : Option Nat) :
    (Pass.describeBits isDir table ⟨size, action, 0, []⟩).size = size ∧
      (Pass.describeBits isDir table ⟨size, action, 0, []⟩).actionsLeft =
        leftover VnodeActionInfo.fMask table action ∧
      (Pass.describeBits isDir table ⟨size, action, 0, []⟩).At (tableText isDir table action) := by
  have start : Pass.At [] ⟨size, action, 0, []⟩ := ⟨rfl, fun _ => .nil⟩
  exact describeBits_at isDir table start

/-- Both passes measure the text. -/
theorem run_actionStrLen (isDir : Bool) (table : List VnodeActionInfo) (action : UInt32)
    (size : Option Nat) :
    (Pass.run table isDir action size).actionStrLen = (actionText isDir table action).length := by
  obtain ⟨_, left, length, _⟩ := table_at isDir table action size
  rw [Pass.run, describeRest_actionStrLen, left, length, actionText_eq, List.length_append]

/-- Up to a NUL behind it the second pass writes the text run by run. -/
theorem run_spells (isDir : Bool) (table : List VnodeActionInfo) (action : UInt32)
    (fits : size = (actionText isDir table action).length + 1) :
    ∃ ended, (ended = [] ∨ ended = [0]) ∧
      Spells 0 (Pass.run table isDir action (some size)).writes
        (actionText isDir table action ++ ended) := by
  obtain ⟨buffer, left, reached⟩ := table_at isDir table action (some size)
  have rest := describeRest_spells reached buffer (by rwa [left, ← actionText_eq])
  rwa [left, ← actionText_eq] at rest

/-! ### The characters -/

/-- A token that `strlen` and a reader of bars get over. -/
def Readable (token : List UInt8) : Prop := Proper bar token ∧ 0 ∉ token

/-- The masks have no part in the names. -/
theorem opNames_all {P : List UInt8 → Prop} {isDir : Bool}
    (all : ∀ name ∈ (vnodeActionInfo fun _ => 0).map (VnodeActionInfo.opName isDir), P name)
    (mask : VnodeAction → UInt32) : ∀ info ∈ vnodeActionInfo mask, P (info.opName isDir) := by
  intro info member
  have named : info.opName isDir ∈ (vnodeActionInfo mask).map (VnodeActionInfo.opName isDir) :=
    List.mem_map_of_mem member
  exact all _ named

theorem opName_readable (mask : VnodeAction → UInt32) (isDir : Bool) :
    ∀ info ∈ vnodeActionInfo mask, Readable (info.opName isDir) := by
  have fixed : ∀ isDir, ∀ name ∈ (vnodeActionInfo fun _ => 0).map (VnodeActionInfo.opName isDir),
      (name ≠ [] ∧ bar ∉ name) ∧ 0 ∉ name := by decide
  exact opNames_all (fixed isDir) mask

theorem hexDigit_readable {digit : UInt32} (small : digit < 16) :
    Pass.hexDigit digit ≠ bar ∧ Pass.hexDigit digit ≠ 0 := by
  have fixed : ∀ n < 16, Pass.hexDigit (UInt32.ofNat n) ≠ bar ∧
      Pass.hexDigit (UInt32.ofNat n) ≠ 0 := by decide
  have digits := fixed digit.toNat (UInt32.lt_iff_toNat_lt.mp small)
  rwa [UInt32.ofNat_toNat] at digits

theorem hexToken_readable (value : UInt32) : Readable (Pass.hexToken value) := by
  have lead : bar ∉ ascii "0x" ∧ 0 ∉ ascii "0x" := by decide
  have digits : ∀ c ∈ ([28, 24, 20, 16, 12, 8, 4, 0] : List UInt32).map (fun shift =>
      Pass.hexDigit ((value >>> shift) &&& 0xf)), c ≠ bar ∧ c ≠ 0 := by
    intro c member
    obtain ⟨shift, _, rfl⟩ := List.mem_map.mp member
    apply hexDigit_readable
    exact Nat.lt_of_le_of_lt Nat.and_le_right (by decide)
  refine ⟨⟨nofun, ?_⟩, ?_⟩
  · intro member
    rcases List.mem_append.mp member with early | digit
    · exact lead.1 early
    · exact (digits bar digit).1 rfl
  · intro member
    rcases List.mem_append.mp member with early | digit
    · exact lead.2 early
    · exact (digits 0 digit).2 rfl

theorem actionTokens_readable (mask : VnodeAction → UInt32) (isDir : Bool) (action : UInt32) :
    ∀ token ∈ actionTokens isDir (vnodeActionInfo mask) action, Readable token := by
  intro token member
  rcases List.mem_append.mp member with name | rest
  · obtain ⟨info, inside, rfl⟩ := List.mem_map.mp name
    exact opName_readable mask isDir info ((claimed_sublist _ action).subset inside)
  · rw [restTokens] at rest
    split at rest
    · rw [List.mem_singleton.mp rest]
      exact hexToken_readable _
    · contradiction

theorem actionText_plain (mask : VnodeAction → UInt32) (isDir : Bool) (action : UInt32) :
    0 ∉ actionText isDir (vnodeActionInfo mask) action := by
  intro member
  rcases mem_join member with separator | ⟨token, inside, has⟩
  · contradiction
  · exact (actionTokens_readable mask isDir action token inside).2 has

/-! ### The call -/

/-- A string that a call has made. -/
structure Fits (mask : VnodeAction → UInt32) (isDir : Bool) (action : UInt32)
    (actionStr : ActionStr) : Prop where
  /-- The second pass measures what the first one did. -/
  agree : (Pass.run (vnodeActionInfo mask) isDir action (some actionStr.size)).actionStrLen =
    (Pass.run (vnodeActionInfo mask) isDir action none).actionStrLen
  inside : ∀ w ∈ actionStr.writes, Write.Inside actionStr.size w
  text : ∀ stale, Holds (writeAll stale actionStr.writes) 0
    (actionText isDir (vnodeActionInfo mask) action)
  strlen : (actionText isDir (vnodeActionInfo mask) action).length =
    (Pass.run (vnodeActionInfo mask) isDir action none).actionStrLen

/-- The string of a call that got a block. -/
def madeString (mask : VnodeAction → UInt32) (isDir : Bool) (action : UInt32) (block : Nat) :
    ActionStr :=
  let size := (actionText isDir (vnodeActionInfo mask) action).length + 1
  let second := Pass.run (vnodeActionInfo mask) isDir action (some size)
  ⟨block, size, second.writes ++ [(second.actionStrLen, [0])]⟩

theorem createVnodeActionString_runs (mask : VnodeAction → UInt32) (isDir : Bool) (action : UInt32)
    (old : Option ActionStr) (n : Nat)
    (runs : (createVnodeActionString mask action isDir (some old) (some n)).Runs calls result) :
    ∃ block, calls = [.assert true, .assert old.isSome, .assert true,
        .osMalloc ((actionText isDir (vnodeActionInfo mask) action).length + 1) block, .assert true] ∧
      result = match block with
        | none => (enomem, none, (actionText isDir (vnodeActionInfo mask) action).length + 1)
        | some block => (0, some (madeString mask isDir action block),
            (actionText isDir (vnodeActionInfo mask) action).length + 1) := by
  have short := actionStrLen_le mask isDir action none
  have length := run_actionStrLen isDir (vnodeActionInfo mask) action
  rw [length] at short
  obtain ⟨_, rfl, _, rfl, _, rfl, runs⟩ := runs
  simp only [Prog.bind, length, if_neg (Nat.not_lt.mpr short)] at runs
  obtain ⟨block, _, rfl, runs⟩ := runs
  refine ⟨block, ?_⟩
  cases block with
  | none =>
    obtain ⟨_, rfl, rfl, rfl⟩ := runs
    exact ⟨rfl, by rw [length]⟩
  | some block =>
    obtain ⟨_, rfl, rfl, rfl⟩ := runs
    refine ⟨rfl, ?_⟩
    simp only [madeString, length]

theorem createVnodeActionString_succeeds (mask : VnodeAction → UInt32) (isDir : Bool)
    (action : UInt32) (old : Option ActionStr) (n block : Nat) :
    (createVnodeActionString mask action isDir (some old) (some n)).Runs
      [.assert true, .assert old.isSome, .assert true,
        .osMalloc ((actionText isDir (vnodeActionInfo mask) action).length + 1) (some block),
        .assert true]
      (0, some (madeString mask isDir action block),
        (actionText isDir (vnodeActionInfo mask) action).length + 1) := by
  have short := actionStrLen_le mask isDir action none
  have length := run_actionStrLen isDir (vnodeActionInfo mask) action
  rw [length] at short
  refine ⟨_, rfl, _, rfl, _, rfl, ?_⟩
  simp only [Prog.bind, length, if_neg (Nat.not_lt.mpr short)]
  refine ⟨some block, _, rfl, _, rfl, rfl, ?_⟩
  simp only [madeString, length]

theorem madeString_writes (mask : VnodeAction → UInt32) (isDir : Bool) (action : UInt32)
    (block : Nat) : (madeString mask isDir action block).writes =
      (Pass.run (vnodeActionInfo mask) isDir action
        (some ((actionText isDir (vnodeActionInfo mask) action).length + 1))).writes ++
        [((actionText isDir (vnodeActionInfo mask) action).length, [0])] := by
  simp only [madeString, run_actionStrLen]

theorem madeString_fits (mask : VnodeAction → UInt32) (isDir : Bool) (action : UInt32)
    (block : Nat) : Fits mask isDir action (madeString mask isDir action block) := by
  have length := run_actionStrLen isDir (vnodeActionInfo mask) action
  obtain ⟨ended, nul, spells⟩ := run_spells isDir (vnodeActionInfo mask) action rfl
  refine ⟨by rw [length, length], ?_, ?_, (length none).symm⟩
  · intro w member
    rw [madeString_writes] at member
    rcases List.mem_append.mp member with early | last
    · apply spells.inside _ w early
      rw [Nat.zero_add, List.length_append]
      rcases nul with rfl | rfl
      · exact Nat.le_succ _
      · exact Nat.le_refl _
    · rw [List.mem_singleton.mp last]
      intro i single
      have first : i = 0 := Nat.lt_one_iff.mp single
      rw [first]
      exact Nat.lt_succ_self _
  · intro stale
    have stored := (stored_append.mp (spells.stored stale)).1
    have terminated := holds_terminated stored (actionText_plain mask isDir action)
    rwa [Nat.zero_add, ← madeString_writes mask isDir action block] at terminated

/-- With two valid pointers the call asks for one block and fails with it only. The string
and its NUL lie in the block, and its size is the one that is returned. -/
theorem createVnodeActionString_fits (mask : VnodeAction → UInt32) (isDir : Bool)
    (action : UInt32) (old : Option ActionStr) (n : Nat)
    (runs : (createVnodeActionString mask action isDir (some old) (some n)).Runs calls
      (err, actionStr, actionStrBufSize)) :
    (Pass.run (vnodeActionInfo mask) isDir action none).actionStrLen ≤ actionStringMaxLength ∧
      ∃ size block, calls = [.assert true, .assert old.isSome, .assert true,
          .osMalloc size block, .assert true] ∧
        match block with
        | none => err = enomem ∧ actionStr = none
        | some block => err = 0 ∧ actionStrBufSize = size ∧ ∃ made, actionStr = some made ∧
            made.block = block ∧ made.size = size ∧ Fits mask isDir action made := by
  refine ⟨actionStrLen_le mask isDir action none, ?_⟩
  obtain ⟨block, rfl, result⟩ := createVnodeActionString_runs mask isDir action old n runs
  refine ⟨_, block, rfl, ?_⟩
  cases block with
  | none =>
    cases result
    exact ⟨rfl, rfl⟩
  | some block =>
    cases result
    exact ⟨rfl, rfl, _, rfl, rfl, rfl, madeString_fits mask isDir action block⟩

theorem createVnodeActionString_fits_readData :
    Fits (fun _ => 2) false 2 (madeString (fun _ => 2) false 2 7) := by
  have runs := createVnodeActionString_succeeds (fun _ => 2) false 2 none 0 7
  obtain ⟨_, size, block, calls, made⟩ :=
    createVnodeActionString_fits (fun _ => 2) false 2 none 0 runs
  cases calls
  obtain ⟨_, _, made, same, _, _, fits⟩ := made
  cases same
  exact fits

end MonitoringDemos.Kauth
