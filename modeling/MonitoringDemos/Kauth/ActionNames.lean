import Mathlib.Data.List.Nodup
import MonitoringDemos.Kauth.ActionBuffer
import MonitoringDemos.Kauth.Lifecycle

/-! What an action string says when each mask is a bit of its own, as the comment at
`kVnodeActionInfo` has it: a reader who splits it at the bars gets the action back. -/
namespace MonitoringDemos.Kauth
open Flags Text Tokens Writes

/-! ### What is described -/

/-- The names of the set bits in the order of the table, and the other bits as one number. -/
def describedTokens (mask : VnodeAction → UInt32) (isDir : Bool) (action : UInt32) :
    List (List UInt8) :=
  ((vnodeActionInfo mask).filter fun info => action &&& info.fMask ≠ 0).map
      (VnodeActionInfo.opName isDir) ++
    restTokens (action &&& ~~~covered VnodeActionInfo.fMask (vnodeActionInfo mask))

def digitValue (c : UInt8) : Nat := if c < 0x61 then c.toNat - 0x30 else c.toNat - 0x57

/-- The number that hexadecimal digits behind a `0x` stand for. -/
def hexValue (token : List UInt8) : UInt32 :=
  UInt32.ofNat ((token.drop 2).foldl (fun value c => 16 * value + digitValue c) 0)

/-- The mask of a name, and of any other token the number it is. -/
def tokenMask (mask : VnodeAction → UInt32) (isDir : Bool) (token : List UInt8) : UInt32 :=
  match (vnodeActionInfo mask).find? fun info => info.opName isDir == token with
  | some info => info.fMask
  | none => hexValue token

/-- The bits of all tokens. -/
def decode (mask : VnodeAction → UInt32) (isDir : Bool) (text : List UInt8) : UInt32 :=
  covered (tokenMask mask isDir) (text.splitOn bar)

/-! ### Reading a token -/

theorem hexDigit_value {digit : UInt32} (small : digit < 16) :
    digitValue (Pass.hexDigit digit) = digit.toNat := by
  have fixed : ∀ n < 16, digitValue (Pass.hexDigit (UInt32.ofNat n)) = n := by decide
  have value := fixed digit.toNat (UInt32.lt_iff_toNat_lt.mp small)
  rwa [UInt32.ofNat_toNat] at value

theorem shifted_value (value : UInt32) {shift : UInt32} (small : shift.toNat < 32) :
    digitValue (Pass.hexDigit ((value >>> shift) &&& 0xf)) =
      value.toNat / 2 ^ shift.toNat % 16 := by
  have digit : (value >>> shift) &&& 0xf < 16 := Nat.lt_of_le_of_lt Nat.and_le_right (by decide)
  rw [hexDigit_value digit, UInt32.toNat_and, UInt32.toNat_shiftRight, Nat.mod_eq_of_lt small,
    Nat.shiftRight_eq_div_pow]
  exact Nat.and_two_pow_sub_one_eq_mod _ 4

/-- Reading one more digit. -/
theorem digit_appended (n : Nat) {low high : Nat} (next : low + 4 = high) :
    16 * (n / 2 ^ high) + n / 2 ^ low % 16 = n / 2 ^ low := by
  rw [← next, Nat.pow_add, ← Nat.div_div_eq_div_mul]
  exact Nat.div_add_mod _ 16

theorem hexValue_hexToken (value : UInt32) : hexValue (Pass.hexToken value) = value := by
  have bound := value.toNat_lt
  have first : value.toNat / 2 ^ 28 % 16 = value.toNat / 2 ^ 28 := Nat.mod_eq_of_lt (by omega)
  have digits : (Pass.hexToken value).drop 2 =
      ([28, 24, 20, 16, 12, 8, 4, 0] : List UInt32).map fun shift =>
        Pass.hexDigit ((value >>> shift) &&& 0xf) := rfl
  rw [hexValue, digits, ← UInt32.toNat_inj, UInt32.toNat_ofNat', List.foldl_map]
  simp (disch := decide) only [List.foldl_cons, List.foldl_nil, shifted_value]
  simp only [UInt32.reduceToNat]
  rw [Nat.mul_zero, Nat.zero_add, first, digit_appended _ rfl, digit_appended _ rfl,
    digit_appended _ rfl, digit_appended _ rfl, digit_appended _ rfl, digit_appended _ rfl,
    digit_appended _ rfl, Nat.pow_zero, Nat.div_one]
  exact Nat.mod_eq_of_lt bound

theorem opNames_nodup (mask : VnodeAction → UInt32) (isDir : Bool) :
    ((vnodeActionInfo mask).map (VnodeActionInfo.opName isDir)).Nodup := by
  have fixed : ∀ isDir, ((vnodeActionInfo fun _ => 0).map (VnodeActionInfo.opName isDir)).Nodup := by
    decide
  exact fixed isDir

theorem tokenMask_opName {mask : VnodeAction → UInt32} {isDir : Bool} {info : VnodeActionInfo}
    (member : info ∈ vnodeActionInfo mask) :
    tokenMask mask isDir (info.opName isDir) = info.fMask := by
  cases found : (vnodeActionInfo mask).find? fun other => other.opName isDir == info.opName isDir with
  | none =>
    have other := List.find?_eq_none.mp found info member
    exact absurd (beq_self_eq_true _) other
  | some other =>
    have hit : (other.opName isDir == info.opName isDir) = true := by
      apply List.find?_some found
    have same : other.opName isDir = info.opName isDir := eq_of_beq hit
    have equal : other = info :=
      List.inj_on_of_nodup_map (opNames_nodup mask isDir) (List.mem_of_find?_eq_some found) member same
    rw [tokenMask, found, equal]

/-- No name begins with a digit. -/
theorem tokenMask_number (mask : VnodeAction → UInt32) (isDir : Bool) {token : List UInt8}
    (number : token.head? = none ∨ token.head? = some 0x30) :
    tokenMask mask isDir token = hexValue token := by
  have fixed : ∀ isDir, ∀ name ∈ (vnodeActionInfo fun _ => 0).map (VnodeActionInfo.opName isDir),
      ¬ (name.head? = none ∨ name.head? = some 0x30) := by decide
  have unnamed : ((vnodeActionInfo mask).find? fun info => info.opName isDir == token) = none := by
    rw [List.find?_eq_none]
    intro info member same
    rw [← eq_of_beq same] at number
    exact opNames_all (fixed isDir) mask info member number
  rw [tokenMask, unnamed]

theorem tokenMask_hexToken (mask : VnodeAction → UInt32) (isDir : Bool) (value : UInt32) :
    tokenMask mask isDir (Pass.hexToken value) = value := by
  rw [tokenMask_number mask isDir (Or.inr rfl), hexValue_hexToken]

theorem tokenMask_nil (mask : VnodeAction → UInt32) (isDir : Bool) : tokenMask mask isDir [] = 0 := by
  rw [tokenMask_number mask isDir (Or.inl rfl)]
  rfl

/-! ### Reading the text -/

variable {mask : VnodeAction → UInt32}

theorem covered_opNames {isDir : Bool} {entries : List VnodeActionInfo}
    (known : ∀ info ∈ entries, info ∈ vnodeActionInfo mask) :
    covered (tokenMask mask isDir) (entries.map (VnodeActionInfo.opName isDir)) =
      covered VnodeActionInfo.fMask entries := by
  induction entries with
  | nil => rfl
  | cons info rest ih =>
    have later := ih fun other member => known other (List.mem_cons_of_mem info member)
    rw [List.map_cons, covered_cons, covered_cons, later,
      tokenMask_opName (known info List.mem_cons_self)]

theorem covered_restTokens (isDir : Bool) (left : UInt32) :
    covered (tokenMask mask isDir) (restTokens left) = left := by
  rw [restTokens]
  split
  · rw [covered_cons, tokenMask_hexToken, covered_nil, UInt32.or_zero]
  · rename_i none
    exact (not_not.mp none).symm

section SingleBits

variable (single : ∀ info ∈ vnodeActionInfo mask, SingleBit info.fMask)
variable (distinct : ((vnodeActionInfo mask).map VnodeActionInfo.fMask).Nodup)
include single

theorem covered_describedTokens (isDir : Bool) (action : UInt32) :
    covered (tokenMask mask isDir) (describedTokens mask isDir action) = action := by
  rw [describedTokens, covered_append, covered_restTokens, covered_opNames]
  · exact covered_hits_or_rest single action
  · intro info member
    exact (List.mem_filter.mp member).1

include distinct

theorem actionTokens_eq (isDir : Bool) (action : UInt32) :
    actionTokens isDir (vnodeActionInfo mask) action = describedTokens mask isDir action := by
  rw [actionTokens, claimed_disjoint (pairwise_disjoint single distinct), leftover_eq]
  rfl

/-- Splitting the text and reading its tokens gives the action back. -/
theorem decode_actionText (isDir : Bool) (action : UInt32) :
    decode mask isDir (actionText isDir (vnodeActionInfo mask) action) = action := by
  have read := covered_describedTokens single isDir action
  rw [← actionTokens_eq single distinct] at read
  rw [decode, actionText]
  by_cases silent : actionTokens isDir (vnodeActionInfo mask) action = []
  · have zero := (actionTokens_eq_nil isDir _ action).mp silent
    rw [silent, join_nil, zero]
    change covered (tokenMask mask isDir) [[]] = 0
    rw [covered_cons, tokenMask_nil, covered_nil, UInt32.or_zero]
  · rw [splitOn_join silent fun token member => (actionTokens_readable mask isDir action token member).1]
    exact read

end SingleBits

/-- A call for the action can leave this C string in its block. -/
def Produces (mask : VnodeAction → UInt32) (isDir : Bool) (action : UInt32) (text : List UInt8) :
    Prop :=
  ∃ old n calls made actionStrBufSize stale,
    (createVnodeActionString mask action isDir (some old) (some n)).Runs calls
      (0, some made, actionStrBufSize) ∧ Holds (writeAll stale made.writes) 0 text

theorem produces_actionText (mask : VnodeAction → UInt32) (isDir : Bool) (action : UInt32) :
    Produces mask isDir action (actionText isDir (vnodeActionInfo mask) action) :=
  ⟨none, 0, _, madeString mask isDir action 0, _, fun _ => 0,
    createVnodeActionString_succeeds mask isDir action none 0 0,
    (madeString_fits mask isDir action 0).text _⟩

theorem produces_text {isDir : Bool} {action : UInt32} (produced : Produces mask isDir action text) :
    text = actionText isDir (vnodeActionInfo mask) action := by
  obtain ⟨old, n, calls, made, _, stale, runs, holds⟩ := produced
  obtain ⟨block, _, result⟩ := createVnodeActionString_runs mask isDir action old n runs
  cases block with
  | none => cases result
  | some block =>
    cases result
    exact holds.unique ((madeString_fits mask isDir action block).text stale)

/-- Every action has a string. It is the list of the names and the number, and no other
action has it. -/
theorem actionString_lossless (mask : VnodeAction → UInt32)
    (single : ∀ info ∈ vnodeActionInfo mask, SingleBit info.fMask)
    (distinct : ((vnodeActionInfo mask).map VnodeActionInfo.fMask).Nodup) (isDir : Bool)
    (action : UInt32) :
    (∃ text, Produces mask isDir action text) ∧
      ∀ text, Produces mask isDir action text →
        text = join bar (describedTokens mask isDir action) ∧ Delimited bar text ∧
          decode mask isDir text = action ∧
          ∀ other, Produces mask isDir other text → other = action := by
  refine ⟨⟨_, produces_actionText mask isDir action⟩, fun text produced => ?_⟩
  have spelled := produces_text produced
  have read : decode mask isDir text = action := by
    rw [spelled, decode_actionText single distinct]
  refine ⟨?_, ?_, read, ?_⟩
  · rw [spelled, actionText, actionTokens_eq single distinct]
  · rw [spelled]
    apply join_delimited
    intro token member
    exact (actionTokens_readable mask isDir action token member).1
  · intro other produced'
    rw [← read, produces_text produced', decode_actionText single distinct]

theorem actionString_lossless_unknownBit :
    Produces kauthVnode false 0x10006 (ascii "READ_DATA|WRITE_DATA|0x00010000") ∧
      ∀ other, Produces kauthVnode false other (ascii "READ_DATA|WRITE_DATA|0x00010000") →
        other = 0x10006 := by
  have single : ∀ info ∈ vnodeActionInfo kauthVnode, SingleBit info.fMask := by decide
  have distinct : ((vnodeActionInfo kauthVnode).map VnodeActionInfo.fMask).Nodup := by decide
  have spelled : join bar (describedTokens kauthVnode false 0x10006) =
      ascii "READ_DATA|WRITE_DATA|0x00010000" := by decide +kernel
  obtain ⟨⟨text, produced⟩, read⟩ :=
    actionString_lossless kauthVnode single distinct false 0x10006
  obtain ⟨same, _, _, only⟩ := read text produced
  rw [same, spelled] at produced only
  exact ⟨produced, only⟩

end MonitoringDemos.Kauth
