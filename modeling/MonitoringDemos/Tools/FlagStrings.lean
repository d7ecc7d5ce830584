import MonitoringDemos.Flags
import MonitoringDemos.Text
import MonitoringDemos.Tokens
import MonitoringDemos.Writes

/-! `esfflagstostr` and `csflagstostr`: the names of the flags that are set, written without
a check into the block that `malloc` gave. The system headers fix the flags, and nothing is
assumed of their values. -/
namespace MonitoringDemos.Tools
open Flags Text Tokens Writes

def comma : UInt8 := 0x2c

/-- An entry of a table: the characters of `char name[longest + 1]`, and `flag`. -/
structure Mapping (longest : Nat) where
  name : List UInt8
  flag : UInt32
  fits : name.length ≤ longest := by decide
  plain : name ≠ [] ∧ comma ∉ name ∧ 0 ∉ name := by decide

/-- The whole array: behind its name an entry is filled with NULs. -/
def Mapping.array (entry : Mapping longest) : List UInt8 :=
  entry.name ++ List.replicate (longest + 1 - entry.name.length) 0

/-- The variables of the loop. `dp` is an index into `string`. -/
structure Cursor where
  setflags : UInt32
  dp : Nat
  writes : List Write

namespace Cursor

/-- `*dp++ = c`. -/
def putc (out : Cursor) (c : UInt8) : Cursor :=
  { out with dp := out.dp + 1, writes := out.writes ++ [(out.dp, [c])] }

/-- `for (sp = name; *sp; *dp++ = *sp++)`. -/
def copy : List UInt8 → Cursor → Cursor
  | [], out => out
  | c :: rest, out => if c = 0 then out else copy rest (out.putc c)

/-- One turn of the loop. -/
def turn (out : Cursor) (entry : Mapping longest) : Cursor :=
  if out.setflags &&& entry.flag ≠ 0 then
    let separated := if out.dp > 0 then out.putc comma else out
    let named := separated.copy entry.array
    { named with setflags := named.setflags &&& ~~~entry.flag }
  else out

end Cursor

/-- The returned string: its address, the size of its block and the bytes stored in it. -/
structure FlagString where
  string : Nat
  size : Nat
  writes : List Write

/-- `none` is a NULL pointer, of `malloc` and of the function. -/
def flagstostr (mapping : List (Mapping longest)) (flags : UInt32) (malloc : Nat → Option Nat) :
    Option FlagString :=
  let size := mapping.length * (longest + 1)
  match malloc size with
  | none => none
  | some string =>
    let out := mapping.foldl Cursor.turn ⟨flags, 0, []⟩
    some ⟨string, size, out.writes ++ [(out.dp, [0])]⟩

/-! ### The two tables -/

/-- The flags of an open file that `esmapping` names. -/
inductive EsFlag where
  | fread | fwrite | fappend | fasync | ffsync | ffdsync | fnonblock | fndelay | oNdelay
  | oShlock | oExlock | oNofollow | oCreat | oTrunc | oExcl | oDirectory | oSymlink
  deriving DecidableEq, Repr

def longestesfflaglen : Nat := 11

def esmapping (value : EsFlag → UInt32) : List (Mapping longestesfflaglen) := [
  { name := ascii "FREAD", flag := value .fread },
  { name := ascii "FWRITE", flag := value .fwrite },
  { name := ascii "FAPPEND", flag := value .fappend },
  { name := ascii "FASYNC", flag := value .fasync },
  { name := ascii "FFSYNC", flag := value .ffsync },
  { name := ascii "FFDSYNC", flag := value .ffdsync },
  { name := ascii "FNONBLOCK", flag := value .fnonblock },
  { name := ascii "FNDELAY", flag := value .fndelay },
  { name := ascii "O_NDELAY", flag := value .oNdelay },
  { name := ascii "O_SHLOCK", flag := value .oShlock },
  { name := ascii "O_EXLOCK", flag := value .oExlock },
  { name := ascii "O_NOFOLLOW", flag := value .oNofollow },
  { name := ascii "O_CREAT", flag := value .oCreat },
  { name := ascii "O_TRUNC", flag := value .oTrunc },
  { name := ascii "O_EXCL", flag := value .oExcl },
  { name := ascii "O_DIRECTORY", flag := value .oDirectory },
  { name := ascii "O_SYMLINK", flag := value .oSymlink }]

def esfflagstostr (value : EsFlag → UInt32) (flags : UInt32) (malloc : Nat → Option Nat) :
    Option FlagString :=
  flagstostr (esmapping value) flags malloc

/-- The code signing flags that `csmapping` names. -/
inductive CsFlag where
  | valid | adhoc | getTaskAllow | installer | forcedLv | invalidAllowed | hard | kill
  | checkExpiration | restrict | enforcement | requireLv | entitlementsValidated
  | nvramUnrestricted | runtime | execSetHard | execSetKill | execSetEnforcement
  | execInheritSip | killed | dyldPlatform | platformBinary | platformPath | debugged | signed
  | devCode | datavaultController
  deriving DecidableEq, Repr

def longestcsflaglen : Nat := 25

def csmapping (value : CsFlag → UInt32) : List (Mapping longestcsflaglen) := [
  { name := ascii "CS_VALID", flag := value .valid },
  { name := ascii "CS_ADHOC", flag := value .adhoc },
  { name := ascii "CS_GET_TASK_ALLOW", flag := value .getTaskAllow },
  { name := ascii "CS_INSTALLER", flag := value .installer },
  { name := ascii "CS_FORCED_LV", flag := value .forcedLv },
  { name := ascii "CS_INVALID_ALLOWED", flag := value .invalidAllowed },
  { name := ascii "CS_HARD", flag := value .hard },
  { name := ascii "CS_KILL", flag := value .kill },
  { name := ascii "CS_CHECK_EXPIRATION", flag := value .checkExpiration },
  { name := ascii "CS_RESTRICT", flag := value .restrict },
  { name := ascii "CS_ENFORCEMENT", flag := value .enforcement },
  { name := ascii "CS_REQUIRE_LV", flag := value .requireLv },
  { name := ascii "CS_ENTITLEMENTS_VALIDATED", flag := value .entitlementsValidated },
  { name := ascii "CS_NVRAM_UNRESTRICTED", flag := value .nvramUnrestricted },
  { name := ascii "CS_RUNTIME", flag := value .runtime },
  { name := ascii "CS_EXEC_SET_HARD", flag := value .execSetHard },
  { name := ascii "CS_EXEC_SET_KILL", flag := value .execSetKill },
  { name := ascii "CS_EXEC_SET_ENFORCEMENT", flag := value .execSetEnforcement },
  { name := ascii "CS_EXEC_INHERIT_SIP", flag := value .execInheritSip },
  { name := ascii "CS_KILLED", flag := value .killed },
  { name := ascii "CS_DYLD_PLATFORM", flag := value .dyldPlatform },
  { name := ascii "CS_PLATFORM_BINARY", flag := value .platformBinary },
  { name := ascii "CS_PLATFORM_PATH", flag := value .platformPath },
  { name := ascii "CS_DEBUGGED", flag := value .debugged },
  { name := ascii "CS_SIGNED", flag := value .signed },
  { name := ascii "CS_DEV_CODE", flag := value .devCode },
  { name := ascii "CS_DATAVAULT_CONTROLLER", flag := value .datavaultController }]

def csflagstostr (value : CsFlag → UInt32) (flags : UInt32) (malloc : Nat → Option Nat) :
    Option FlagString :=
  flagstostr (csmapping value) flags malloc

/-! ### The text -/

/-- The cursor stands behind the text, which is written in full. -/
def Cursor.At (text : List UInt8) (out : Cursor) : Prop :=
  Spells 0 out.writes text ∧ out.dp = text.length

theorem putc_at {out : Cursor} (reached : out.At text) (c : UInt8) :
    (out.putc c).At (text ++ [c]) := by
  obtain ⟨spells, dp⟩ := reached
  refine ⟨?_, ?_⟩
  · apply spells.append
    rw [Nat.zero_add, dp]
    exact .single text.length [c]
  · rw [Cursor.putc, dp, List.length_append, List.length_singleton]

theorem copy_at {name : List UInt8} (plain : 0 ∉ name) {out : Cursor} (reached : out.At text)
    (fill : Nat) : (out.copy (name ++ List.replicate (fill + 1) 0)).At (text ++ name) ∧
      (out.copy (name ++ List.replicate (fill + 1) 0)).setflags = out.setflags := by
  induction name generalizing text out with
  | nil =>
    rw [List.nil_append, List.append_nil, List.replicate_succ, Cursor.copy, if_pos rfl]
    exact ⟨reached, rfl⟩
  | cons c rest ih =>
    obtain ⟨first, later⟩ := List.ne_and_not_mem_of_not_mem_cons plain
    have next := ih later (putc_at reached c)
    rw [List.append_assoc, List.singleton_append] at next
    rw [List.cons_append, Cursor.copy, if_neg (Ne.symm first)]
    exact next

theorem separated_at {out : Cursor} (reached : out.At text) :
    (if out.dp > 0 then out.putc comma else out).At (separate comma text) ∧
      (if out.dp > 0 then out.putc comma else out).setflags = out.setflags := by
  have dp := reached.2
  cases text with
  | nil =>
    have start : ¬ out.dp > 0 := by
      rw [dp]
      exact Nat.lt_irrefl 0
    rw [if_neg start]
    exact ⟨reached, rfl⟩
  | cons c rest =>
    have behind : out.dp > 0 := by
      rw [dp]
      exact Nat.succ_pos _
    rw [if_pos behind]
    exact ⟨putc_at reached comma, rfl⟩

theorem turn_at {entry : Mapping longest} {out : Cursor} (hit : out.setflags &&& entry.flag ≠ 0)
    {names : List (List UInt8)} (proper : ∀ name ∈ names, Proper comma name)
    (reached : out.At (join comma names)) :
    (out.turn entry).At (join comma (names ++ [entry.name])) ∧
      (out.turn entry).setflags = out.setflags &&& ~~~entry.flag := by
  have fill : longest + 1 - entry.name.length = longest - entry.name.length + 1 := by
    have := entry.fits
    omega
  obtain ⟨separated, flags⟩ := separated_at reached
  obtain ⟨copied, kept⟩ :=
    copy_at entry.plain.2.2 separated (longest - entry.name.length)
  rw [← fill] at copied kept
  rw [separate_join proper] at copied
  rw [Cursor.turn, if_pos hit]
  exact ⟨copied, congrArg (· &&& ~~~entry.flag) (kept.trans flags)⟩

theorem turns_at (mapping : List (Mapping longest)) {out : Cursor} {names : List (List UInt8)}
    (proper : ∀ name ∈ names, Proper comma name) (reached : out.At (join comma names)) :
    (mapping.foldl Cursor.turn out).At
      (join comma (names ++ (claimed Mapping.flag mapping out.setflags).map Mapping.name)) := by
  induction mapping generalizing out names with
  | nil => rwa [claimed, List.map_nil, List.append_nil]
  | cons entry rest ih =>
    rw [List.foldl_cons, claimed]
    by_cases hit : out.setflags &&& entry.flag ≠ 0
    · obtain ⟨named, cleared⟩ := turn_at hit proper reached
      have own : Proper comma entry.name := ⟨entry.plain.1, entry.plain.2.1⟩
      have next := ih (List.forall_mem_append.mpr ⟨proper, List.forall_mem_singleton.mpr own⟩) named
      rw [cleared, List.append_assoc, List.singleton_append] at next
      rwa [if_pos hit, List.map_cons]
    · rw [if_neg hit, Cursor.turn, if_neg hit]
      exact ih proper reached

/-! ### What is reported -/

/-- The entries k with a bit of the flags that none of the entries before k has. -/
def reported (mapping : List (Mapping longest)) (flags : UInt32) : List (Mapping longest) :=
  fresh Mapping.flag mapping flags

def reportedText (mapping : List (Mapping longest)) (flags : UInt32) : List UInt8 :=
  join comma ((reported mapping flags).map Mapping.name)

structure Reports (mapping : List (Mapping longest)) (flags : UInt32) (malloc : Nat → Option Nat)
    (result : FlagString) : Prop where
  block : malloc result.size = some result.string
  size : result.size = mapping.length * (longest + 1)
  inside : ∀ w ∈ result.writes, w.Inside result.size
  text : ∀ stale, Holds (writeAll stale result.writes) 0 (reportedText mapping flags)
  delimited : Delimited comma (reportedText mapping flags)
  /-- A bit that an entry of the table has is a bit of a reported one. -/
  covers : ∀ i, bit flags i = true → (∃ entry ∈ mapping, bit entry.flag i = true) →
    ∃ entry ∈ reported mapping flags, bit entry.flag i = true
  /-- Of several entries with the same bits one is reported. -/
  once : ((reported mapping flags).map Mapping.flag).Nodup

/-- One value under three names is reported once. -/
example : reportedText (esmapping fun
    | .fwrite => 2
    | .fnonblock | .fndelay | .oNdelay => 4
    | _ => 0) 6 = ascii "FWRITE,FNONBLOCK" := rfl

theorem reported_eq (mapping : List (Mapping longest)) (flags : UInt32) :
    reported mapping flags = claimed Mapping.flag mapping flags :=
  (claimed_eq_fresh mapping flags).symm

theorem reported_proper (mapping : List (Mapping longest)) (flags : UInt32) :
    ∀ name ∈ (reported mapping flags).map Mapping.name, Proper comma name := by
  intro name member
  obtain ⟨entry, _, rfl⟩ := List.mem_map.mp member
  exact ⟨entry.plain.1, entry.plain.2.1⟩

theorem reportedText_length {mapping : List (Mapping longest)} (nonempty : mapping ≠ [])
    (flags : UInt32) : (reportedText mapping flags).length < mapping.length * (longest + 1) := by
  by_cases silent : (reported mapping flags).map Mapping.name = []
  · rw [reportedText, silent]
    exact Nat.mul_pos (List.length_pos_iff.mpr nonempty) (Nat.succ_pos longest)
  · have short : ∀ name ∈ (reported mapping flags).map Mapping.name, name.length ≤ longest := by
      intro name member
      obtain ⟨entry, _, rfl⟩ := List.mem_map.mp member
      exact entry.fits
    apply Nat.lt_of_lt_of_le (join_length_lt comma silent short)
    apply Nat.mul_le_mul_right
    rw [List.length_map, reported_eq]
    exact (claimed_sublist mapping flags).length_le

theorem reportedText_plain (mapping : List (Mapping longest)) (flags : UInt32) :
    0 ∉ reportedText mapping flags := by
  intro member
  rcases mem_join member with separator | ⟨name, inside, has⟩
  · contradiction
  · obtain ⟨entry, _, rfl⟩ := List.mem_map.mp inside
    exact entry.plain.2.2 has

theorem pass_at (mapping : List (Mapping longest)) (flags : UInt32) :
    (mapping.foldl Cursor.turn ⟨flags, 0, []⟩).At (reportedText mapping flags) := by
  have start : Cursor.At (join comma []) ⟨flags, 0, []⟩ := ⟨.nil, rfl⟩
  have none : ∀ name ∈ ([] : List (List UInt8)), Proper comma name := nofun
  have turns := turns_at mapping none start
  rwa [List.nil_append, ← reported_eq] at turns

theorem flagstostr_reports {mapping : List (Mapping longest)} (nonempty : mapping ≠ [])
    (returned : flagstostr mapping flags malloc = some result) :
    Reports mapping flags malloc result := by
  obtain ⟨spells, dp⟩ := pass_at mapping flags
  have room := reportedText_length nonempty flags
  rw [flagstostr] at returned
  split at returned
  · contradiction
  · cases returned
    refine ⟨by assumption, rfl, ?_, ?_, join_delimited (reported_proper mapping flags), ?_, ?_⟩
    · intro w member
      rcases List.mem_append.mp member with early | last
      · apply spells.inside _ w early
        rw [Nat.zero_add]
        exact Nat.le_of_lt room
      · rw [List.mem_singleton.mp last]
        intro i single
        rw [List.length_singleton] at single
        simp only [dp]
        omega
    · intro stale
      have stored := spells.stored stale
      have terminated := holds_terminated stored (reportedText_plain mapping flags)
      rwa [Nat.zero_add, ← dp] at terminated
    · intro i set entry
      rw [reported_eq]
      exact claimed_covers set entry
    · rw [reported_eq]
      exact claimed_nodup mapping flags

theorem flagstostr_none_iff (mapping : List (Mapping longest)) (flags : UInt32)
    (malloc : Nat → Option Nat) :
    flagstostr mapping flags malloc = none ↔ malloc (mapping.length * (longest + 1)) = none := by
  rw [flagstostr]
  cases malloc (mapping.length * (longest + 1)) with
  | none => exact ⟨fun _ => rfl, fun _ => rfl⟩
  | some string => exact ⟨nofun, nofun⟩

/-- Both functions, for all values of the flags: they fail with `malloc` only, and what they
return reports each flag once. -/
theorem flagStrings_reported (es : EsFlag → UInt32) (cs : CsFlag → UInt32) (flags : UInt32)
    (malloc : Nat → Option Nat) :
    ((esfflagstostr es flags malloc = none ↔
        malloc ((esmapping es).length * (longestesfflaglen + 1)) = none) ∧
      ∀ result ∈ esfflagstostr es flags malloc, Reports (esmapping es) flags malloc result) ∧
    (csflagstostr cs flags malloc = none ↔
        malloc ((csmapping cs).length * (longestcsflaglen + 1)) = none) ∧
      ∀ result ∈ csflagstostr cs flags malloc, Reports (csmapping cs) flags malloc result := by
  refine ⟨⟨flagstostr_none_iff _ _ _, ?_⟩, flagstostr_none_iff _ _ _, ?_⟩
  · intro result returned
    exact flagstostr_reports (List.cons_ne_nil _ _) returned
  · intro result returned
    exact flagstostr_reports (List.cons_ne_nil _ _) returned

end MonitoringDemos.Tools
