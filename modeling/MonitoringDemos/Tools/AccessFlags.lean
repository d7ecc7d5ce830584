import MonitoringDemos.Tools.FlagStrings

/-! `faflagstostr`. Its loop compares the index with the size of the table in bytes and
goes on when no flag is left, so it leaves the table for all flags but zero. -/
namespace MonitoringDemos.Tools
open Flags Text Tokens

/-- The constants of `unistd.h` that `famapping` names besides `F_OK`. -/
inductive FaFlag where
  | xOk | rOk | readOk | writeOk | executeOk | deleteOk | appendOk | rmfileOk | rattrOk | wattrOk
  | rextOk | wextOk | rpermOk | wpermOk | chownOk
  deriving DecidableEq, Repr

def fOk : UInt32 := 0

/-- An entry of the table: `std::string name` and `flag`. -/
structure FaMapping where
  name : List UInt8
  flag : UInt32
  deriving DecidableEq, Repr

def famapping (value : FaFlag → UInt32) : List FaMapping := [
  ⟨ascii "F_OK", fOk⟩,
  ⟨ascii "X_OK", value .xOk⟩,
  ⟨ascii "R_OK", value .rOk⟩,
  ⟨ascii "_READ_OK", value .readOk⟩,
  ⟨ascii "_WRITE_OK", value .writeOk⟩,
  ⟨ascii "_EXECUTE_OK", value .executeOk⟩,
  ⟨ascii "_DELETE_OK", value .deleteOk⟩,
  ⟨ascii "_APPEND_OK", value .appendOk⟩,
  ⟨ascii "_RMFILE_OK", value .rmfileOk⟩,
  ⟨ascii "_RATTR_OK", value .rattrOk⟩,
  ⟨ascii "_WATTR_OK", value .wattrOk⟩,
  ⟨ascii "_REXT_OK", value .rextOk⟩,
  ⟨ascii "_WEXT_OK", value .wextOk⟩,
  ⟨ascii "_RPERM_OK", value .rpermOk⟩,
  ⟨ascii "_WPERM_OK", value .wpermOk⟩,
  ⟨ascii "_CHOWN_OK", value .chownOk⟩]

/-- 16 entries with a string of 24 bytes, the flag and 4 bytes of padding. -/
def sizeofFamapping : UInt64 := 16 * 32

/-- `famapping[i]`. Behind the table memory holds something the program did not put there. -/
def entryAt (value : FaFlag → UInt32) (behind : UInt64 → FaMapping) (i : UInt64) : FaMapping :=
  (famapping value).getD i.toNat (behind i)

/-- The variables of the loop and the positions of `famapping` that it has read. -/
structure Search where
  i : UInt64
  flags : UInt32
  string : List UInt8
  reads : List Nat
  deriving DecidableEq, Repr

namespace Search

/-- The condition of the loop. -/
def GoesOn (s : Search) : Prop := s.i < sizeofFamapping ∨ s.flags = 0

instance (s : Search) : Decidable s.GoesOn := inferInstanceAs (Decidable (_ ∨ _))

def turn (s : Search) (entry : FaMapping) : Search :=
  let reads := s.reads ++ [s.i.toNat]
  if entry.flag &&& s.flags ≠ 0 then
    let separated := if s.string ≠ [] then s.string ++ [comma] else s.string
    ⟨s.i + 1, s.flags &&& ~~~entry.flag, separated ++ entry.name, reads⟩
  else ⟨s.i + 1, s.flags, s.string, reads⟩

/-- The loop, `none` when it has not ended after this many turns. -/
def loop (read : UInt64 → FaMapping) : Nat → Search → Option Search
  | 0, s => if s.GoesOn then none else some s
  | fuel + 1, s => if s.GoesOn then loop read fuel (s.turn (read s.i)) else some s

end Search

/-- The returned string and the positions that were read for it. -/
def faflagstostr (value : FaFlag → UInt32) (behind : UInt64 → FaMapping) (flags : UInt32)
    (fuel : Nat) : Option (List UInt8 × List Nat) :=
  if flags = fOk then some (ascii "F_OK", [])
  else
    (Search.loop (entryAt value behind) fuel ⟨0, flags, [], []⟩).map fun s => (s.string, s.reads)

/-! ### What it should return -/

def accessText (value : FaFlag → UInt32) (flags : UInt32) : List UInt8 :=
  if flags = 0 then ascii "F_OK"
  else join comma ((fresh FaMapping.flag (famapping value) flags).map FaMapping.name)

/-- The call returns the names of the flags, and reads entries of the table only. -/
def Described (value : FaFlag → UInt32) (behind : UInt64 → FaMapping) (flags : UInt32) : Prop :=
  ∃ fuel reads, faflagstostr value behind flags fuel = some (accessText value flags, reads) ∧
    (∀ i ∈ reads, i < (famapping value).length) ∧ Delimited comma (accessText value flags)

theorem famapping_proper (value : FaFlag → UInt32) :
    ∀ entry ∈ famapping value, Proper comma entry.name := by
  intro entry member
  have fixed : ∀ name ∈ (famapping fun _ => 0).map FaMapping.name, name ≠ [] ∧ comma ∉ name := by
    decide
  have named : entry.name ∈ (famapping value).map FaMapping.name := List.mem_map_of_mem member
  exact fixed entry.name named

theorem accessText_delimited (value : FaFlag → UInt32) (flags : UInt32) :
    Delimited comma (accessText value flags) := by
  rw [accessText]
  split
  · have name := famapping_proper value ⟨ascii "F_OK", fOk⟩ List.mem_cons_self
    exact name.delimited
  · apply join_delimited
    intro name member
    obtain ⟨entry, inside, rfl⟩ := List.mem_map.mp member
    rw [← claimed_eq_fresh] at inside
    exact famapping_proper value entry ((claimed_sublist _ flags).subset inside)

/-! ### The turns inside the table -/

theorem turn_i (s : Search) (entry : FaMapping) : (s.turn entry).i = s.i + 1 := by
  rw [Search.turn]
  split <;> rfl

theorem turn_reads (s : Search) (entry : FaMapping) :
    (s.turn entry).reads = s.reads ++ [s.i.toNat] := by
  rw [Search.turn]
  split <;> rfl

theorem turn_flags (s : Search) (entry : FaMapping) :
    (s.turn entry).flags = leftover FaMapping.flag [entry] s.flags := by
  rw [Search.turn, leftover, leftover, UInt32.and_comm]
  split <;> rfl

theorem goesOn_small {s : Search} (small : s.i.toNat < 512) : s.GoesOn :=
  Or.inl (UInt64.lt_iff_toNat_lt.mpr small)

/-- The turns from an entry of the table to its end. -/
theorem loop_entries (value : FaFlag → UInt32) (behind : UInt64 → FaMapping)
    {before rest : List FaMapping} (split : before ++ rest = famapping value) {s : Search}
    (position : s.i.toNat = before.length) (fuel : Nat) :
    s.loop (entryAt value behind) (rest.length + fuel) =
      (rest.foldl Search.turn s).loop (entryAt value behind) fuel := by
  induction rest generalizing before s with
  | nil => rw [List.length_nil, Nat.zero_add, List.foldl_nil]
  | cons entry rest ih =>
    have size : before.length + (rest.length + 1) = 16 := by
      have := congrArg List.length split
      rwa [List.length_append, List.length_cons] at this
    have found : entryAt value behind s.i = entry := by
      rw [entryAt, position, ← split]
      simp
    have next : (s.turn entry).i.toNat = (before ++ [entry]).length := by
      rw [turn_i, UInt64.toNat_add, position, List.length_append]
      simp
      omega
    rw [List.length_cons, Nat.succ_add, Search.loop, if_pos (goesOn_small (by omega)), found,
      List.foldl_cons]
    exact ih ((List.append_assoc ..).trans split) next

theorem turn_string {s : Search} {names : List (List UInt8)} (entry : FaMapping)
    (proper : ∀ name ∈ names, Proper comma name) (reached : s.string = join comma names) :
    (s.turn entry).string =
      join comma (names ++ (claimed FaMapping.flag [entry] s.flags).map FaMapping.name) := by
  have separated : (if s.string ≠ [] then s.string ++ [comma] else s.string) =
      separate comma (join comma names) := by
    rw [← reached]
    cases s.string with
    | nil => rfl
    | cons => rfl
  rw [Search.turn, claimed, claimed, claimed, UInt32.and_comm]
  split
  · rw [List.map_singleton, ← separate_join proper, ← separated]
  · rwa [List.map_nil, List.append_nil]

theorem turns_flags (table : List FaMapping) (s : Search) :
    (table.foldl Search.turn s).flags = leftover FaMapping.flag table s.flags := by
  induction table generalizing s with
  | nil => rfl
  | cons entry rest ih =>
    rw [List.foldl_cons, ih, turn_flags]
    rfl

/-- At the end of the table the string is the one to return. -/
theorem turns_string {table : List FaMapping} (plain : ∀ entry ∈ table, Proper comma entry.name)
    {s : Search} {names : List (List UInt8)} (proper : ∀ name ∈ names, Proper comma name)
    (reached : s.string = join comma names) :
    (table.foldl Search.turn s).string =
      join comma (names ++ (claimed FaMapping.flag table s.flags).map FaMapping.name) := by
  induction table generalizing s names with
  | nil =>
    rw [claimed, List.map_nil, List.append_nil]
    exact reached
  | cons entry rest ih =>
    have later : ∀ other ∈ rest, Proper comma other.name :=
      fun other member => plain other (List.mem_cons_of_mem entry member)
    have named : ∀ name ∈ (claimed FaMapping.flag [entry] s.flags).map FaMapping.name,
        Proper comma name := by
      intro name member
      obtain ⟨other, inside, rfl⟩ := List.mem_map.mp member
      rw [List.mem_singleton.mp ((claimed_sublist _ _).subset inside)]
      exact plain entry List.mem_cons_self
    have proper' := List.forall_mem_append.mpr ⟨proper, named⟩
    have step := ih later proper' (turn_string entry proper reached)
    rw [turn_flags] at step
    rw [List.foldl_cons, step, List.append_assoc, ← List.map_append, ← claimed_append]
    rfl

/-! ### Behind the table -/

/-- A loop that returns has ended at once or takes one turn less from the next state. -/
theorem loop_cases {read : UInt64 → FaMapping} {s t : Search}
    (returned : s.loop read fuel = some t) : (¬ s.GoesOn ∧ s = t) ∨
      ∃ less, s.GoesOn ∧ fuel = less + 1 ∧ (s.turn (read s.i)).loop read less = some t := by
  cases fuel with
  | zero =>
    rw [Search.loop] at returned
    split at returned
    · contradiction
    · rename_i ended
      exact Or.inl ⟨ended, Option.some.inj returned⟩
  | succ less =>
    rw [Search.loop] at returned
    split at returned
    · rename_i goes
      exact Or.inr ⟨less, goes, rfl, returned⟩
    · rename_i ended
      exact Or.inl ⟨ended, Option.some.inj returned⟩

theorem loop_ended {read : UInt64 → FaMapping} {s : Search} (ended : ¬ s.GoesOn) (fuel : Nat) :
    s.loop read fuel = some s := by
  cases fuel with
  | zero => rw [Search.loop, if_neg ended]
  | succ fuel => rw [Search.loop, if_neg ended]

/-- More turns change nothing once the loop has ended. -/
theorem loop_more {read : UInt64 → FaMapping} {s t : Search}
    (returned : s.loop read fuel = some t) (more : Nat) : s.loop read (fuel + more) = some t := by
  induction fuel generalizing s with
  | zero =>
    obtain ⟨ended, rfl⟩ | ⟨_, _, few, _⟩ := loop_cases returned
    · exact loop_ended ended _
    · contradiction
  | succ fuel ih =>
    obtain ⟨ended, rfl⟩ | ⟨less, goes, few, later⟩ := loop_cases returned
    · exact loop_ended ended _
    · cases few
      rw [Nat.succ_add, Search.loop, if_pos goes]
      exact ih later

theorem loop_reads {read : UInt64 → FaMapping} {s t : Search}
    (returned : s.loop read fuel = some t) (done : k ∈ s.reads) : k ∈ t.reads := by
  induction fuel generalizing s with
  | zero =>
    obtain ⟨_, rfl⟩ | ⟨_, _, few, _⟩ := loop_cases returned
    · exact done
    · contradiction
  | succ fuel ih =>
    obtain ⟨_, rfl⟩ | ⟨less, _, few, later⟩ := loop_cases returned
    · exact done
    · cases few
      apply ih later
      rw [turn_reads]
      exact List.mem_append_left _ done

/-- The position at which the loop goes on is read. -/
theorem loop_current {read : UInt64 → FaMapping} {s t : Search} (goes : s.GoesOn)
    (returned : s.loop read fuel = some t) : s.i.toNat ∈ t.reads := by
  obtain ⟨ended, _⟩ | ⟨less, _, _, later⟩ := loop_cases returned
  · contradiction
  · apply loop_reads later
    rw [turn_reads]
    exact List.mem_append_right _ List.mem_cons_self

/-- With no flag left it never ends. -/
theorem loop_cleared {read : UInt64 → FaMapping} (fuel : Nat) {s : Search} (clear : s.flags = 0) :
    s.loop read fuel = none := by
  have goes : s.GoesOn := Or.inr clear
  induction fuel generalizing s with
  | zero => rw [Search.loop, if_pos goes]
  | succ fuel ih =>
    have still : (s.turn (read s.i)).flags = 0 := by
      rw [turn_flags, leftover_eq, clear, UInt32.zero_and]
    rw [Search.loop, if_pos goes]
    exact ih still (Or.inr still)

/-- The state at the end of the table, where the loop should end. -/
def Search.atEnd (value : FaFlag → UInt32) (flags : UInt32) : Search :=
  (famapping value).foldl Search.turn ⟨0, flags, [], []⟩

theorem atEnd_i (value : FaFlag → UInt32) (flags : UInt32) :
    (Search.atEnd value flags).i.toNat = (famapping value).length := by
  simp only [Search.atEnd, famapping, List.foldl_cons, List.foldl_nil, turn_i]
  rfl

theorem atEnd_string (value : FaFlag → UInt32) {flags : UInt32} (nonzero : flags ≠ 0) :
    (Search.atEnd value flags).string = accessText value flags := by
  have none : ∀ name ∈ ([] : List (List UInt8)), Proper comma name := nofun
  have start : (⟨0, flags, [], []⟩ : Search).string = join comma [] := rfl
  have turns := turns_string (famapping_proper value) none start
  rw [List.nil_append, claimed_eq_fresh] at turns
  rw [accessText, if_neg nonzero]
  exact turns

theorem loop_atEnd {value : FaFlag → UInt32} {behind : UInt64 → FaMapping}
    (returned : Search.loop (entryAt value behind) fuel ⟨0, flags, [], []⟩ = some t) :
    (Search.atEnd value flags).loop (entryAt value behind) fuel = some t := by
  have more := loop_more returned 16
  rw [Nat.add_comm] at more
  rw [← more]
  exact (loop_entries value behind (List.nil_append _) rfl fuel).symm

theorem faflagstostr_loop (value : FaFlag → UInt32) (behind : UInt64 → FaMapping) {flags : UInt32}
    (nonzero : flags ≠ 0) (fuel : Nat) : faflagstostr value behind flags fuel =
      (Search.loop (entryAt value behind) fuel ⟨0, flags, [], []⟩).map fun s => (s.string, s.reads) :=
  if_neg nonzero

/-- Flags that the table accounts for in full: the call never returns. -/
theorem faflagstostr_known (value : FaFlag → UInt32) (behind : UInt64 → FaMapping)
    {flags : UInt32} (nonzero : flags ≠ 0)
    (known : flags &&& ~~~covered FaMapping.flag (famapping value) = 0) (fuel : Nat) :
    faflagstostr value behind flags fuel = none := by
  have clear : (Search.atEnd value flags).flags = 0 := by
    rw [Search.atEnd, turns_flags, leftover_eq]
    exact known
  rw [faflagstostr_loop value behind nonzero, Option.map_eq_none_iff,
    Option.eq_none_iff_forall_ne_some]
  intro t returned
  have ended := loop_atEnd returned
  rw [loop_cleared fuel clear] at ended
  contradiction

/-- For other flags a call that returns has read what stands behind the table. -/
theorem faflagstostr_behind (value : FaFlag → UInt32) (behind : UInt64 → FaMapping)
    {flags : UInt32} (nonzero : flags ≠ 0)
    (returned : faflagstostr value behind flags fuel = some (string, reads)) :
    (famapping value).length ∈ reads := by
  rw [faflagstostr_loop value behind nonzero, Option.map_eq_some_iff] at returned
  obtain ⟨t, ended, result⟩ := returned
  cases result
  have goes : (Search.atEnd value flags).GoesOn := by
    apply goesOn_small
    rw [atEnd_i]
    exact Nat.lt_of_sub_eq_succ rfl
  rw [← atEnd_i value flags]
  exact loop_current goes (loop_atEnd ended)

/-- The call is right for no flag at all, and for no other value. -/
theorem described_iff (value : FaFlag → UInt32) (behind : UInt64 → FaMapping) (flags : UInt32) :
    Described value behind flags ↔ flags = 0 := by
  constructor
  · rintro ⟨fuel, reads, returned, inside, _⟩
    by_contra nonzero
    have outside := inside _ (faflagstostr_behind value behind nonzero returned)
    exact Nat.lt_irrefl _ outside
  · rintro rfl
    exact ⟨0, [], rfl, nofun, accessText_delimited value 0⟩

/-- The values in `unistd.h`. -/
def unistd : FaFlag → UInt32
  | .xOk => 1
  | .rOk => 4
  | .readOk => (1 : UInt32) <<< 9
  | .writeOk => (1 : UInt32) <<< 10
  | .executeOk => (1 : UInt32) <<< 11
  | .deleteOk => (1 : UInt32) <<< 12
  | .appendOk => (1 : UInt32) <<< 13
  | .rmfileOk => (1 : UInt32) <<< 14
  | .rattrOk => (1 : UInt32) <<< 15
  | .wattrOk => (1 : UInt32) <<< 16
  | .rextOk => (1 : UInt32) <<< 17
  | .wextOk => (1 : UInt32) <<< 18
  | .rpermOk => (1 : UInt32) <<< 19
  | .wpermOk => (1 : UInt32) <<< 20
  | .chownOk => (1 : UInt32) <<< 21

/-- `X_OK` alone: the loop clears the bit and never ends. -/
theorem executable_never_returns : ¬ Described unistd (fun _ => ⟨[], 0⟩) 1 := by
  rintro ⟨fuel, reads, returned, _⟩
  have nonzero : (1 : UInt32) ≠ 0 := by decide
  have silent := faflagstostr_known unistd (fun _ => ⟨[], 0⟩) nonzero rfl fuel
  rw [silent] at returned
  contradiction

end MonitoringDemos.Tools
