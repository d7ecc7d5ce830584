import MonitoringDemos.Bits
import MonitoringDemos.Ledger
import MonitoringDemos.Tiling

/-! The walk over an audit record: its tokens are fetched and printed one behind the other.
Of libbsm only what the walk relies on is assumed. -/
namespace MonitoringDemos.OpenBSM
open Bits Ledger Tiling

/-- What `au_read_rec` has read, in a buffer that it has allocated. -/
structure Record where
  buffer : Nat
  recordLength : Int32
  nonneg : 0 ≤ recordLength.toInt

inductive Action where
  | readRec (buffer : Nat)
  /-- `au_fetch_tok` at an offset of the buffer with so many bytes left; it gives
  `token.len`, or `none` for -1. -/
  | fetchTok (offset len : Int32) (tokenLen : Option UInt64)
  /-- `au_print_flags_tok` of the token at an offset. -/
  | printTok (offset : Int32) (tokenLen : UInt64)
  | free (buffer : Nat)
  deriving DecidableEq, Repr

/-- An `au_fetch_tok`. It may remember all that has been done. -/
structure FetchTok where
  fetch : List Action → Int32 → Int32 → Option UInt64
  within : fetch log offset len = some tokenLen →
    1 ≤ tokenLen.toNat ∧ tokenLen.toNat ≤ len.toInt

structure Walk where
  recordBalance : Int32
  processedLength : Int32
  log : List Action
  deriving DecidableEq, Repr

namespace Walk

/-- `processedLength += token.len` and `recordBalance -= token.len`. -/
def advance (s : Walk) (tokenLen : UInt64) : Walk :=
  { s with
    processedLength := s.processedLength + tokenLen.toUInt32.toInt32
    recordBalance := s.recordBalance - tokenLen.toUInt32.toInt32 }

/-- What `au_fetch_tok` has answered to the call of this turn. -/
def fetched (s : Walk) (tokenLen : Option UInt64) : Walk :=
  { s with log := s.log ++ [.fetchTok s.processedLength s.recordBalance tokenLen] }

def printed (s : Walk) (tokenLen : UInt64) : Walk :=
  { s with log := s.log ++ [.printTok s.processedLength tokenLen] }

/-- A turn whose fetch succeeds. -/
def take (s : Walk) (tokenLen : UInt64) : Walk :=
  ((s.fetched (some tokenLen)).printed tokenLen).advance tokenLen

end Walk

/-- The loop, `none` when `fuel` turns do not end it. -/
def walk (auFetchTok : FetchTok) (fuel : Nat) (s : Walk) : Option Walk :=
  if s.recordBalance ≠ 0 then
    match fuel with
    | 0 => none
    | fuel + 1 =>
      match auFetchTok.fetch s.log s.processedLength s.recordBalance with
      | none => some (s.fetched none)
      | some tokenLen => walk auFetchTok fuel (s.take tokenLen)
  else some s

/-- `none` stands for the -1 of `au_read_rec`. -/
def readPrintToken (auFetchTok : FetchTok) (fuel : Nat) (auReadRec : Option Record) :
    Option (List Action) :=
  match auReadRec with
  | none => some []
  | some record =>
    (walk auFetchTok fuel ⟨record.recordLength, 0, [.readRec record.buffer]⟩).map fun s =>
      s.log ++ [.free record.buffer]

/-! ### What has been done -/

namespace Action

def event : Action → Option (Event Nat)
  | .readRec buffer => some (.obtain buffer)
  | .free buffer => some (.release buffer)
  | _ => none

/-- The offset and the length of a token that was fetched. -/
def token : Action → Option (Int32 × UInt64)
  | .fetchTok offset _ tokenLen => tokenLen.map (offset, ·)
  | _ => none

def output : Action → Option (Int32 × UInt64)
  | .printTok offset tokenLen => some (offset, tokenLen)
  | _ => none

def range : Action → Option Range
  | .printTok offset tokenLen => some ⟨offset.toInt.toNat, tokenLen.toNat⟩
  | _ => none

def Failed : Action → Prop
  | .fetchTok _ _ none => True
  | _ => False

/-- The call is made for the rest of a record of `recordLength` bytes. -/
def Rest (recordLength : Nat) : Action → Prop
  | .fetchTok offset len _ => 0 ≤ offset.toInt ∧ offset.toInt + len.toInt = recordLength
  | _ => True

end Action

def bufferEvents (log : List Action) : List (Event Nat) := log.filterMap Action.event

/-- The bytes of the record that have been printed, token by token. -/
def ranges (log : List Action) : List Range := log.filterMap Action.range

/-- Each fetch is the answer of `au_fetch_tok` behind what has been done before it. -/
def Answered (auFetchTok : FetchTok) (log : List Action) : Prop :=
  ∀ before offset len tokenLen after, log = before ++ .fetchTok offset len tokenLen :: after →
    auFetchTok.fetch before offset len = tokenLen

theorem answered_nil (auFetchTok : FetchTok) : Answered auFetchTok [] := by
  intro before offset len tokenLen after split
  simp at split

theorem Answered.snoc {auFetchTok : FetchTok} (answered : Answered auFetchTok log)
    (given : ∀ offset len tokenLen, action = .fetchTok offset len tokenLen →
      auFetchTok.fetch log offset len = tokenLen) : Answered auFetchTok (log ++ [action]) := by
  intro before offset len tokenLen after split
  rcases List.eq_nil_or_concat after with rfl | ⟨rest, last, rfl⟩
  · obtain ⟨rfl, same⟩ := List.append_inj' split rfl
    exact given offset len tokenLen (List.singleton_inj.mp same)
  · rw [List.concat_eq_append, ← List.cons_append, ← List.append_assoc] at split
    exact answered before offset len tokenLen rest (List.append_inj_left' split rfl)

/-! ### One token -/

/-- A walk on which no fetch has failed so far. -/
structure Going (auFetchTok : FetchTok) (buffer recordLength : Nat) (s : Walk) : Prop where
  small : recordLength < 2 ^ 31
  processed : 0 ≤ s.processedLength.toInt
  balance : 0 ≤ s.recordBalance.toInt
  sum : s.processedLength.toInt + s.recordBalance.toInt = recordLength
  rests : ∀ action ∈ s.log, action.Rest recordLength
  fine : ∀ action ∈ s.log, ¬ action.Failed
  answered : Answered auFetchTok s.log
  outputs : s.log.filterMap Action.output = s.log.filterMap Action.token
  tiles : Tiles 0 (ranges s.log) s.processedLength.toInt.toNat
  held : bufferEvents s.log = [.obtain buffer]

theorem going_start (auFetchTok : FetchTok) (record : Record) :
    Going auFetchTok record.buffer record.recordLength.toInt.toNat
      ⟨record.recordLength, 0, [.readRec record.buffer]⟩ where
  small := by
    have := record.recordLength.toInt_lt
    omega
  processed := Int.le_refl 0
  balance := record.nonneg
  sum := by
    have := record.nonneg
    change 0 + record.recordLength.toInt = _
    omega
  rests := by simp [Action.Rest]
  fine := by simp [Action.Failed]
  answered := (answered_nil auFetchTok).snoc nofun
  outputs := rfl
  tiles := .nil 0
  held := rfl

theorem take_log (s : Walk) (tokenLen : UInt64) : (s.take tokenLen).log = s.log ++
    [.fetchTok s.processedLength s.recordBalance (some tokenLen),
      .printTok s.processedLength tokenLen] := List.append_assoc _ _ _

/-- A token moves both counters by its length. -/
theorem Going.counters (going : Going auFetchTok buffer recordLength s)
    (enough : tokenLen.toNat ≤ s.recordBalance.toInt) :
    (s.take tokenLen).processedLength.toInt = s.processedLength.toInt + tokenLen.toNat ∧
      (s.take tokenLen).recordBalance.toInt = s.recordBalance.toInt - tokenLen.toNat := by
  have small := going.small
  have sum := going.sum
  have moved : (s.processedLength + tokenLen.toUInt32.toInt32).toInt =
      s.processedLength.toInt + tokenLen.toNat := toInt_add_size going.processed (by omega)
  exact ⟨moved, toInt_sub_size enough⟩

theorem Going.take {auFetchTok : FetchTok} (going : Going auFetchTok buffer recordLength s)
    (fetched : auFetchTok.fetch s.log s.processedLength s.recordBalance = some tokenLen) :
    Going auFetchTok buffer recordLength (s.take tokenLen) ∧
      (s.take tokenLen).recordBalance.toInt < s.recordBalance.toInt := by
  obtain ⟨positive, enough⟩ := auFetchTok.within fetched
  obtain ⟨moved, left⟩ := going.counters enough
  have log := take_log s tokenLen
  have processed := going.processed
  have sum := going.sum
  refine ⟨⟨going.small, by omega, by omega, by omega, ?_, ?_, ?_, ?_, ?_, ?_⟩, by omega⟩
  · rw [log]
    refine List.forall_mem_append.mpr ⟨going.rests, ?_⟩
    simp only [List.forall_mem_cons, Action.Rest]
    exact ⟨⟨processed, sum⟩, trivial, nofun⟩
  · rw [log]
    refine List.forall_mem_append.mpr ⟨going.fine, ?_⟩
    simp [Action.Failed]
  · refine (going.answered.snoc ?_).snoc nofun
    rintro _ _ _ ⟨⟩
    exact fetched
  · simp only [log, List.filterMap_append, going.outputs]
    rfl
  · have next := going.tiles.snoc tokenLen.toNat
    have stop : s.processedLength.toInt.toNat + tokenLen.toNat =
        (s.take tokenLen).processedLength.toInt.toNat := by omega
    simp only [ranges, log, List.filterMap_append]
    exact stop ▸ next
  · simp only [bufferEvents, log, List.filterMap_append]
    exact (List.append_nil _).trans going.held

/-! ### The walk -/

/-- The end of a walk: at the end of the record, or at the first fetch that fails. -/
inductive Ends (auFetchTok : FetchTok) (buffer recordLength : Nat) : Walk → Prop where
  | whole : Going auFetchTok buffer recordLength s → s.recordBalance = 0 → Ends auFetchTok buffer recordLength s
  | failed : Going auFetchTok buffer recordLength s → s.recordBalance ≠ 0 →
      auFetchTok.fetch s.log s.processedLength s.recordBalance = none →
      Ends auFetchTok buffer recordLength (s.fetched none)

/-- As many turns as there are bytes left are enough: a token takes at least one. -/
theorem walk_ends (auFetchTok : FetchTok) (n : Nat) (going : Going auFetchTok buffer recordLength s)
    (left : s.recordBalance.toInt = n) :
    ∃ t, (∀ fuel, n ≤ fuel → walk auFetchTok fuel s = some t) ∧
      Ends auFetchTok buffer recordLength t := by
  induction n using Nat.strongRecOn generalizing s with
  | ind n ih =>
    by_cases done : s.recordBalance = 0
    · refine ⟨s, fun fuel _ => ?_, .whole going done⟩
      unfold walk
      rw [if_neg (not_not_intro done)]
    · have positive : 0 < n := by
        have zero : s.recordBalance.toInt ≠ 0 := fun zero => done (Int32.toInt_inj.mp zero)
        omega
      cases fetched : auFetchTok.fetch s.log s.processedLength s.recordBalance with
      | none =>
        refine ⟨s.fetched none, fun fuel enough => ?_, .failed going done fetched⟩
        obtain ⟨fuel, rfl⟩ := Nat.exists_eq_add_of_le' (Nat.lt_of_lt_of_le positive enough)
        unfold walk
        rw [if_pos done]
        simp only [fetched]
      | some tokenLen =>
        obtain ⟨next, less⟩ := going.take fetched
        obtain ⟨rest, remains⟩ := Int.eq_ofNat_of_zero_le next.balance
        obtain ⟨t, runs, ends⟩ := ih rest (by omega) next remains
        refine ⟨t, fun fuel enough => ?_, ends⟩
        obtain ⟨fuel, rfl⟩ := Nat.exists_eq_add_of_le' (Nat.lt_of_lt_of_le positive enough)
        unfold walk
        rw [if_pos done]
        simp only [fetched]
        exact runs fuel (by omega)

/-! ### The record -/

/-- A log that walks a record of `recordLength` bytes up to `stop`. -/
structure Walked (auFetchTok : FetchTok) (recordLength : Nat) (log : List Action) (stop : Nat) :
    Prop where
  answered : Answered auFetchTok log
  rests : ∀ action ∈ log, action.Rest recordLength
  outputs : log.filterMap Action.output = log.filterMap Action.token
  tiles : Tiles 0 (ranges log) stop
  cover : (⋃ range ∈ ranges log, Set.Ico range.start range.stop) = Set.Ico 0 stop
  apart : (ranges log).Pairwise fun range later => range.stop ≤ later.start
  whole : (∀ action ∈ log, ¬ action.Failed) ↔ stop = recordLength
  /-- The walk stops at the first fetch that fails. -/
  failed : (∃ action ∈ log, action.Failed) → ∃ before offset len after,
    log = before ++ .fetchTok offset len none :: after ∧ offset.toInt = (stop : Int) ∧
      (∀ action ∈ before, ¬ action.Failed) ∧ ∀ action ∈ after, ∃ buffer, action = .free buffer

/-- Actions behind the last token change nothing about what has been printed. -/
theorem Going.behind (going : Going auFetchTok buffer recordLength s) (tail : List Action)
    (outputs : tail.filterMap Action.output = []) (tokens : tail.filterMap Action.token = [])
    (printed : ranges tail = []) :
    (s.log ++ tail).filterMap Action.output = (s.log ++ tail).filterMap Action.token ∧
      Tiles 0 (ranges (s.log ++ tail)) s.processedLength.toInt.toNat := by
  constructor
  · rw [List.filterMap_append, List.filterMap_append, outputs, tokens, going.outputs]
  · rw [ranges, List.filterMap_append]
    change Tiles 0 (ranges s.log ++ ranges tail) _
    rw [printed, List.append_nil]
    exact going.tiles

theorem Going.walked_whole (going : Going auFetchTok buffer recordLength s) (done : s.recordBalance = 0) :
    ∃ stop, Walked auFetchTok recordLength (s.log ++ [.free buffer]) stop := by
  obtain ⟨outputs, tiles⟩ := going.behind [.free buffer] rfl rfl rfl
  have stop : s.processedLength.toInt.toNat = recordLength := by
    have sum := going.sum
    have zero : s.recordBalance.toInt = 0 := congrArg Int32.toInt done
    omega
  have fine : ∀ action ∈ s.log ++ [.free buffer], ¬ action.Failed := by
    refine List.forall_mem_append.mpr ⟨going.fine, ?_⟩
    simp [Action.Failed]
  refine ⟨_, going.answered.snoc nofun, ?_, outputs, tiles, tiles.cover, tiles.pairwise, ?_, ?_⟩
  · refine List.forall_mem_append.mpr ⟨going.rests, ?_⟩
    simp [Action.Rest]
  · exact ⟨fun _ => stop, fun _ => fine⟩
  · rintro ⟨action, member, failed⟩
    exact absurd failed (fine action member)

theorem Going.walked_failed (going : Going auFetchTok buffer recordLength s)
    (left : s.recordBalance ≠ 0)
    (failed : auFetchTok.fetch s.log s.processedLength s.recordBalance = none) :
    ∃ stop, Walked auFetchTok recordLength ((s.fetched none).log ++ [.free buffer]) stop := by
  have log : (s.fetched none).log ++ [.free buffer] =
      s.log ++ [.fetchTok s.processedLength s.recordBalance none, .free buffer] :=
    List.append_assoc _ _ _
  obtain ⟨outputs, tiles⟩ := going.behind
    [.fetchTok s.processedLength s.recordBalance none, .free buffer] rfl rfl rfl
  have processed := going.processed
  have nonzero : s.recordBalance.toInt ≠ 0 := fun zero => left (Int32.toInt_inj.mp zero)
  rw [log]
  have answered : Answered auFetchTok ((s.fetched none).log ++ [.free buffer]) := by
    refine (going.answered.snoc ?_).snoc nofun
    rintro _ _ _ ⟨⟩
    exact failed
  refine ⟨_, log ▸ answered, ?_, outputs, tiles, tiles.cover, tiles.pairwise, ?_, ?_⟩
  · refine List.forall_mem_append.mpr ⟨going.rests, ?_⟩
    simp [Action.Rest, processed, going.sum]
  · constructor
    · intro fine
      exact absurd trivial (fine (.fetchTok s.processedLength s.recordBalance none) (by simp))
    · intro stop
      have sum := going.sum
      omega
  · intro _
    refine ⟨s.log, s.processedLength, s.recordBalance, _, rfl, ?_, going.fine, ?_⟩
    · exact (Int.toNat_of_nonneg processed).symm
    · intro action member
      exact ⟨buffer, List.mem_singleton.mp member⟩

/-- The buffer is released behind everything else. -/
theorem freed (held : bufferEvents log = [.obtain buffer]) :
    Balanced (bufferEvents (log ++ [.free buffer])) ∧
      released (bufferEvents (log ++ [.free buffer])) = [buffer] := by
  have events : bufferEvents (log ++ [.free buffer]) = [.obtain buffer, .release buffer] := by
    rw [bufferEvents, List.filterMap_append]
    change bufferEvents log ++ _ = _
    rw [held]
    rfl
  rw [events]
  exact ⟨settle_release buffer 0, rfl⟩

theorem Ends.held (ends : Ends auFetchTok buffer recordLength s) :
    bufferEvents s.log = [.obtain buffer] := by
  cases ends with
  | whole going _ => exact going.held
  | failed going _ _ =>
    rw [bufferEvents, Walk.fetched, List.filterMap_append]
    exact (List.append_nil _).trans going.held

theorem Ends.walked (ends : Ends auFetchTok buffer recordLength s) :
    ∃ stop, Walked auFetchTok recordLength (s.log ++ [.free buffer]) stop := by
  cases ends with
  | whole going done => exact going.walked_whole done
  | failed going left failed => exact going.walked_failed left failed

/-- The length of the record, 0 when there is none. -/
def recordBytes : Option Record → Nat
  | none => 0
  | some record => record.recordLength.toInt.toNat

/-- The walk ends for every record and every `au_fetch_tok`, in as many turns as the record
has bytes. It frees the buffer it was given once, behind all that it has done with it. -/
theorem readPrintToken_walks (auFetchTok : FetchTok) (auReadRec : Option Record) :
    ∃ log, (∀ fuel, recordBytes auReadRec ≤ fuel →
        readPrintToken auFetchTok fuel auReadRec = some log) ∧
      (Balanced (bufferEvents log) ∧
        released (bufferEvents log) = (auReadRec.map Record.buffer).toList) ∧
      ∃ stop, Walked auFetchTok (recordBytes auReadRec) log stop := by
  cases auReadRec with
  | none =>
    refine ⟨[], fun _ _ => rfl, ⟨rfl, rfl⟩, 0, ?_⟩
    have tiles : Tiles 0 (ranges []) 0 := .nil 0
    exact ⟨answered_nil auFetchTok, nofun, rfl, tiles, tiles.cover, tiles.pairwise,
      ⟨fun _ => rfl, fun _ => nofun⟩, nofun⟩
  | some record =>
    have start := going_start auFetchTok record
    have left : record.recordLength.toInt = recordBytes (some record) :=
      (Int.toNat_of_nonneg record.nonneg).symm
    obtain ⟨s, runs, ends⟩ := walk_ends auFetchTok _ start left
    have walked : ∃ stop, Walked auFetchTok (recordBytes (some record)) (s.log ++ [.free record.buffer]) stop :=
      ends.walked
    refine ⟨_, ?_, freed ends.held, walked⟩
    intro fuel enough
    rw [readPrintToken, runs fuel enough]
    rfl

/-- Tokens of two bytes each. -/
def pairs : FetchTok where
  fetch _ _ len := if 2 ≤ len.toInt then some 2 else none
  within := by
    intro log offset len tokenLen fetched
    obtain ⟨enough, same⟩ := Option.ite_none_right_eq_some.mp fetched
    cases same
    exact ⟨by decide, enough⟩

example : readPrintToken pairs 3 (some ⟨7, 3, by decide⟩) = some
    [.readRec 7, .fetchTok 0 3 (some 2), .printTok 0 2, .fetchTok 2 1 none, .free 7] := by decide

end MonitoringDemos.OpenBSM
