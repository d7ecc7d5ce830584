import MonitoringDemos.Bits
import MonitoringDemos.Transition
import MonitoringDemos.Kdebug.Tracer

/-! The sampling loop of the tracer and the buffer it reads into: allocated once for
`KDBG_SAMPLE_SIZE` records, filled in every turn with as many as the kernel has room for. -/
namespace MonitoringDemos.Kdebug
open Bits Transition

/-- `sizeof(kd_buf)`, at least one byte; 32 bits hold it. -/
structure KdBufSize where
  bytes : UInt64
  positive : 0 < bytes.toNat
  fits : bytes.toNat < 2 ^ 32
  deriving DecidableEq, Repr

variable (kdBuf : KdBufSize)

/-- `bufinfo.nkdbufs * sizeof(kd_buf)`. -/
def askedLength (nkdbufs : Int32) : UInt64 := nkdbufs.toInt64.toUInt64 * kdBuf.bytes

/-- What the kernel answers in a turn: the size of its own buffer in records, and how many
of them `ukdbg_read` has stored, `none` where its sysctl fails. -/
structure Report where
  nkdbufs : Int32
  records : Option UInt64
  nonneg : 0 ≤ nkdbufs.toInt
  stored : ∀ n ∈ records, n.toNat ≤ (askedLength kdBuf nkdbufs).toNat / kdBuf.bytes.toNat

/-- What is done to `kd_buf_memory`. -/
inductive Access where
  /-- `ukdbg_read` with this length in bytes. -/
  | read (len : UInt64)
  /-- `kd[i]`. -/
  | record (i : Int32)
  deriving DecidableEq, Repr

inductive Stage where
  | sample | decode | exited
  deriving DecidableEq, Repr

structure Sampler where
  /-- Bytes in front of `ukdbg_read`, records behind it. -/
  oldlen : UInt64
  count : Int32
  i : Int32
  stage : Stage
  /-- Last first. -/
  accesses : List Access
  deriving DecidableEq, Repr

namespace Sampler

def initial : Sampler := ⟨0, 0, 0, .sample, []⟩

def access (s : Sampler) (access : Access) : Sampler :=
  { s with accesses := access :: s.accesses }

/-- `oldlen` is the size of a pointer when `ukdbg_getbuf` fails. -/
def ukdbgGetbufFails (s : Sampler) : Sampler := { s with oldlen := 8, stage := .exited }

def ukdbgRead (s : Sampler) (records : Option UInt64) : Sampler :=
  let s := s.access (.read s.oldlen)
  match records with
  | none => { s with stage := .exited }
  | some oldlen =>
    { s with oldlen := oldlen, count := oldlen.toUInt32.toInt32, i := 0, stage := .decode }

def sample (s : Sampler) (report : Report kdBuf) : Sampler :=
  { s with oldlen := askedLength kdBuf report.nkdbufs }.ukdbgRead report.records

/-- The head of the decoding loop, and its body when there is a turn left. -/
def decodeNext (s : Sampler) : Sampler :=
  if s.i < s.count then { s.access (.record s.i) with i := s.i + 1 }
  else { s with stage := .sample }

end Sampler

inductive Turn where
  | getbufFails
  | sample (report : Report kdBuf)
  | decode

def sampleStep (s : Sampler) : Turn kdBuf → Option Sampler
  | .getbufFails => if s.stage = .sample then some s.ukdbgGetbufFails else none
  | .sample report => if s.stage = .sample then some (s.sample kdBuf report) else none
  | .decode => if s.stage = .decode then some s.decodeNext else none

/-! ### Inside the buffer -/

/-- The bytes that are accessed belong to the `KDBG_SAMPLE_SIZE * sizeof(kd_buf)` allocated. -/
def Access.Inside : Access → Prop
  | .read len => len.toNat ≤ kdbgSampleSize * kdBuf.bytes.toNat
  | .record i => 0 ≤ i.toInt ∧ (i.toInt + 1) * kdBuf.bytes.toNat ≤ kdbgSampleSize * kdBuf.bytes.toNat

def Sampler.Inside (s : Sampler) : Prop := ∀ access ∈ s.accesses, access.Inside kdBuf

/-- The kernel's buffer is not larger than the one requested. -/
def Turn.Fits : Turn kdBuf → Prop
  | .sample report => report.nkdbufs.toInt ≤ kdbgSampleSize
  | _ => True

variable {kdBuf}

theorem askedLength_toNat {nkdbufs : Int32} (nonneg : 0 ≤ nkdbufs.toInt) :
    (askedLength kdBuf nkdbufs).toNat = nkdbufs.toInt.toNat * kdBuf.bytes.toNat := by
  have small : nkdbufs.toInt.toNat < 2 ^ 31 := by
    have := nkdbufs.toInt_lt
    omega
  have fits : nkdbufs.toInt.toNat * kdBuf.bytes.toNat < 2 ^ 31 * 2 ^ 32 :=
    Nat.mul_lt_mul_of_lt_of_lt small kdBuf.fits
  rw [askedLength, UInt64.toNat_mul, toNat_widened nonneg]
  apply Nat.mod_eq_of_lt
  omega

theorem read_inside_iff (report : Report kdBuf) :
    (Access.read (askedLength kdBuf report.nkdbufs)).Inside kdBuf ↔
      report.nkdbufs.toInt ≤ kdbgSampleSize := by
  have nonneg := report.nonneg
  simp only [Access.Inside, askedLength_toNat nonneg, Nat.mul_le_mul_right_iff kdBuf.positive]
  omega

/-- The count of records is the number stored, which the kernel's buffer bounds. -/
theorem count_le (report : Report kdBuf) (answered : report.records = some n) :
    n.toUInt32.toInt32.toInt ≤ report.nkdbufs.toInt := by
  have nonneg := report.nonneg
  have small := report.nkdbufs.toInt_lt
  have stored := report.stored n answered
  rw [askedLength_toNat nonneg, Nat.mul_div_cancel _ kdBuf.positive] at stored
  rw [toInt_truncated (by omega)]
  omega

theorem record_inside {i : Int32} (nonneg : 0 ≤ i.toInt) (less : i.toInt < kdbgSampleSize) :
    (Access.record i).Inside kdBuf := by
  refine ⟨nonneg, ?_⟩
  have upto : i.toInt + 1 ≤ (kdbgSampleSize : Int) := less
  exact Int.mul_le_mul_of_nonneg_right upto (Int.natCast_nonneg _)

theorem inside_access (s : Sampler) (access : Access) :
    (s.access access).Inside kdBuf ↔ access.Inside kdBuf ∧ s.Inside kdBuf :=
  List.forall_mem_cons

/-! ### Runs -/

/-- While nothing has gone outside, the records that are left to decode lie inside. -/
structure Bounded (kdBuf : KdBufSize) (s : Sampler) : Prop where
  nonneg : 0 ≤ s.i.toInt
  count : s.Inside kdBuf → s.count.toInt ≤ kdbgSampleSize

theorem bounded_initial : Bounded kdBuf Sampler.initial :=
  ⟨by decide, fun _ => by decide⟩

theorem sample_inside (s : Sampler) (report : Report kdBuf) (bounded : Bounded kdBuf s) :
    Bounded kdBuf (s.sample kdBuf report) ∧
      ((s.sample kdBuf report).Inside kdBuf ↔
        s.Inside kdBuf ∧ report.nkdbufs.toInt ≤ kdbgSampleSize) := by
  have accesses : (s.sample kdBuf report).accesses =
      .read (askedLength kdBuf report.nkdbufs) :: s.accesses := by
    unfold Sampler.sample Sampler.ukdbgRead
    split <;> rfl
  have inside : (s.sample kdBuf report).Inside kdBuf ↔
      s.Inside kdBuf ∧ report.nkdbufs.toInt ≤ kdbgSampleSize := by
    rw [Sampler.Inside, accesses, List.forall_mem_cons, read_inside_iff]
    exact and_comm
  refine ⟨?_, inside⟩
  cases answered : report.records with
  | none =>
    simp only [Sampler.sample, Sampler.ukdbgRead, answered] at inside ⊢
    exact ⟨bounded.nonneg, fun all => bounded.count (inside.mp all).1⟩
  | some n =>
    have fewer := count_le report answered
    simp only [Sampler.sample, Sampler.ukdbgRead, answered] at inside ⊢
    exact ⟨Int.le_refl 0, fun all => Int.le_trans fewer (inside.mp all).2⟩

theorem decodeNext_inside (s : Sampler) (bounded : Bounded kdBuf s) :
    Bounded kdBuf s.decodeNext ∧ (s.decodeNext.Inside kdBuf ↔ s.Inside kdBuf) := by
  unfold Sampler.decodeNext
  split
  · rename_i less
    have inside : (s.access (.record s.i)).Inside kdBuf ↔ s.Inside kdBuf := by
      rw [inside_access]
      apply and_iff_right_of_imp
      intro all
      exact record_inside bounded.nonneg
        (Int.lt_of_lt_of_le (Int32.lt_iff_toInt_lt.mp less) (bounded.count all))
    refine ⟨⟨?_, fun all => bounded.count (inside.mp all)⟩, inside⟩
    have nonneg := bounded.nonneg
    rw [toInt_succ less]
    omega
  · exact ⟨⟨bounded.nonneg, bounded.count⟩, Iff.rfl⟩

theorem step_inside (stepped : sampleStep kdBuf s turn = some t) (bounded : Bounded kdBuf s) :
    Bounded kdBuf t ∧ (t.Inside kdBuf ↔ s.Inside kdBuf ∧ turn.Fits kdBuf) := by
  cases turn with
  | getbufFails =>
    obtain ⟨_, same⟩ := Option.ite_none_right_eq_some.mp stepped
    cases same
    exact ⟨⟨bounded.nonneg, bounded.count⟩, (and_true _).symm.to_iff⟩
  | sample report =>
    obtain ⟨_, same⟩ := Option.ite_none_right_eq_some.mp stepped
    cases same
    exact sample_inside s report bounded
  | decode =>
    obtain ⟨_, same⟩ := Option.ite_none_right_eq_some.mp stepped
    cases same
    obtain ⟨still, inside⟩ := decodeNext_inside s bounded
    exact ⟨still, inside.trans (and_true _).symm.to_iff⟩

theorem run_inside (run : Run (stepOf (sampleStep kdBuf)) s turns t) (bounded : Bounded kdBuf s) :
    t.Inside kdBuf ↔ s.Inside kdBuf ∧ ∀ turn ∈ turns, turn.Fits kdBuf := by
  induction run with
  | stay => simp
  | next head _ ih =>
    obtain ⟨still, inside⟩ := step_inside head bounded
    rw [ih still, inside, List.forall_mem_cons, and_assoc]

/-- A run stays inside the buffer exactly when the kernel never reports a buffer of more than
`KDBG_SAMPLE_SIZE` records: nothing in the loop looks at what was allocated. -/
theorem accesses_inside_iff (kdBuf : KdBufSize) {turns : List (Turn kdBuf)}
    (run : Run (stepOf (sampleStep kdBuf)) .initial turns s) :
    (∀ access ∈ s.accesses, access.Inside kdBuf) ↔ ∀ turn ∈ turns, turn.Fits kdBuf := by
  have inside := run_inside run bounded_initial
  exact inside.trans (and_iff_right nofun)

/-- A record of eight words. -/
def eightWords : KdBufSize := ⟨64, by decide, by decide⟩

/-- Room for two records, and one of them is there. -/
def oneOfTwo : Report eightWords where
  nkdbufs := 2
  records := some 1
  nonneg := by decide
  stored := by
    intro n answered
    cases answered
    decide

theorem accesses_inside_iff_oneOfTwo :
    (Access.read 128).Inside eightWords ∧ (Access.record 0).Inside eightWords := by
  have run : Run (stepOf (sampleStep eightWords)) .initial [.sample oneOfTwo, .decode, .decode]
      ⟨1, 1, 1, .sample, [.record 0, .read 128]⟩ := exec_run rfl
  have inside := (accesses_inside_iff eightWords run).mpr
    (by simp [Turn.Fits, oneOfTwo, kdbgSampleSize])
  exact ⟨inside _ (by simp), inside _ (by simp)⟩

/-- The kernel has room for one record more than was requested. -/
def oneMore : Report eightWords := ⟨16385, none, by decide, nofun⟩

theorem read_outside : ¬ ∀ (kdBuf : KdBufSize) (turns : List (Turn kdBuf)) (s : Sampler),
    Run (stepOf (sampleStep kdBuf)) .initial turns s →
      ∀ access ∈ s.accesses, access.Inside kdBuf := by
  intro inside
  have run : Run (stepOf (sampleStep eightWords)) .initial [.sample oneMore]
      ⟨1048640, 0, 0, .exited, [.read 1048640]⟩ := exec_run rfl
  have read := inside eightWords _ _ run (.read 1048640) (List.mem_singleton.mpr rfl)
  revert read
  simp [Access.Inside, kdbgSampleSize, eightWords]

end MonitoringDemos.Kdebug
