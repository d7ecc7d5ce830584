import MonitoringDemos.Kdebug.Record
import MonitoringDemos.Kdebug.Sampling

/-! What the sampling loop prints of the records that the kernel hands over. -/
namespace MonitoringDemos.Kdebug
open Bits Transition

variable (kdBuf : KdBufSize)

/-- A report with the records that `ukdbg_read` stores at the start of the buffer. -/
structure Delivery where
  report : Report kdBuf
  kds : List KdBuf
  stored : ∀ n, report.records = some n → n.toNat = kds.length

inductive Feed where
  | getbufFails
  | sample (delivery : Delivery kdBuf)
  | decode

structure Printer where
  sampler : Sampler
  kdBufMemory : Nat → KdBuf
  printed : List Decoded

namespace Printer
variable {kdBuf}

def initial (kdBufMemory : Nat → KdBuf) : Printer := ⟨.initial, kdBufMemory, []⟩

/-- The buffer behind a read; a read that fails stores nothing. -/
def store (s : Printer) (delivery : Delivery kdBuf) : Nat → KdBuf :=
  match delivery.report.records with
  | none => s.kdBufMemory
  | some _ => fun i => delivery.kds.getD i (s.kdBufMemory i)

/-- The `printf` in the body of the decoding loop. -/
def print (kdbgTimestampMask : UInt64) (s : Printer) : List Decoded :=
  if s.sampler.i < s.sampler.count then
    s.printed ++ [decode kdbgTimestampMask (s.kdBufMemory s.sampler.i.toInt.toNat)]
  else s.printed

end Printer

/-- There is no step where the kernel has stored more than was allocated: `ukdbg_read` has then
written behind the buffer. -/
def printStep (kdbgTimestampMask : UInt64) (s : Printer) : Feed kdBuf → Option Printer
  | .getbufFails => (sampleStep kdBuf s.sampler .getbufFails).map fun sampler => { s with sampler }
  | .sample delivery =>
    if delivery.kds.length ≤ kdbgSampleSize then
      (sampleStep kdBuf s.sampler (.sample delivery.report)).map fun sampler =>
        { s with sampler, kdBufMemory := s.store delivery }
    else none
  | .decode =>
    (sampleStep kdBuf s.sampler .decode).map fun sampler =>
      { s with sampler, printed := s.print kdbgTimestampMask }

variable {kdBuf} {kdbgTimestampMask : UInt64}

/-- The records that a turn hands over. -/
def Feed.kds : Feed kdBuf → List KdBuf
  | .getbufFails | .decode => []
  | .sample delivery => if delivery.report.records = none then [] else delivery.kds

def delivered (feeds : List (Feed kdBuf)) : List KdBuf := feeds.flatMap Feed.kds

/-- What is left to print lies in the buffer from `i` on. -/
structure Pending (kdbgTimestampMask : UInt64) (s : Printer) (before left : List KdBuf) : Prop where
  printed : s.printed ++ left.map (decode kdbgTimestampMask) =
    before.map (decode kdbgTimestampMask)
  idle : s.sampler.stage ≠ .decode → left = []
  nonneg : 0 ≤ s.sampler.i.toInt
  count : s.sampler.stage = .decode → s.sampler.count.toInt = s.sampler.i.toInt + left.length
  memory : ∀ j (inside : j < left.length),
    s.kdBufMemory (s.sampler.i.toInt.toNat + j) = left[j]

theorem pending_initial (kdBufMemory : Nat → KdBuf) :
    Pending kdbgTimestampMask (.initial kdBufMemory) [] [] where
  printed := rfl
  idle _ := rfl
  nonneg := Int.le_refl 0
  count stage := absurd stage (by simp [Printer.initial, Sampler.initial])
  memory j inside := absurd inside (Nat.not_lt_zero j)

/-- What is read is left to print. -/
theorem pending_sample (delivery : Delivery kdBuf)
    (allocated : delivery.kds.length ≤ kdbgSampleSize)
    (pending : Pending kdbgTimestampMask s before []) :
    Pending kdbgTimestampMask
      { s with
        sampler := s.sampler.sample kdBuf delivery.report
        kdBufMemory := s.store delivery }
      (before ++ (Feed.sample delivery).kds) (Feed.sample delivery).kds := by
  have printed := pending.printed
  rw [List.map_nil, List.append_nil] at printed
  cases answered : delivery.report.records with
  | none =>
    simp only [Sampler.sample, Sampler.ukdbgRead, Printer.store, Feed.kds, answered, if_true,
      List.append_nil]
    exact ⟨by simpa using printed, fun _ => rfl, pending.nonneg,
      fun stage => absurd stage (by simp), fun j inside => absurd inside (Nat.not_lt_zero j)⟩
  | some n =>
    have length := delivery.stored n answered
    have small : n.toNat < 2 ^ 31 := by
      rw [length]
      exact Nat.lt_of_le_of_lt allocated (by decide)
    simp only [Sampler.sample, Sampler.ukdbgRead, Printer.store, Feed.kds, answered, reduceCtorEq,
      if_false]
    refine ⟨?_, fun stage => absurd rfl stage, Int.le_refl 0, fun _ => ?_, fun j inside => ?_⟩
    · rw [List.map_append, printed]
    · simp only [toInt_truncated small, length]
      exact (Int.zero_add _).symm
    · simp [inside]

/-- A turn of the decoding loop prints the first record that is left, or ends the loop. -/
theorem pending_decode (stage : s.sampler.stage = .decode)
    (pending : Pending kdbgTimestampMask s before left) : ∃ rest,
    Pending kdbgTimestampMask
      { s with sampler := s.sampler.decodeNext, printed := s.print kdbgTimestampMask }
      before rest := by
  have count := pending.count stage
  have nonneg := pending.nonneg
  by_cases less : s.sampler.i < s.sampler.count
  · have above := Int32.lt_iff_toInt_lt.mp less
    have next := toInt_succ less
    cases left with
    | nil =>
      rw [List.length_nil] at count
      omega
    | cons kd rest =>
      have printed := pending.printed
      have first := pending.memory 0 (Nat.zero_lt_succ _)
      rw [Nat.add_zero, List.getElem_cons_zero] at first
      refine ⟨rest, ?_⟩
      simp only [Sampler.decodeNext, Printer.print, if_pos less, first]
      refine ⟨?_, fun idle => absurd stage idle, ?_, fun _ => ?_, fun j inside => ?_⟩
      · rw [← printed, List.append_assoc]
        rfl
      · rw [next]
        omega
      · rw [List.length_cons] at count
        change s.sampler.count.toInt = (s.sampler.i + 1).toInt + rest.length
        omega
      · have later := pending.memory (j + 1) (Nat.succ_lt_succ inside)
        have index : (s.sampler.i + 1).toInt.toNat + j = s.sampler.i.toInt.toNat + (j + 1) := by
          omega
        simp only [index, later, List.getElem_cons_succ]
  · have reached : ¬ s.sampler.i.toInt < s.sampler.count.toInt := mt Int32.lt_iff_toInt_lt.mpr less
    have done : left = [] := List.eq_nil_of_length_eq_zero (by omega)
    subst done
    refine ⟨[], ?_⟩
    simp only [Sampler.decodeNext, Printer.print, if_neg less]
    exact ⟨pending.printed, fun _ => rfl, nonneg, fun stage => absurd stage (by simp),
      fun j inside => absurd inside (Nat.not_lt_zero j)⟩

/-! ### Runs -/

theorem pending_step (stepped : printStep kdBuf kdbgTimestampMask s feed = some t)
    (pending : Pending kdbgTimestampMask s before left) : ∃ rest,
    Pending kdbgTimestampMask t (before ++ feed.kds) rest := by
  cases feed with
  | getbufFails =>
    obtain ⟨sampler, failed, same⟩ := Option.map_eq_some_iff.mp stepped
    obtain ⟨stage, exits⟩ := Option.ite_none_right_eq_some.mp failed
    cases Option.some.inj exits
    subst same
    have none_ := pending.idle (by simp [stage])
    subst none_
    refine ⟨[], ?_⟩
    rw [Feed.kds, List.append_nil]
    exact ⟨pending.printed, fun _ => rfl, pending.nonneg,
      fun stage => absurd stage (by simp [Sampler.ukdbgGetbufFails]), pending.memory⟩
  | sample delivery =>
    obtain ⟨allocated, sampled⟩ := Option.ite_none_right_eq_some.mp stepped
    obtain ⟨sampler, reads, same⟩ := Option.map_eq_some_iff.mp sampled
    obtain ⟨stage, filled⟩ := Option.ite_none_right_eq_some.mp reads
    cases Option.some.inj filled
    subst same
    have none_ := pending.idle (by simp [stage])
    subst none_
    exact ⟨_, pending_sample delivery allocated pending⟩
  | decode =>
    obtain ⟨sampler, turn, same⟩ := Option.map_eq_some_iff.mp stepped
    obtain ⟨stage, decoded⟩ := Option.ite_none_right_eq_some.mp turn
    cases Option.some.inj decoded
    subst same
    rw [Feed.kds, List.append_nil]
    exact pending_decode stage pending

theorem pending_run (run : Run (stepOf (printStep kdBuf kdbgTimestampMask)) s feeds t)
    (pending : Pending kdbgTimestampMask s before left) : ∃ rest,
    Pending kdbgTimestampMask t (before ++ delivered feeds) rest := by
  induction run generalizing before left with
  | stay s =>
    refine ⟨left, ?_⟩
    rw [delivered, List.flatMap_nil, List.append_nil]
    exact pending
  | next head _ ih =>
    obtain ⟨rest, middle⟩ := pending_step head pending
    obtain ⟨last, after⟩ := ih middle
    refine ⟨last, ?_⟩
    rw [List.append_assoc] at after
    exact after

/-- Where no delivery is longer than the buffer, every record that the kernel hands over is
printed once, decoded, in the order in which it was handed over, and before the kernel is
asked again. -/
theorem run_prints (kdBuf : KdBufSize) (kdbgTimestampMask : UInt64) (kdBufMemory : Nat → KdBuf)
    {feeds : List (Feed kdBuf)}
    (run : Run (stepOf (printStep kdBuf kdbgTimestampMask)) (.initial kdBufMemory) feeds s) :
    s.printed <+: (delivered feeds).map (decode kdbgTimestampMask) ∧
      (s.sampler.stage ≠ .decode →
        s.printed = (delivered feeds).map (decode kdbgTimestampMask)) := by
  obtain ⟨left, pending⟩ := pending_run run (pending_initial kdBufMemory)
  have printed := pending.printed
  rw [List.nil_append] at printed
  refine ⟨⟨_, printed⟩, fun idle => ?_⟩
  rw [pending.idle idle, List.map_nil, List.append_nil] at printed
  exact printed

/-- A record of `chdir` at its start, on the third processor. -/
def chdirStart : KdBuf := ⟨0x0300000000000011, 77, 0x040c0031⟩

def oneDelivered : Delivery eightWords where
  report := oneOfTwo
  kds := [chdirStart]
  stored := by
    intro n answered
    cases answered
    rfl

theorem run_prints_chdir : ∃ s : Printer,
    Run (stepOf (printStep eightWords 0x00ffffffffffffff)) (.initial fun _ => ⟨0, 0, 0⟩)
      [.sample oneDelivered, .decode, .decode] s ∧
    s.printed = [decode 0x00ffffffffffffff chdirStart] :=
  have run := exec_run rfl
  ⟨_, run, (run_prints eightWords 0x00ffffffffffffff _ run).2 (by decide)⟩

end MonitoringDemos.Kdebug
