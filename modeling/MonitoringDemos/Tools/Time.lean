import MonitoringDemos.Rounding

/-! The conversions between mach time and milliseconds of Tools.mm. Both multiply
before they divide, in 64 bits; the quotients they are meant to give are stated over
the naturals. -/
namespace MonitoringDemos.Tools
open Rounding

/-- `mach_timebase_info_data_t`, as the kernel fills it in. -/
structure Timebase where
  numer : UInt32
  denom : UInt32
  numer_pos : 0 < numer.toNat
  denom_pos : 0 < denom.toNat

def nsecPerMsec : UInt64 := 1000000

/-- `info` is what `mach_timebase_info` fills in; `none` when it fails. The error is the
text of the `std::invalid_argument`. -/
def machTimeToMsecs (info : Option Timebase) (machTime : UInt64) : Except String UInt64 :=
  match info with
  | none => .error "Could not convert mach time to msecs!"
  | some tb => .ok (machTime * tb.numer.toUInt64 / (tb.denom.toUInt64 * nsecPerMsec))

def msecsToMachTime (info : Option Timebase) (ms : UInt64) : Except String UInt64 :=
  match info with
  | none => .error "Could not convert mach time to msecs!"
  | some tb => .ok (ms * tb.denom.toUInt64 * nsecPerMsec / tb.numer.toUInt64)

namespace Timebase

/-- Mach time units for each `numer` milliseconds: `denom * NSEC_PER_MSEC`. -/
def unit (tb : Timebase) : Nat := tb.denom.toNat * 1000000

def exactMsecs (tb : Timebase) (machTime : UInt64) : Nat :=
  convert tb.numer.toNat tb.unit machTime.toNat

def exactMachTime (tb : Timebase) (ms : UInt64) : Nat :=
  convert tb.unit tb.numer.toNat ms.toNat

theorem unit_pos (tb : Timebase) : 0 < tb.unit := Nat.mul_pos tb.denom_pos (by decide)

theorem unit_lt (tb : Timebase) : tb.unit < 2 ^ 64 := by
  have bound := tb.denom.toNat_lt
  unfold unit
  omega

theorem numer_lt (tb : Timebase) : tb.numer.toNat < 2 ^ 64 := by
  have bound := tb.numer.toNat_lt
  omega

end Timebase

/-! ### The quotients of the wrapped products -/

theorem machTimeToMsecs_toNat (tb : Timebase) (machTime : UInt64) :
    ∃ r, machTimeToMsecs (some tb) machTime = .ok r ∧
      r.toNat = machTime.toNat * tb.numer.toNat % 2 ^ 64 / tb.unit := by
  refine ⟨_, rfl, ?_⟩
  have divisor : (tb.denom.toUInt64 * nsecPerMsec).toNat = tb.unit := by
    rw [UInt64.toNat_mul]
    exact Nat.mod_eq_of_lt tb.unit_lt
  rw [UInt64.toNat_div, divisor, UInt64.toNat_mul, UInt32.toNat_toUInt64]

theorem msecsToMachTime_toNat (tb : Timebase) (ms : UInt64) :
    ∃ r, msecsToMachTime (some tb) ms = .ok r ∧
      r.toNat = ms.toNat * tb.unit % 2 ^ 64 / tb.numer.toNat := by
  refine ⟨_, rfl, ?_⟩
  have product : (ms * tb.denom.toUInt64 * nsecPerMsec).toNat = ms.toNat * tb.unit % 2 ^ 64 := by
    rw [UInt64.toNat_mul, UInt64.toNat_mul, UInt32.toNat_toUInt64, Nat.mod_mul_mod, Nat.mul_assoc]
    rfl
  rw [UInt64.toNat_div, product, UInt32.toNat_toUInt64]

/-- The result is the quotient whenever 64 bits can hold it. -/
def ExactWhenRepresentable (result : Except String UInt64) (quotient : Nat) : Prop :=
  quotient < 2 ^ 64 → ∃ r, result = .ok r ∧ r.toNat = quotient

theorem exact_iff {result : Except String UInt64} {product den : Nat} (pos : 0 < den)
    (small : den ≤ 2 ^ 64) (computed : ∃ r, result = .ok r ∧ r.toNat = product % 2 ^ 64 / den) :
    ExactWhenRepresentable result (product / den) ↔
      product < 2 ^ 64 ∨ 2 ^ 64 ≤ product / den := by
  obtain ⟨r, returned, value⟩ := computed
  rw [← mod_div_eq_iff pos small, ← value]
  constructor
  · intro exact_
    by_cases fits : product / den < 2 ^ 64
    · obtain ⟨r', returned', quotient⟩ := exact_ fits
      cases returned.symm.trans returned'
      exact Or.inl quotient
    · exact Or.inr (Nat.le_of_not_lt fits)
  · rintro (quotient | large) fits
    · exact ⟨r, returned, quotient⟩
    · exact absurd fits (Nat.not_lt.mpr large)

/-- Both conversions are exact for precisely the arguments whose product fits into 64
bits, or whose quotient does not either. -/
theorem conversions_exact_iff (tb : Timebase) :
    (∀ machTime, ExactWhenRepresentable (machTimeToMsecs (some tb) machTime)
        (tb.exactMsecs machTime) ↔
      machTime.toNat * tb.numer.toNat < 2 ^ 64 ∨ 2 ^ 64 ≤ tb.exactMsecs machTime) ∧
    ∀ ms, ExactWhenRepresentable (msecsToMachTime (some tb) ms) (tb.exactMachTime ms) ↔
      ms.toNat * tb.unit < 2 ^ 64 ∨ 2 ^ 64 ≤ tb.exactMachTime ms := by
  constructor
  · intro machTime
    exact exact_iff tb.unit_pos (Nat.le_of_lt tb.unit_lt) (machTimeToMsecs_toNat tb machTime)
  · intro ms
    exact exact_iff tb.numer_pos (Nat.le_of_lt tb.numer_lt) (msecsToMachTime_toNat tb ms)

/-- The timebase of Apple silicon. -/
def appleSilicon : Timebase := ⟨125, 3, by decide, by decide⟩

/-- The product of this mach time wraps; the milliseconds themselves would fit. -/
def distantTime : UInt64 := 0x8000000000000000

theorem distantTime_wraps :
    ¬ ExactWhenRepresentable (machTimeToMsecs (some appleSilicon) distantTime)
      (appleSilicon.exactMsecs distantTime) := by
  intro exact_
  obtain ⟨r, returned, quotient⟩ := exact_ (by decide +kernel)
  cases returned
  exact absurd quotient (by decide +kernel)

/-! ### There and back -/

theorem machTimeToMsecs_exact {tb : Timebase} {machTime : UInt64}
    (fits : machTime.toNat * tb.numer.toNat < 2 ^ 64) :
    ∃ r, machTimeToMsecs (some tb) machTime = .ok r ∧ r.toNat = tb.exactMsecs machTime := by
  obtain ⟨r, returned, value⟩ := machTimeToMsecs_toNat tb machTime
  rw [Nat.mod_eq_of_lt fits] at value
  exact ⟨r, returned, value⟩

theorem msecsToMachTime_exact {tb : Timebase} {ms : UInt64} (fits : ms.toNat * tb.unit < 2 ^ 64) :
    ∃ r, msecsToMachTime (some tb) ms = .ok r ∧ r.toNat = tb.exactMachTime ms := by
  obtain ⟨r, returned, value⟩ := msecsToMachTime_toNat tb ms
  rw [Nat.mod_eq_of_lt fits] at value
  exact ⟨r, returned, value⟩

/-- The product of the way back is below the one of the way there. -/
theorem back_fits {tb : Timebase} {ms : UInt64} (fits : ms.toNat * tb.unit < 2 ^ 64) :
    tb.exactMachTime ms * tb.numer.toNat < 2 ^ 64 :=
  Nat.lt_of_le_of_lt (Nat.div_mul_le_self _ _) fits

/-- Milliseconds whose product fits come back at most `⌈(numer - 1) / unit⌉` smaller, and
unchanged when the division is even. -/
theorem round_trip_loss {tb : Timebase} {ms : UInt64} (fits : ms.toNat * tb.unit < 2 ^ 64) :
    ∃ machTime r, msecsToMachTime (some tb) ms = .ok machTime ∧
      machTimeToMsecs (some tb) machTime = .ok r ∧ r ≤ ms ∧
      ms.toNat - r.toNat ≤ (tb.numer.toNat - 1) ⌈/⌉ tb.unit ∧
      (tb.numer.toNat ∣ ms.toNat * tb.unit → r = ms) := by
  obtain ⟨machTime, there, time⟩ := msecsToMachTime_exact fits
  have fitsBack : machTime.toNat * tb.numer.toNat < 2 ^ 64 := by
    rw [time]
    exact back_fits fits
  obtain ⟨r, back, value⟩ := machTimeToMsecs_exact fitsBack
  have trip : r.toNat =
      convert tb.numer.toNat tb.unit (convert tb.unit tb.numer.toNat ms.toNat) := by
    rw [value, Timebase.exactMsecs, time, Timebase.exactMachTime]
  refine ⟨machTime, r, there, back, ?_, ?_, ?_⟩
  · rw [UInt64.le_iff_toNat_le, trip]
    exact convert_back_le _ _ _
  · rw [trip]
    exact convert_back_loss tb.numer_pos tb.unit_pos _
  · intro divides
    rw [← UInt64.toNat_inj, trip]
    exact convert_back_exact tb.unit_pos divides

theorem machTimeToMsecs_mono {tb : Timebase} {machTime later : UInt64} (le : machTime ≤ later)
    (fits : later.toNat * tb.numer.toNat < 2 ^ 64) :
    ∃ r r', machTimeToMsecs (some tb) machTime = .ok r ∧
      machTimeToMsecs (some tb) later = .ok r' ∧ r ≤ r' := by
  have order := UInt64.le_iff_toNat_le.mp le
  have earlier := Nat.mul_le_mul_right tb.numer.toNat order
  obtain ⟨r, returned, value⟩ := machTimeToMsecs_exact (Nat.lt_of_le_of_lt earlier fits)
  obtain ⟨r', returned', value'⟩ := machTimeToMsecs_exact fits
  refine ⟨r, r', returned, returned', ?_⟩
  rw [UInt64.le_iff_toNat_le, value, value']
  exact convert_mono _ _ order

theorem msecsToMachTime_mono {tb : Timebase} {ms more : UInt64} (le : ms ≤ more)
    (fits : more.toNat * tb.unit < 2 ^ 64) :
    ∃ r r', msecsToMachTime (some tb) ms = .ok r ∧ msecsToMachTime (some tb) more = .ok r' ∧
      r ≤ r' := by
  have order := UInt64.le_iff_toNat_le.mp le
  have earlier := Nat.mul_le_mul_right tb.unit order
  obtain ⟨r, returned, value⟩ := msecsToMachTime_exact (Nat.lt_of_le_of_lt earlier fits)
  obtain ⟨r', returned', value'⟩ := msecsToMachTime_exact fits
  refine ⟨r, r', returned, returned', ?_⟩
  rw [UInt64.le_iff_toNat_le, value, value']
  exact convert_mono _ _ order

/-- Where the products fit, the way there and back has a bounded loss and both ways
keep the order. -/
theorem conversions_round_trip (tb : Timebase) :
    (∀ ms, ms.toNat * tb.unit < 2 ^ 64 →
      ∃ machTime r, msecsToMachTime (some tb) ms = .ok machTime ∧
        machTimeToMsecs (some tb) machTime = .ok r ∧ r ≤ ms ∧
        ms.toNat - r.toNat ≤ (tb.numer.toNat - 1) ⌈/⌉ tb.unit ∧
        (tb.numer.toNat ∣ ms.toNat * tb.unit → r = ms)) ∧
    (∀ machTime later, machTime ≤ later → later.toNat * tb.numer.toNat < 2 ^ 64 →
      ∃ r r', machTimeToMsecs (some tb) machTime = .ok r ∧
        machTimeToMsecs (some tb) later = .ok r' ∧ r ≤ r') ∧
    ∀ ms more, ms ≤ more → more.toNat * tb.unit < 2 ^ 64 →
      ∃ r r', msecsToMachTime (some tb) ms = .ok r ∧ msecsToMachTime (some tb) more = .ok r' ∧
        r ≤ r' :=
  ⟨fun _ => round_trip_loss, fun _ _ => machTimeToMsecs_mono, fun _ _ => msecsToMachTime_mono⟩

/-- On Apple silicon one second goes to 24000000 units and comes back whole. -/
theorem conversions_round_trip_second : ∃ machTime r,
    msecsToMachTime (some appleSilicon) 1000 = .ok machTime ∧
      machTimeToMsecs (some appleSilicon) machTime = .ok r ∧ r = 1000 := by
  obtain ⟨machTime, r, there, back, _, _, even⟩ :=
    (conversions_round_trip appleSilicon).1 1000 (by decide +kernel)
  exact ⟨machTime, r, there, back, even (by decide +kernel)⟩

end MonitoringDemos.Tools
