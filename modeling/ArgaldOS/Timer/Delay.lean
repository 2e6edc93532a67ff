import ArgaldOS.Framework.Loops
import ArgaldOS.Framework.Words

/-! # Busy waiting (`kernel/timer.c`)

    `_delay` reads the time stamp counter, adds the number of ticks to wait, and
    reads the counter again and again.  `mdelay` and its siblings turn times into
    ticks first.

    `tsc i` is reading `i` of the counter.  The loop has no bound, so it takes the
    number of its rounds as fuel, and what it returns is the number of the last
    reading.

    * `delay_exit`: at which reading the loop is left;
    * `delay_returns_iff`: when it is left at all;
    * `delay_never_waits`: no call waits for as long as it should.
-/

namespace ArgaldOS

open Loops

/-! ## Section 1: The functions -/

/-- `_delay`. -/
def _delay (tsc : Nat → UInt64) (n : UInt64) (fuel : Nat) : Option Nat :=
  let timeout := tsc 0 + n
  -- The loop is left while there is time left.
  whileTrue (fun i => if tsc i < timeout then .inl i else .inr (i + 1)) fuel 1

/-- The argument of `_delay` for `x` of the `unit` parts of a second. -/
def delayTicks (cpu_hz : UInt64) (x : UInt32) (unit : UInt64) : UInt64 :=
  x.toUInt64 * cpu_hz / unit

/-- `ndelay`. -/
def ndelay (tsc : Nat → UInt64) (cpu_hz : UInt64) (n : UInt32) : Nat → Option Nat :=
  _delay tsc (delayTicks cpu_hz n 1000000000)

/-- `udelay`. -/
def udelay (tsc : Nat → UInt64) (cpu_hz : UInt64) (u : UInt32) : Nat → Option Nat :=
  _delay tsc (delayTicks cpu_hz u 1000000)

/-- `mdelay`. -/
def mdelay (tsc : Nat → UInt64) (cpu_hz : UInt64) (m : UInt32) : Nat → Option Nat :=
  _delay tsc (delayTicks cpu_hz m 1000)

/-- `delay`, without a division. -/
def delay (tsc : Nat → UInt64) (cpu_hz : UInt64) (s : UInt32) : Nat → Option Nat :=
  _delay tsc (s.toUInt64 * cpu_hz)

/-! ## Section 2: The loop -/

/-- The first `N` readings behind the first one go up: the counter does not
    wrap. -/
def Increasing (tsc : Nat → UInt64) (N : Nat) : Prop := ∀ i j, i < j → j ≤ N → tsc i < tsc j

/-- **What a delay is for**: it returns, within `N` readings, and the last reading
    is at least `ticks` after the first. -/
def Waits (tsc : Nat → UInt64) (N ticks : Nat) (call : Nat → Option Nat) : Prop :=
  ∃ fuel ≤ N, ∃ i, call fuel = some i ∧ (tsc 0).toNat + ticks ≤ (tsc i).toNat

section loop
variable {tsc : Nat → UInt64} {n : UInt64} {N fuel i : Nat}

/-- The loop is a search for a reading below the timeout. -/
theorem delay_eq_search : _delay tsc n fuel =
    searchFrom (fun i => if tsc i < tsc 0 + n then some i else none) fuel 1 := by
  unfold _delay
  apply whileTrue_eq_searchFrom (fun i => i)
  intro i
  split <;> simp

/-- **The loop is left** at the first reading below the timeout. -/
theorem delay_exit (h : _delay tsc n fuel = some i) :
    1 ≤ i ∧ i ≤ fuel ∧ tsc i < tsc 0 + n := by
  rw [delay_eq_search] at h
  obtain ⟨k, hk, hkn, hhit, -⟩ := searchFrom_eq_some h
  split at hhit
  · rename_i hlt
    obtain rfl := Option.some.inj hhit
    exact ⟨hk, by omega, hlt⟩
  · cases hhit

/-- **When the loop is left**: after one reading, or not at all. -/
theorem delay_returns_iff (hinc : Increasing tsc N) (hfuel : fuel ≤ N) :
    _delay tsc n fuel = some i ↔ i = 1 ∧ 1 ≤ fuel ∧ tsc 1 < tsc 0 + n := by
  constructor
  · intro h
    obtain ⟨hi, hif, hlt⟩ := delay_exit h
    have hfirst : tsc 1 < tsc 0 + n := by
      rcases Nat.eq_or_lt_of_le hi with rfl | hlater
      · exact hlt
      · exact UInt64.lt_trans (hinc 1 i hlater (by omega)) hlt
    have hone : _delay tsc n fuel = some 1 := by
      rw [delay_eq_search]
      apply searchFrom_of_first (Nat.le_refl 1) (by omega) (if_pos hfirst)
      intro j hj hj1
      omega
    rw [hone] at h
    exact ⟨(Option.some.inj h).symm, by omega, hfirst⟩
  · rintro ⟨rfl, hpos, hlt⟩
    rw [delay_eq_search]
    apply searchFrom_of_first (Nat.le_refl 1) (by omega) (if_pos hlt)
    intro j hj hj1
    omega

/-- A delay that returns returns too early. -/
theorem not_waits_delay (tsc : Nat → UInt64) (N : Nat) (n : UInt64) :
    ¬ Waits tsc N n.toNat (_delay tsc n) := by
  rintro ⟨fuel, -, i, hreturn, hwait⟩
  obtain ⟨-, -, hlt⟩ := delay_exit hreturn
  have hlt := UInt64.lt_iff_toNat_lt.mp hlt
  rw [UInt64.toNat_add] at hlt
  have hmod := Nat.mod_le ((tsc 0).toNat + n.toNat) (2 ^ 64)
  omega

end loop

/-! ## Section 3: Ticks -/

section ticks
variable {cpu_hz : UInt64} {x : UInt32} {unit : UInt64}

/-- No product overflows on a processor of less than 2^32 ticks a second. -/
theorem toNat_product (hcpu : cpu_hz.toNat < 2 ^ 32) (x : UInt32) :
    (x.toUInt64 * cpu_hz).toNat = x.toNat * cpu_hz.toNat := by
  have hx := x.toNat_lt
  have hmul : x.toNat * cpu_hz.toNat ≤ 2 ^ 32 * cpu_hz.toNat := Nat.mul_le_mul_right _ (by omega)
  rw [Words.toNat_mul_lt _ _ (by rw [UInt32.toNat_toUInt64]; omega), UInt32.toNat_toUInt64]

theorem toNat_delayTicks (hcpu : cpu_hz.toNat < 2 ^ 32) (x : UInt32) (unit : UInt64) :
    (delayTicks cpu_hz x unit).toNat = x.toNat * cpu_hz.toNat / unit.toNat := by
  unfold delayTicks
  rw [UInt64.toNat_div, toNat_product hcpu]

end ticks

/-- **Main theorem on the delays**: for every clock and every number of ticks,
    `_delay` returns after one more reading or not at all, and never waits; nor do
    the functions that call it, on any processor of less than 2^32 ticks a
    second, though their products do not overflow. -/
theorem delay_never_waits {tsc : Nat → UInt64} {N : Nat} (hinc : Increasing tsc N)
    {cpu_hz : UInt64} (hcpu : cpu_hz.toNat < 2 ^ 32) :
    (∀ n : UInt64, ¬ Waits tsc N n.toNat (_delay tsc n) ∧
        ∀ fuel ≤ N, ∀ i, _delay tsc n fuel = some i ↔ i = 1 ∧ 1 ≤ fuel ∧ tsc 1 < tsc 0 + n) ∧
      (∀ m : UInt32, ¬ Waits tsc N (m.toNat * cpu_hz.toNat / 1000) (mdelay tsc cpu_hz m)) ∧
      (∀ u : UInt32, ¬ Waits tsc N (u.toNat * cpu_hz.toNat / 1000000) (udelay tsc cpu_hz u)) ∧
      (∀ n : UInt32, ¬ Waits tsc N (n.toNat * cpu_hz.toNat / 1000000000) (ndelay tsc cpu_hz n)) ∧
      ∀ x : UInt32, (x.toUInt64 * cpu_hz).toNat = x.toNat * cpu_hz.toNat := by
  have hunit : ∀ (x : UInt32) (unit : UInt64),
      ¬ Waits tsc N (x.toNat * cpu_hz.toNat / unit.toNat) (_delay tsc (delayTicks cpu_hz x unit)) := by
    intro x unit
    rw [← toNat_delayTicks hcpu]
    exact not_waits_delay tsc N _
  refine ⟨?_, fun m => hunit m 1000, fun u => hunit u 1000000, fun n => hunit n 1000000000,
    toNat_product hcpu⟩
  intro n
  exact ⟨not_waits_delay tsc N n, fun fuel hfuel i => delay_returns_iff hinc hfuel⟩

/-- A counter that goes up by a thousand from reading to reading. -/
def thousands (i : Nat) : UInt64 := 1000 * UInt64.ofNat i

theorem thousands_increasing : Increasing thousands 10 := by
  intro i j hij hj
  have hi : (UInt64.ofNat i).toNat = i := Words.ofNat_toNat_lt i (by omega)
  have hj' : (UInt64.ofNat j).toNat = j := Words.ofNat_toNat_lt j (by omega)
  unfold thousands
  rw [UInt64.lt_iff_toNat_lt, UInt64.toNat_mul, UInt64.toNat_mul, hi, hj']
  show 1000 * i % 2 ^ 64 < 1000 * j % 2 ^ 64
  rw [Nat.mod_eq_of_lt (by omega), Nat.mod_eq_of_lt (by omega)]
  omega

/-- A delay of 5000 ticks ends after 1000; a delay of none does not end within ten
    readings. -/
theorem delay_too_short :
    _delay thousands 5000 10 = some 1 ∧ ¬ Waits thousands 10 5000 (_delay thousands 5000) ∧
      _delay thousands 0 10 = none ∧ ¬ Waits thousands 10 0 (_delay thousands 0) :=
  ⟨by decide, not_waits_delay thousands 10 5000, by decide, not_waits_delay thousands 10 0⟩

/-- A millisecond on a processor of a million ticks a second. -/
theorem mdelay_never_waits_one : ¬ Waits thousands 10 1000 (mdelay thousands 1000000 1) := by
  have hcpu : (1000000 : UInt64).toNat < 2 ^ 32 := by decide
  exact (delay_never_waits thousands_increasing hcpu).2.1 1

end ArgaldOS
