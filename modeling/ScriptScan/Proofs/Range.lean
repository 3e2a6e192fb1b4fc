import Mathlib.Algebra.Order.Field.Power
import Mathlib.Data.Rat.Cast.Order
import Mathlib.Tactic.FieldSimp
import ScriptScan.Proofs.Accumulation
import ScriptScan.Proofs.Classification

namespace ScriptScan

open Binary64

theorem one_le_overflow : 1 ≤ overflow := Nat.mul_pos (by decide) (twoTo_pos 970)

theorem overflow_le_tenTo : overflow ≤ tenTo 309 := by decide +kernel

theorem cast_twoTo (n : Nat) : (twoTo n : ℚ) = 2 ^ n := by
  rw [twoTo, Nat.pow_eq, Nat.cast_pow, Nat.cast_ofNat]

theorem cast_tenTo (n : Nat) : (tenTo n : ℚ) = 10 ^ n := by
  rw [tenTo, Nat.pow_eq, Nat.cast_pow, Nat.cast_ofNat]

namespace Decimal

def amount (d : Decimal) : ℚ := d.digits * 10 ^ d.exponent

theorem overflow_le_amount_of_exponent {d : Decimal} (hd : d.digits ≠ 0) (he : 308 < d.exponent) :
    (overflow : ℚ) ≤ d.amount := by
  have hdigits : (1 : ℚ) ≤ d.digits := by exact_mod_cast Nat.one_le_iff_ne_zero.mpr hd
  calc
    (overflow : ℚ) ≤ tenTo 309 := by exact_mod_cast overflow_le_tenTo
    _ = 10 ^ ((309 : Nat) : ℤ) := by rw [cast_tenTo, zpow_natCast]
    _ ≤ 10 ^ d.exponent := zpow_le_zpow_right₀ (by norm_num) (by omega)
    _ ≤ d.amount := le_mul_of_one_le_left (by positivity) hdigits

theorem amount_lt_of_exponent {d : Decimal} (he : d.exponent + d.digits.log2 < -330) :
    d.amount < overflow := by
  have hdigits : (d.digits : ℚ) ≤ 10 ^ ((d.digits.log2 + 1 : Nat) : ℤ) := by
    have hlog : d.digits ≤ 2 ^ (d.digits.log2 + 1) := Nat.lt_log2_self.le
    have hten : 2 ^ (d.digits.log2 + 1) ≤ 10 ^ (d.digits.log2 + 1) :=
      Nat.pow_le_pow_left (by decide) _
    exact_mod_cast hlog.trans hten
  calc
    d.amount ≤ 10 ^ ((d.digits.log2 + 1 : Nat) : ℤ) * 10 ^ d.exponent :=
      mul_le_mul_of_nonneg_right hdigits (by positivity)
    _ = 10 ^ (((d.digits.log2 + 1 : Nat) : ℤ) + d.exponent) :=
      (zpow_add₀ (by norm_num) _ _).symm
    _ < 10 ^ (0 : ℤ) := zpow_lt_zpow_right₀ (by norm_num) (by push_cast; omega)
    _ ≤ overflow := by exact_mod_cast one_le_overflow

theorem overflow_le_amount_nonneg {d : Decimal} (he : 0 ≤ d.exponent) :
    (overflow : ℚ) ≤ d.amount ↔ overflow ≤ d.digits * tenTo d.exponent.toNat := by
  have hamount : d.amount = (d.digits * tenTo d.exponent.toNat : Nat) := by
    rw [amount, Nat.cast_mul, cast_tenTo, ← zpow_natCast, Int.toNat_of_nonneg he]
  rw [hamount, Nat.cast_le]

theorem overflow_le_amount_neg {d : Decimal} (he : d.exponent < 0) :
    (overflow : ℚ) ≤ d.amount ↔ tenTo (-d.exponent).toNat * overflow ≤ d.digits := by
  have hamount : d.amount = d.digits / (tenTo (-d.exponent).toNat : Nat) := by
    rw [amount, cast_tenTo, ← zpow_natCast, Int.toNat_of_nonneg (by omega), zpow_neg,
      div_inv_eq_mul]
  have hpos : (0 : ℚ) < (tenTo (-d.exponent).toNat : Nat) := by
    rw [cast_tenTo]
    positivity
  rw [hamount, le_div_iff₀ hpos, mul_comm]
  exact_mod_cast Iff.rfl

theorem tenTo_pos (n : Nat) : 0 < tenTo n := Nat.pow_pos (by decide)

theorem toBinary64?_eq_none_iff (d : Decimal) :
    d.toBinary64? = none ↔ (overflow : ℚ) ≤ d.amount := by
  have hunit := twoTo_pos 1074
  unfold toBinary64?
  by_cases hzero : d.digits = 0
  · have hlt : d.amount < overflow := by
      rw [amount, hzero, Nat.cast_zero, zero_mul]
      exact_mod_cast one_le_overflow
    rw [if_pos hzero]
    exact iff_of_false (Option.some_ne_none _) (not_le_of_gt hlt)
  rw [if_neg hzero]
  by_cases hlarge : 308 < d.exponent
  · rw [if_pos hlarge]
    exact iff_of_true rfl (overflow_le_amount_of_exponent hzero hlarge)
  rw [if_neg hlarge]
  by_cases hsmall : d.exponent + d.digits.log2 < -330
  · rw [if_pos hsmall]
    exact iff_of_false (Option.some_ne_none _) (not_le_of_gt (amount_lt_of_exponent hsmall))
  rw [if_neg hsmall]
  by_cases hsign : 0 ≤ d.exponent
  · rw [if_pos hsign, nearest?_eq_none_iff _ Nat.one_pos, Nat.one_mul,
      Nat.mul_le_mul_right_iff hunit, overflow_le_amount_nonneg hsign]
  · rw [if_neg hsign, nearest?_eq_none_iff _ (tenTo_pos _), ← Nat.mul_assoc,
      Nat.mul_le_mul_right_iff hunit, overflow_le_amount_neg (Int.not_le.mp hsign)]

end Decimal

theorem Radix.base_eq_twoTo (r : Radix) : ∃ s, r.base = twoTo s := by
  cases r with
  | binary => exact ⟨1, rfl⟩
  | octal => exact ⟨3, rfl⟩
  | hexadecimal => exact ⟨4, rfl⟩

namespace Numeral

open Digits

def Exponent.amount (e : Exponent) : ℤ :=
  if e.negative then -(number 10 e.digits : ℤ) else number 10 e.digits

namespace Plain

def amount (p : Plain) : ℚ :=
  let fraction := p.fraction.getD []
  (number 10 p.whole + number 10 fraction / 10 ^ fraction.length) *
    10 ^ (p.exponent.elim 0 Exponent.amount)

/-- A literal of unbounded size that spells no integer or has too large an exponent, or any other
literal whose value is out of range. -/
def Unrepresentable (p : Plain) : Prop :=
  if p.suffixed then
    p.fraction.isSome ∨
      ∃ e ∈ p.exponent, (e.negative ∧ number 10 e.digits ≠ 0) ∨ 10000 < number 10 e.digits
  else (overflow : ℚ) ≤ p.amount

theorem Proper.run {p : Plain} (hp : p.Proper) :
    Text.IsRun Char.isDigit (p.whole ++ p.fraction.getD []) := by
  refine ⟨?_, ?_⟩
  · intro h
    exact hp.whole.1 (List.append_eq_nil_iff.mp h).1
  · intro c hc
    obtain hc | hc := List.mem_append.mp hc
    · exact hp.whole.2 c hc
    · cases hf : p.fraction with
      | none => simp [hf] at hc
      | some ds => exact (hp.fraction ds hf).2 c (by simpa [hf] using hc)

theorem amount_eq (p : Plain) :
    p.amount = Decimal.amount ⟨number 10 (p.whole ++ p.fraction.getD []),
      p.exponent.elim 0 Exponent.amount - ((p.fraction.getD []).length : ℤ)⟩ := by
  simp only [amount, Decimal.amount, number_append]
  generalize p.fraction.getD [] = ds
  have hten : (10 : ℚ) ^ ds.length ≠ 0 := by positivity
  rw [zpow_sub₀ (by norm_num), zpow_natCast]
  push_cast
  field_simp

theorem Proper.decimal?_eq {p : Plain} (hp : p.Proper) :
    ∃ d, p.decimal? = some d ∧ d.amount = p.amount := by
  rw [amount_eq, decimal?, toNat?_ten hp.run]
  cases he : p.exponent with
  | none => exact ⟨_, rfl, by simp⟩
  | some e =>
      simp only [toNat?_ten (hp.exponent e he).2]
      exact ⟨_, rfl, rfl⟩

theorem Proper.float_error_iff {p : Plain} (hp : p.Proper) :
    (∃ e, p.float = .error e) ↔ (overflow : ℚ) ≤ p.amount := by
  obtain ⟨d, hd, hamount⟩ := hp.decimal?_eq
  rw [← hamount, ← d.toBinary64?_eq_none_iff, float, hd]
  dsimp only
  cases d.toBinary64? with
  | none => simp
  | some x => simp

theorem Proper.power_error_iff {p : Plain} (hp : p.Proper) :
    (∃ e, p.power = .error e) ↔
      ∃ e ∈ p.exponent, (e.negative ∧ number 10 e.digits ≠ 0) ∨ 10000 < number 10 e.digits := by
  unfold power
  cases he : p.exponent with
  | none => simp
  | some e =>
      simp only [toNat?_ten (hp.exponent e he).2, Option.mem_def, Option.some.injEq,
        exists_eq_left']
      split
      · rename_i hmax
        simp [show 10000 < number 10 e.digits from hmax]
      · rename_i hmax
        split
        · rename_i hneg
          simp [hneg]
        · rename_i hneg
          simp only [reduceCtorEq, exists_false, false_iff, not_or]
          exact ⟨hneg, hmax⟩

theorem Proper.integer_error_iff {p : Plain} (hp : p.Proper) :
    (∃ e, p.integer = .error e) ↔ p.fraction.isSome ∨ ∃ e, p.power = .error e := by
  unfold integer
  by_cases hf : p.fraction.isSome = true
  · simp [hf]
  · rw [if_neg hf, toNat?_ten hp.whole]
    cases p.power with
    | error e => simp [hf, Except.bind]
    | ok n => simp [hf, Except.bind]

theorem Proper.value_error_iff {p : Plain} (hp : p.Proper) :
    (∃ e, p.value = .error e) ↔ p.Unrepresentable := by
  unfold value Unrepresentable
  by_cases hs : p.suffixed = true
  · rw [if_pos hs, if_pos hs, ← hp.power_error_iff, ← hp.integer_error_iff]
    cases p.integer <;> simp [Except.map]
  · rw [if_neg hs, if_neg hs, ← hp.float_error_iff]
    cases p.float <;> simp [Except.map]

theorem Proper.float_error {p : Plain} (hp : p.Proper) {e : Error} (h : p.float = .error e) :
    e = .outOfRange := by
  obtain ⟨d, hd, -⟩ := hp.decimal?_eq
  rw [float, hd] at h
  dsimp only at h
  split at h
  · cases h
    rfl
  · cases h

theorem power_error {p : Plain} {e : Error} (h : p.power = .error e) :
    e = .notInteger ∨ e = .exponentTooLarge := by
  unfold power at h
  split at h
  · cases h
  · split at h
    · cases h
      exact .inr rfl
    · split at h
      · cases h
        exact .inr rfl
      · split at h
        · cases h
          exact .inl rfl
        · cases h

theorem Proper.integer_error {p : Plain} (hp : p.Proper) {e : Error} (h : p.integer = .error e) :
    e = .notInteger ∨ e = .exponentTooLarge := by
  rw [integer, toNat?_ten hp.whole] at h
  split at h
  · cases h
    exact .inl rfl
  · cases hpower : p.power with
    | error e' =>
        rw [hpower] at h
        cases h
        exact power_error hpower
    | ok n =>
        rw [hpower] at h
        cases h

theorem Proper.value_error {p : Plain} (hp : p.Proper) {e : Error} (h : p.value = .error e) :
    e = .outOfRange ∨ e = .notInteger ∨ e = .exponentTooLarge := by
  unfold value at h
  split at h
  · cases hi : p.integer with
    | error e' =>
        rw [hi] at h
        cases h
        exact .inr (hp.integer_error hi)
    | ok n =>
        rw [hi] at h
        cases h
  · cases hf : p.float with
    | error e' =>
        rw [hf] at h
        cases h
        exact .inl (hp.float_error hf)
    | ok x =>
        rw [hf] at h
        cases h

end Plain

namespace Marked

def Unrepresentable (m : Marked) : Prop :=
  m.suffixed = false ∧ overflow ≤ number m.radix.base m.digits

theorem value_error_iff {m : Marked} (hd : Text.IsRun (isOf m.radix.base) m.digits) :
    (∃ e, m.value = .error e) ↔ m.Unrepresentable := by
  unfold value Unrepresentable
  by_cases hs : m.suffixed = true
  · simp [hs, toNat?_eq_number hd]
  · obtain ⟨s, hbase⟩ := m.radix.base_eq_twoTo
    rw [hbase] at hd ⊢
    rw [if_neg hs, ← toBinary64?_eq_none_iff hd.2]
    cases toBinary64? (twoTo s) m.digits <;> simp [hs]

theorem value_error {m : Marked} (hd : Text.IsRun (isOf m.radix.base) m.digits) {e : Error}
    (h : m.value = .error e) : e = .outOfRange := by
  rw [value, toNat?_eq_number hd] at h
  split at h
  · cases h
  · split at h
    · cases h
      rfl
    · cases h

end Marked

end Numeral

namespace Grammar

open Numeral

inductive Unrepresentable : List Char → Prop
  | plain {p : Plain} (hp : p.Proper) (h : p.Unrepresentable) : Unrepresentable p.chars
  | marked {m : Marked} (hr : Radix.ofMarker? m.marker = some m.radix)
      (hd : Text.IsRun (Digits.isOf m.radix.base) m.digits) (h : m.Unrepresentable) :
      Unrepresentable ('0' :: m.chars)

theorem Decodes.unrepresentable {w : List Char} {e : Numeral.Error} (h : Decodes w (.error e)) :
    Unrepresentable w := by
  generalize hv : Except.error e = v at h
  cases h with
  | plain hp => exact .plain hp (hp.value_error_iff.mp ⟨e, hv.symm⟩)
  | marked hr hd => exact .marked hr hd ((Marked.value_error_iff hd).mp ⟨e, hv.symm⟩)

theorem Decodes.error_eq {w : List Char} {e : Numeral.Error} (h : Decodes w (.error e)) :
    e = .outOfRange ∨ e = .notInteger ∨ e = .exponentTooLarge := by
  generalize hv : Except.error e = v at h
  cases h with
  | plain hp => exact hp.value_error hv.symm
  | marked hr hd => exact .inl (Marked.value_error hd hv.symm)

end Grammar

end ScriptScan
