import ScriptScan.Proofs.Integers

namespace ScriptScan

open Numeral Digits Binary64

def addSuffix : String := "add an `n` suffix for an arbitrary-precision integer"

def removeSuffix : String := "remove the `n` suffix to get a floating-point number"

def Scan.Advises (s : Scan) (help : String) : Prop :=
  ∃ d ∈ s.diagnostics, d.code = some ⟨"E", 1005⟩ ∧ help ∈ d.helps

instance (s : Scan) (help : String) : Decidable (s.Advises help) :=
  inferInstanceAs (Decidable (∃ d ∈ s.diagnostics, d.code = some ⟨"E", 1005⟩ ∧ help ∈ d.helps))

theorem addSuffix_mem_helps_iff (e : Numeral.Error) :
    addSuffix ∈ (Fault.number e).helps ↔ e = .outOfRange := by
  cases e with
  | outOfRange => exact iff_of_true List.mem_cons_self rfl
  | notInteger => exact iff_of_false (by decide +kernel) (by simp)
  | exponentTooLarge | malformed | malformedFloat | malformedRadix =>
      exact iff_of_false List.not_mem_nil nofun

theorem removeSuffix_mem_helps_iff (e : Numeral.Error) :
    removeSuffix ∈ (Fault.number e).helps ↔ e = .notInteger := by
  cases e with
  | outOfRange => exact iff_of_false (by decide +kernel) (by simp)
  | notInteger => exact iff_of_true List.mem_cons_self rfl
  | exponentTooLarge | malformed | malformedFloat | malformedRadix =>
      exact iff_of_false List.not_mem_nil nofun

theorem cast_overflow : (overflow : ℚ) = 2 ^ 1024 - 2 ^ 970 := by
  have hsplit : (2 : ℚ) ^ 1024 = 2 ^ 54 * 2 ^ 970 := by rw [← pow_add]
  have hfactor : twoTo 54 - 1 = 18014398509481983 := rfl
  rw [overflow, hfactor, Nat.cast_mul, cast_twoTo, hsplit]
  generalize (2 : ℚ) ^ 970 = unit
  push_cast
  ring

namespace Numeral.Plain

variable {p : Plain}

/-- The literal spells no integer: it has a fraction, or a negative exponent that a suffixed literal
could have if it were positive. -/
def Fractional (p : Plain) : Prop :=
  p.fraction.isSome ∨ ∃ e ∈ p.exponent, e.negative ∧ positional 10 e.digits ≠ 0 ∧
    positional 10 e.digits ≤ 10000

theorem Proper.diagnostics_eq_nil_iff (hp : p.Proper) :
    (scan (String.ofList p.chars)).diagnostics = [] ↔ ¬ p.Unrepresentable := by
  rw [← hp.value_error_iff]
  cases hv : p.value with
  | ok v => simp [hp.scan_ok hv String.toList_ofList]
  | error e => simp [hp.scan_error hv String.toList_ofList]

theorem Proper.advises_iff (hp : p.Proper) (help : String) :
    (scan (String.ofList p.chars)).Advises help ↔
      ∃ e, p.value = .error e ∧ help ∈ (Fault.number e).helps := by
  unfold Scan.Advises
  cases hv : p.value with
  | ok v => simp [hp.scan_ok hv String.toList_ofList]
  | error e =>
      simp [hp.scan_error hv String.toList_ofList, Fault.diagnostic, Fault.code,
        Code.undecodableNumber]

theorem Proper.value_eq_outOfRange_iff (hp : p.Proper) (hs : p.suffixed = false) :
    p.value = .error .outOfRange ↔ (overflow : ℚ) ≤ p.amount := by
  obtain ⟨d, hd, hamount⟩ := hp.decimal?_eq
  rw [← hamount, ← d.toBinary64?_eq_none_iff, value, hs, float, hd]
  dsimp only
  cases d.toBinary64? with
  | none => simp [Except.map]
  | some x => simp [Except.map]

theorem Proper.power_eq_notInteger_iff (hp : p.Proper) :
    p.power = .error .notInteger ↔ ∃ e ∈ p.exponent, e.negative ∧
      positional 10 e.digits ≠ 0 ∧ positional 10 e.digits ≤ 10000 := by
  unfold power
  cases he : p.exponent with
  | none => simp
  | some e =>
      have hrun := (hp.exponent e he).2
      simp only [toNat?_ten hrun, number_ten hrun, Option.mem_def, Option.some.injEq,
        exists_eq_left']
      split
      · rename_i hmax
        have hmax : 10000 < positional 10 e.digits := hmax
        simp only [Except.error.injEq, reduceCtorEq, false_iff]
        omega
      · rename_i hmax
        have hmax : ¬ 10000 < positional 10 e.digits := hmax
        split
        · rename_i hneg
          simp only [true_iff]
          exact ⟨hneg.1, hneg.2, by omega⟩
        · rename_i hneg
          simp only [reduceCtorEq, false_iff]
          exact fun h => hneg ⟨h.1, h.2.1⟩

theorem Proper.value_eq_notInteger_iff (hp : p.Proper) (hs : p.suffixed = true) :
    p.value = .error .notInteger ↔ p.Fractional := by
  rw [value, if_pos hs, Fractional, integer, ← hp.power_eq_notInteger_iff]
  by_cases hf : p.fraction.isSome = true
  · simp [hf, Except.map]
  · rw [if_neg hf, toNat?_ten hp.whole]
    cases p.power with
    | error e => simp [hf, Except.bind, Except.map]
    | ok n => simp [hf, Except.bind, Except.map]

end Numeral.Plain

/-- A literal without a suffix is given the advice to add one exactly if it is out of range, and
the advice works exactly if the literal is integral. One with a suffix is given the advice to remove
it exactly if it has a fraction or a negative exponent, and this works exactly if the value is in
range. A literal that is both out of range and fractional is sent from one spelling to the other and
back. -/
theorem suffix_advice_works_iff (p : Plain) (hp : p.Proper) :
    let text := String.ofList p.body
    let suffixed := String.ofList (p.body ++ ['n'])
    ((scan text).Advises addSuffix ↔ 2 ^ 1024 - 2 ^ 970 ≤ p.amount) ∧
    ((scan text).Advises addSuffix → ((scan suffixed).diagnostics = [] ↔ p.Integral)) ∧
    ((scan suffixed).Advises removeSuffix ↔ p.Fractional) ∧
    ((scan suffixed).Advises removeSuffix →
      ((scan text).diagnostics = [] ↔ p.amount < 2 ^ 1024 - 2 ^ 970)) := by
  have hplain : Plain.Proper { p with suffixed := false } := ⟨hp.whole, hp.fraction, hp.exponent⟩
  have hsuffixed : Plain.Proper { p with suffixed := true } := ⟨hp.whole, hp.fraction, hp.exponent⟩
  have htext : Plain.chars { p with suffixed := false } = p.body := List.append_nil _
  have hadd := hplain.advises_iff addSuffix
  have hremove := hsuffixed.advises_iff removeSuffix
  have hfloat := hplain.diagnostics_eq_nil_iff
  have hinteger := hsuffixed.diagnostics_eq_nil_iff
  simp only [addSuffix_mem_helps_iff, exists_eq_right, hplain.value_eq_outOfRange_iff rfl] at hadd
  simp only [removeSuffix_mem_helps_iff, exists_eq_right, hsuffixed.value_eq_notInteger_iff rfl]
    at hremove
  rw [hsuffixed.unrepresentable_iff rfl, not_not] at hinteger
  rw [Plain.Unrepresentable, if_neg Bool.false_ne_true, not_le] at hfloat
  rw [htext] at hadd hfloat
  rw [← cast_overflow]
  exact ⟨hadd, fun _ => hinteger, hremove, fun _ => hfloat⟩

/-- An integer beyond the range of floats, and a fraction with a suffix. -/
theorem suffix_advice_works_either_way :
    ((scan "1e400").Advises addSuffix ∧ (scan "1e400n").diagnostics = []) ∧
      (scan "1.5n").Advises removeSuffix ∧ (scan "1.5").diagnostics = [] := by
  have hlarge : Plain.Proper ⟨['1'], none, some ⟨'e', false, ['4', '0', '0']⟩, false⟩ := by
    refine ⟨Text.isRun_of_all (by decide) (by decide), by rintro _ ⟨⟩, ?_⟩
    rintro _ ⟨⟩
    exact ⟨rfl, Text.isRun_of_all (by decide) (by decide)⟩
  have hhalf : Plain.Proper ⟨['1'], some ['5'], none, false⟩ := by
    refine ⟨Text.isRun_of_all (by decide) (by decide), ?_, by rintro _ ⟨⟩⟩
    rintro _ ⟨⟩
    exact Text.isRun_of_all (by decide) (by decide)
  obtain ⟨hadd, hworks, -⟩ := suffix_advice_works_iff _ hlarge
  obtain ⟨-, -, hremove, hworks'⟩ := suffix_advice_works_iff _ hhalf
  have hadvised := hadd.mpr (by
    rw [← cast_overflow, Plain.amount_eq]
    exact Decimal.overflow_le_amount_of_exponent (by decide) (by decide))
  have hadvised' := hremove.mpr (.inl rfl)
  refine ⟨⟨hadvised, (hworks hadvised).mpr ⟨rfl, ?_⟩⟩, hadvised', (hworks' hadvised').mpr ?_⟩
  · rintro _ ⟨⟩
    exact ⟨by decide, .inl rfl⟩
  · have hone : number 10 ['1'] = 1 := by decide
    have hfive : number 10 ['5'] = 5 := by decide
    have htwo : 2 ≤ overflow := by decide +kernel
    rw [← cast_overflow]
    calc
      Plain.amount ⟨['1'], some ['5'], none, false⟩ < 2 := by
        simp only [Plain.amount, Option.getD_some, hone, hfive, Option.elim_none]
        norm_num
      _ ≤ overflow := by exact_mod_cast htwo

/-- A fraction beyond the range of floats is sent from one spelling to the other and back. -/
theorem suffix_advice_runs_in_circles :
    ((scan "1.5e400").Advises addSuffix ∧ (scan "1.5e400n").diagnostics ≠ []) ∧
      (scan "1.5e400n").Advises removeSuffix ∧ (scan "1.5e400").diagnostics ≠ [] := by
  decide +kernel

end ScriptScan
