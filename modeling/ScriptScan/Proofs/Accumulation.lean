import Mathlib.Data.Nat.Digits.Defs
import ScriptScan.Number.Digits
import ScriptScan.Proofs.Literal
import ScriptScan.Proofs.Rounding

namespace ScriptScan

namespace Digits

def number (base : Nat) (cs : List Char) : Nat := Nat.ofDigits base (cs.map value).reverse

theorem number_eq_foldl (base : Nat) (cs : List Char) :
    number base cs = cs.foldl (fun n c => n * base + value c) 0 := by
  rw [number, Nat.ofDigits_eq_foldr, List.foldr_reverse, List.foldl_map]
  simp only [Nat.cast_id, Nat.add_comm, Nat.mul_comm]

theorem number_append (base : Nat) (xs ys : List Char) :
    number base (xs ++ ys) = number base xs * base ^ ys.length + number base ys := by
  simp only [number, List.map_append, List.reverse_append, Nat.ofDigits_append, List.length_reverse,
    List.length_map]
  rw [Nat.add_comm, Nat.mul_comm]

theorem toNat?_eq_number {base : Nat} {cs : List Char} (h : Text.IsRun (isOf base) cs) :
    toNat? base cs = some (number base cs) := by
  have hall : cs.all (isOf base) = true := List.all_eq_true.mpr h.2
  rw [toNat?, if_pos ⟨h.1, hall⟩, number_eq_foldl]

theorem isOf_ten_of_isDigit {c : Char} (h : c.isDigit = true) : isOf 10 c = true := by
  have hle : c.toNat ≤ 57 := by
    simp only [Char.isDigit, Bool.and_eq_true, decide_eq_true_eq, UInt32.le_iff_toNat_le] at h
    exact h.2
  simp only [isOf, value, h, if_true, decide_eq_true_eq, Char.reduceToNat]
  omega

theorem toNat?_ten {cs : List Char} (h : Text.IsRun Char.isDigit cs) :
    toNat? 10 cs = some (number 10 cs) :=
  toNat?_eq_number ⟨h.1, fun c hc => isOf_ten_of_isDigit (h.2 c hc)⟩

theorem number_singleton (base : Nat) (c : Char) : number base [c] = value c := by
  simp [number]

theorem value_digitChar : ∀ d < 16, value (Nat.digitChar d) = d := by decide

section Written

variable {base : Nat} (hone : 1 < base) (hmax : base ≤ 16)

include hone hmax

theorem isRun_toDigits (n : Nat) : Text.IsRun (isOf base) (Nat.toDigits base n) := by
  refine ⟨Nat.toDigits_ne_nil, ?_⟩
  have hdigit : ∀ d < base, isOf base (Nat.digitChar d) = true := by
    intro d hd
    rw [isOf, value_digitChar d (by omega)]
    exact decide_eq_true hd
  induction n using Nat.strongRecOn with
  | ind n ih =>
      rw [Nat.toDigits_eq_if hone]
      split
      · rename_i hlt
        exact List.forall_mem_singleton.mpr (hdigit n hlt)
      · rename_i hle
        rw [List.forall_mem_append, List.forall_mem_singleton]
        exact ⟨ih _ (Nat.div_lt_self (by omega) hone), hdigit _ (Nat.mod_lt n (by omega))⟩

theorem number_toDigits (n : Nat) : number base (Nat.toDigits base n) = n := by
  have hdigit : ∀ d < base, number base [Nat.digitChar d] = d := by
    intro d hd
    rw [number_singleton, value_digitChar d (by omega)]
  induction n using Nat.strongRecOn with
  | ind n ih =>
      rw [Nat.toDigits_eq_if hone]
      split
      · rename_i hlt
        exact hdigit n hlt
      · rename_i hle
        rw [number_append, ih _ (Nat.div_lt_self (by omega) hone), List.length_singleton, pow_one,
          hdigit _ (Nat.mod_lt n (by omega))]
        exact Nat.div_add_mod' n base

theorem toNat?_toDigits (n : Nat) : toNat? base (Nat.toDigits base n) = some n := by
  rw [toNat?_eq_number (isRun_toDigits hone hmax n), number_toDigits hone hmax]

end Written

theorem toNat?_repr (n : Nat) : toNat? 10 n.repr.toList = some n := by
  rw [Nat.repr_eq_ofList_toDigits, String.toList_ofList]
  exact toNat?_toDigits (by decide) (by decide) n

end Digits

namespace Binary64

/-- Multiplying by a power of two rounds nothing off, so the step `x * b + c` rounds once. -/
theorem mulNat?_bind_addNat? (x : Binary64) (s c : Nat) :
    ((x.mulNat? (twoTo s)).bind fun y => y.addNat? c) =
      nearest? (x.units * twoTo s + c * twoTo 1074) 1 := by
  cases hy : x.mulNat? (twoTo s) with
  | none =>
      rw [mulNat?, nearest?_eq_none_iff _ Nat.one_pos] at hy
      rw [Option.bind_none, eq_comm, nearest?_eq_none_iff _ Nat.one_pos]
      exact Nat.le_add_right_of_le hy
  | some y =>
      obtain ⟨m, k, hx, hm⟩ := x.short_units
      have hprod : x.units * twoTo s = m * twoTo (k + s) := by
        rw [hx, Nat.mul_assoc, ← twoTo_add]
      rw [mulNat?, hprod] at hy
      rw [Option.bind_some, addNat?, units_of_nearest?_exact hm hy, hprod]

theorem mul_le_mul_add_iff {k n b c : Nat} (hc : c < b) : k * b ≤ n * b + c ↔ k ≤ n := by
  constructor
  · intro h
    by_contra hlt
    have hle := Nat.mul_le_mul_right b (Nat.lt_of_not_le hlt)
    rw [Nat.succ_mul] at hle
    omega
  · intro h
    exact Nat.le_add_right_of_le (Nat.mul_le_mul_right b h)

/-- A digit below the place that decides does not carry a number of the format up to a power of
two. -/
theorem carry_le_iff (x : Binary64) {s c : Nat} (hc : c < twoTo s) (i : Nat) :
    (twoTo 54 - 1) * twoTo (i + s + 1074) ≤ x.units * twoTo s + c * twoTo 1074 ↔
      twoTo (54 + (i + 1074)) ≤ x.units := by
  have hplace : twoTo (i + s + 1074) = twoTo (i + 1074) * twoTo s := by
    rw [← twoTo_add, Nat.add_right_comm]
  constructor
  · intro hle
    by_contra hlt
    have hgrid := Nat.mul_le_mul_right (twoTo s) (x.short_units.le_of_lt (Nat.lt_of_not_le hlt))
    have hdigit : c * twoTo 1074 < twoTo (i + 1074) * twoTo s := by
      calc
        c * twoTo 1074 < twoTo s * twoTo 1074 := Nat.mul_lt_mul_of_pos_right hc (twoTo_pos 1074)
        _ = twoTo (s + 1074) := (twoTo_add s 1074).symm
        _ ≤ twoTo (i + s + 1074) := twoTo_le_twoTo (by omega)
        _ = twoTo (i + 1074) * twoTo s := hplace
    rw [Nat.mul_assoc] at hgrid
    rw [hplace] at hle
    rw [twoTo_54] at hgrid hle
    omega
  · intro hle
    have hprod := Nat.mul_le_mul_right (twoTo s) hle
    rw [twoTo_add, Nat.mul_assoc, ← hplace] at hprod
    rw [twoTo_54] at hprod ⊢
    omega

/-- What reading digits with rounded steps keeps: `x` is `n` itself as long as this is exact, and
later reaches the same powers of two as `n` rounded once. -/
structure Tracks (n : Nat) (x : Binary64) : Prop where
  exact : n < twoTo 53 → x.units = n * twoTo 1074
  large : twoTo 53 ≤ n → twoTo (53 + 1074) ≤ x.units
  carry : ∀ j, twoTo (54 + (j + 1074)) ≤ x.units ↔ (twoTo 54 - 1) * twoTo j ≤ n

theorem tracks_zero : Tracks 0 zero := by
  refine ⟨fun _ => ?_, fun h => ?_, fun j => ?_⟩
  · rw [Nat.zero_mul]
    rfl
  · exact absurd h (by decide)
  · have hzero : zero.units = 0 := rfl
    have hleft := twoTo_pos (54 + (j + 1074))
    have hright : 0 < (twoTo 54 - 1) * twoTo j := Nat.mul_pos (by decide) (twoTo_pos j)
    omega

namespace Tracks

variable {n : Nat} {x : Binary64}

theorem sum_eq (h : Tracks n x) (hn : n < twoTo 53) (s c : Nat) :
    x.units * twoTo s + c * twoTo 1074 = (n * twoTo s + c) * twoTo 1074 := by
  rw [h.exact hn, Nat.add_mul, Nat.mul_right_comm]

theorem step_le_iff (h : Tracks n x) {s c : Nat} (hc : c < twoTo s) (j : Nat) :
    (twoTo 54 - 1) * twoTo (j + 1074) ≤ x.units * twoTo s + c * twoTo 1074 ↔
      (twoTo 54 - 1) * twoTo j ≤ n * twoTo s + c := by
  by_cases hn : n < twoTo 53
  · rw [h.sum_eq hn, twoTo_add, ← Nat.mul_assoc, Nat.mul_le_mul_right_iff (twoTo_pos 1074)]
  by_cases hj : s ≤ j
  · obtain ⟨i, rfl⟩ := Nat.exists_eq_add_of_le' hj
    rw [x.carry_le_iff hc, h.carry i, twoTo_add i s, ← Nat.mul_assoc, mul_le_mul_add_iff hc]
  · -- The number has 54 places already, which is enough for both sides.
    have hplaces : twoTo (1 + j) ≤ twoTo s := twoTo_le_twoTo (by omega)
    have hunits := Nat.mul_le_mul (h.large (by omega)) hplaces
    have hnumber := Nat.mul_le_mul (Nat.le_of_not_lt hn) hplaces
    rw [← twoTo_add, show 53 + 1074 + (1 + j) = 54 + (j + 1074) by omega, twoTo_add] at hunits
    rw [← twoTo_add, show 53 + (1 + j) = 54 + j by omega, twoTo_add] at hnumber
    rw [twoTo_54] at hunits hnumber ⊢
    omega

theorem step (h : Tracks n x) {s c : Nat} (hc : c < twoTo s) {y : Binary64}
    (hy : nearest? (x.units * twoTo s + c * twoTo 1074) 1 = some y) :
    Tracks (n * twoTo s + c) y := by
  refine ⟨fun hn => ?_, fun hn => ?_, fun j => ?_⟩
  · have hle : n ≤ n * twoTo s := Nat.le_mul_of_pos_right n (twoTo_pos s)
    rw [h.sum_eq (by omega)] at hy
    exact units_of_nearest?_exact hn hy
  · refine twoTo_le_units_of_nearest? ?_ hy
    rw [twoTo_add]
    by_cases hsmall : n < twoTo 53
    · rw [h.sum_eq hsmall]
      exact Nat.mul_le_mul_right _ hn
    · have hx := h.large (Nat.le_of_not_lt hsmall)
      rw [twoTo_add] at hx
      have hs := Nat.le_mul_of_pos_right x.units (twoTo_pos s)
      omega
  · obtain ⟨k, hscaled, hunits⟩ := units_of_nearest? Nat.one_pos hy
    rw [hunits, hscaled.twoTo_le_iff Nat.one_pos, Nat.one_mul]
    exact h.step_le_iff hc j

theorem step_eq_none_iff (h : Tracks n x) {s c : Nat} (hc : c < twoTo s) :
    nearest? (x.units * twoTo s + c * twoTo 1074) 1 = none ↔ overflow ≤ n * twoTo s + c := by
  rw [nearest?_eq_none_iff _ Nat.one_pos, Nat.one_mul, overflow_units]
  exact h.step_le_iff hc 970

end Tracks

end Binary64

namespace Digits

open Binary64

theorem foldl_none (base : Nat) (cs : List Char) :
    cs.foldl (fun (acc : Option Binary64) c =>
      acc.bind fun x => (x.mulNat? base).bind fun y => y.addNat? (value c)) none = none := by
  induction cs with
  | nil => rfl
  | cons c cs ih => exact ih

theorem le_foldl {base : Nat} (hb : 0 < base) (n : Nat) (cs : List Char) :
    n ≤ cs.foldl (fun n c => n * base + value c) n := by
  induction cs generalizing n with
  | nil => exact Nat.le_refl n
  | cons c cs ih =>
      have hstep := Nat.le_mul_of_pos_right n hb
      exact (Nat.le_add_right_of_le hstep).trans (ih _)

theorem foldl_eq_none_iff {s : Nat} {cs : List Char} (hcs : ∀ c ∈ cs, isOf (twoTo s) c = true)
    {n : Nat} {x : Binary64} (h : Tracks n x) (hn : n < overflow) :
    cs.foldl (fun acc c =>
        acc.bind fun x => (x.mulNat? (twoTo s)).bind fun y => y.addNat? (value c)) (some x) = none ↔
      overflow ≤ cs.foldl (fun n c => n * twoTo s + value c) n := by
  -- `Tracks` is kept at each digit; once a step leaves the format, more digits cannot lead back.
  induction cs generalizing n x with
  | nil => simpa using hn
  | cons c cs ih =>
      have hc : value c < twoTo s := by simpa [isOf] using hcs c (by simp)
      rw [List.foldl_cons, List.foldl_cons, Option.bind_some, mulNat?_bind_addNat?]
      cases hy : nearest? (x.units * twoTo s + value c * twoTo 1074) 1 with
      | none =>
          have hover := (h.step_eq_none_iff hc).mp hy
          rw [foldl_none]
          simpa using hover.trans (le_foldl (twoTo_pos s) _ cs)
      | some y =>
          refine ih (fun d hd => hcs d (by simp [hd])) (h.step hc hy) ?_
          rw [← Nat.not_le, ← h.step_eq_none_iff hc, hy]
          exact Option.some_ne_none y

theorem toBinary64?_eq_none_iff {s : Nat} {cs : List Char}
    (hcs : ∀ c ∈ cs, isOf (twoTo s) c = true) :
    toBinary64? (twoTo s) cs = none ↔ overflow ≤ number (twoTo s) cs := by
  rw [number_eq_foldl]
  exact foldl_eq_none_iff hcs tracks_zero (Nat.mul_pos (by decide) (twoTo_pos 970))

end Digits

end ScriptScan
