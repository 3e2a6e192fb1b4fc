import ScriptScan.Number.Binary64

namespace ScriptScan

theorem twoTo_pos (n : Nat) : 0 < twoTo n := Nat.two_pow_pos n

theorem twoTo_add (m n : Nat) : twoTo (m + n) = twoTo m * twoTo n := Nat.pow_add 2 m n

theorem twoTo_le_twoTo {m n : Nat} (h : m ≤ n) : twoTo m ≤ twoTo n :=
  Nat.pow_le_pow_right (by decide) h

theorem twoTo_lt_twoTo_iff {m n : Nat} : twoTo m < twoTo n ↔ m < n :=
  Nat.pow_lt_pow_iff_right (by decide)

theorem twoTo_52 : twoTo 52 = 4503599627370496 := rfl

theorem twoTo_53 : twoTo 53 = 9007199254740992 := rfl

theorem twoTo_54 : twoTo 54 = 18014398509481984 := rfl

namespace Binary64

theorem divNearest_cases (a d : Nat) :
    (divNearest a d = a / d ∧ 2 * (a % d) ≤ d ∧ (a / d % 2 = 1 → 2 * (a % d) < d)) ∨
      (divNearest a d = a / d + 1 ∧ d ≤ 2 * (a % d) ∧ (a / d % 2 = 0 → d < 2 * (a % d))) := by
  unfold divNearest
  dsimp only
  split
  · exact .inl ⟨rfl, by omega, by omega⟩
  · split
    · exact .inr ⟨rfl, by omega, by omega⟩
    · by_cases hodd : a / d % 2 = 1
      · exact .inr ⟨by rw [hodd], by omega, by omega⟩
      · exact .inl ⟨by omega, by omega, by omega⟩

/-- The last of 53 binary places of `a / d` is worth `2 ^ k`, or `k` is zero and there are fewer
places. -/
structure Scaled (a d k : Nat) : Prop where
  below : a < d * twoTo (k + 53)
  above : k = 0 ∨ d * twoTo (k + 52) ≤ a

theorem scaled_log2 (a : Nat) {d : Nat} (hd : 0 < d) : Scaled a d ((a / d).log2 - 52) := by
  have hdiv := Nat.div_add_mod a d
  have hmod := Nat.mod_lt a hd
  generalize a / d = q at hdiv ⊢
  have hlt : q < twoTo (q.log2 - 52 + 53) := by
    calc
      q < 2 ^ (q.log2 + 1) := Nat.lt_log2_self
      _ ≤ twoTo (q.log2 - 52 + 53) := Nat.pow_le_pow_right (by decide) (by omega)
  constructor
  · have hle := Nat.mul_le_mul_left d hlt
    rw [Nat.mul_succ] at hle
    omega
  · by_cases hq : q.log2 ≤ 52
    · exact .inl (by omega)
    · refine .inr ?_
      have hne : q ≠ 0 := by
        rintro rfl
        simp at hq
      have hpow : twoTo (q.log2 - 52 + 52) ≤ q := by
        rw [Nat.sub_add_cancel (by omega)]
        exact Nat.log2_self_le hne
      have hle := Nat.mul_le_mul_left d hpow
      omega

namespace Scaled

variable {a d k : Nat}

theorem quotient_bounds (h : Scaled a d k) (hd : 0 < d) :
    a / (d * twoTo k) < twoTo 53 ∧ (k = 0 ∨ twoTo 52 ≤ a / (d * twoTo k)) := by
  have hpos : 0 < d * twoTo k := Nat.mul_pos hd (twoTo_pos k)
  constructor
  · rw [Nat.div_lt_iff_lt_mul hpos, Nat.mul_comm, Nat.mul_assoc, ← twoTo_add]
    exact h.below
  · obtain hk | hle := h.above
    · exact .inl hk
    · refine .inr ?_
      rw [Nat.le_div_iff_mul_le hpos, Nat.mul_comm, Nat.mul_assoc, ← twoTo_add]
      exact hle

theorem divNearest_bounds (h : Scaled a d k) (hd : 0 < d) :
    divNearest a (d * twoTo k) ≤ twoTo 53 ∧
      (k = 0 ∨ twoTo 52 ≤ divNearest a (d * twoTo k)) := by
  obtain ⟨hlt, hle⟩ := h.quotient_bounds hd
  obtain ⟨heq, -⟩ | ⟨heq, -⟩ := divNearest_cases a (d * twoTo k) <;> omega

variable {j : Nat}

theorem lt_twoTo_of_le (h : Scaled a d k) (hd : 0 < d) (hk : k ≤ j) :
    divNearest a (d * twoTo k) * twoTo k < twoTo (54 + j) ∧ a < d * ((twoTo 54 - 1) * twoTo j) := by
  have hj := twoTo_pos j
  have hdj : 0 < d * twoTo j := Nat.mul_pos hd hj
  constructor
  · have hprod := Nat.mul_le_mul (h.divNearest_bounds hd).1 (twoTo_le_twoTo hk)
    rw [twoTo_53] at hprod
    rw [twoTo_add, twoTo_54]
    omega
  · calc
      a < d * twoTo (k + 53) := h.below
      _ ≤ d * twoTo (53 + j) := Nat.mul_le_mul_left d (twoTo_le_twoTo (by omega))
      _ ≤ d * ((twoTo 54 - 1) * twoTo j) := by
        rw [twoTo_add]
        exact Nat.mul_le_mul_left d (Nat.mul_le_mul_right _ (by decide))

theorem twoTo_le_of_lt (h : Scaled a d k) (hd : 0 < d) (hk : 2 + j ≤ k) :
    twoTo (54 + j) ≤ divNearest a (d * twoTo k) * twoTo k ∧ d * ((twoTo 54 - 1) * twoTo j) ≤ a := by
  have hsplit : twoTo (54 + j) = twoTo 52 * twoTo (2 + j) := by
    rw [← twoTo_add, ← Nat.add_assoc]
  constructor
  · rw [hsplit]
    have hm := (h.divNearest_bounds hd).2.resolve_left (by omega)
    exact Nat.mul_le_mul hm (twoTo_le_twoTo hk)
  · calc
      d * ((twoTo 54 - 1) * twoTo j) ≤ d * twoTo (54 + j) := by
        rw [twoTo_add]
        exact Nat.mul_le_mul_left d (Nat.mul_le_mul_right _ (Nat.sub_le _ _))
      _ ≤ d * twoTo (k + 52) := Nat.mul_le_mul_left d (twoTo_le_twoTo (by omega))
      _ ≤ a := h.above.resolve_left (by omega)

/-- In the binade below the power, all depends on whether the largest significand rounds up. -/
theorem twoTo_le_iff_carry (h : Scaled a d (1 + j)) (hd : 0 < d) :
    twoTo (54 + j) ≤ divNearest a (d * twoTo (1 + j)) * twoTo (1 + j) ↔
      d * ((twoTo 54 - 1) * twoTo j) ≤ a := by
  have hj := twoTo_pos j
  have hdj : 0 < d * twoTo j := Nat.mul_pos hd hj
  obtain ⟨hm, -⟩ := h.divNearest_bounds hd
  obtain ⟨hf, -⟩ := h.quotient_bounds hd
  have htwo : twoTo (1 + j) = 2 * twoTo j := twoTo_add 1 j
  have hplace : d * (2 * twoTo j) = 2 * (d * twoTo j) := Nat.mul_left_comm d 2 _
  have hright : d * ((twoTo 54 - 1) * twoTo j) = 18014398509481983 * (d * twoTo j) := by
    rw [Nat.mul_left_comm]
    rfl
  rw [twoTo_add 54 j, hright, htwo, hplace]
  rw [htwo, hplace] at hm hf
  have hdiv := Nat.div_add_mod a (2 * (d * twoTo j))
  have hmod := Nat.mod_lt a (show 0 < 2 * (d * twoTo j) by omega)
  have hcases := divNearest_cases a (2 * (d * twoTo j))
  generalize divNearest a (2 * (d * twoTo j)) = m at *
  generalize a % (2 * (d * twoTo j)) = r at *
  generalize a / (2 * (d * twoTo j)) = f at *
  generalize d * twoTo j = x at *
  rw [twoTo_53] at hm hf
  have hcarry : twoTo 54 * twoTo j ≤ m * (2 * twoTo j) ↔ 9007199254740992 ≤ m := by
    rw [← Nat.mul_assoc, Nat.mul_le_mul_right_iff hj, twoTo_54]
    omega
  rw [hcarry]
  obtain rfl | hsmaller : f = 9007199254740991 ∨ f ≤ 9007199254740990 := by omega
  · omega
  · have hprod : 2 * x * f ≤ 2 * x * 9007199254740990 := Nat.mul_le_mul_left _ hsmaller
    omega

/-- A value is rounded up to a power of two exactly from the middle before this power on. -/
theorem twoTo_le_iff (h : Scaled a d k) (hd : 0 < d) (j : Nat) :
    twoTo (54 + j) ≤ divNearest a (d * twoTo k) * twoTo k ↔
      d * ((twoTo 54 - 1) * twoTo j) ≤ a := by
  obtain hk | rfl | hk : k ≤ j ∨ k = 1 + j ∨ 2 + j ≤ k := by omega
  · obtain ⟨hleft, hright⟩ := h.lt_twoTo_of_le hd hk
    exact iff_of_false (Nat.not_le.mpr hleft) (Nat.not_le.mpr hright)
  · exact h.twoTo_le_iff_carry hd
  · obtain ⟨hleft, hright⟩ := h.twoTo_le_of_lt hd hk
    exact iff_of_true hleft hright

end Scaled

/-- The least value that is too large for the format: the middle between its largest number and
`2 ^ 1024`. -/
def overflow : Nat := (twoTo 54 - 1) * twoTo 970

theorem ofBits?_eq_none_iff (bits : Nat) : ofBits? bits = none ↔ 0x7FF * twoTo 52 ≤ bits := by
  unfold ofBits?
  split
  · simp only [reduceCtorEq, false_iff]
    omega
  · simp only [true_iff]
    omega

theorem encoding_le_iff {m k : Nat} (hm : m ≤ twoTo 53) (hk : k = 0 ∨ twoTo 52 ≤ m) (j : Nat) :
    (j + 3) * twoTo 52 ≤ k * twoTo 52 + m ↔ twoTo (54 + j) ≤ m * twoTo k := by
  have hpos := twoTo_pos j
  rw [twoTo_53] at hm
  rw [twoTo_52] at hk ⊢
  rw [twoTo_add, twoTo_54]
  by_cases hsmall : k ≤ j
  · have hprod : m * twoTo k ≤ 9007199254740992 * twoTo j :=
      Nat.mul_le_mul hm (twoTo_le_twoTo hsmall)
    omega
  · by_cases hlarge : 2 + j ≤ k
    · have hprod : 4503599627370496 * twoTo (2 + j) ≤ m * twoTo k :=
        Nat.mul_le_mul (by omega) (twoTo_le_twoTo hlarge)
      rw [twoTo_add, show twoTo 2 = 4 from rfl] at hprod
      omega
    · obtain rfl : k = 1 + j := by omega
      rw [twoTo_add, show twoTo 1 = 2 from rfl, ← Nat.mul_assoc, Nat.mul_le_mul_right_iff hpos]
      omega

theorem overflow_units : overflow * twoTo 1074 = (twoTo 54 - 1) * twoTo (970 + 1074) := by
  rw [overflow, Nat.mul_assoc, ← twoTo_add]

theorem nearest?_eq_none_iff (a : Nat) {d : Nat} (hd : 0 < d) :
    nearest? a d = none ↔ d * (overflow * twoTo 1074) ≤ a := by
  have hscaled := scaled_log2 a hd
  obtain ⟨hm, hk⟩ := hscaled.divNearest_bounds hd
  rw [nearest?, ofBits?_eq_none_iff, overflow_units]
  exact (encoding_le_iff hm hk (970 + 1074)).trans (hscaled.twoTo_le_iff hd (970 + 1074))

theorem unitsOfBits_eq {m k : Nat} (hm : m ≤ twoTo 53) (hk : k = 0 ∨ twoTo 52 ≤ m) :
    unitsOfBits (k * twoTo 52 + m) = m * twoTo k := by
  have hzero : twoTo 0 = 1 := rfl
  have hone : twoTo 1 = 2 := rfl
  rw [twoTo_53] at hm
  rw [twoTo_52] at hk
  unfold unitsOfBits
  rw [twoTo_52]
  by_cases hsub : m < 4503599627370496
  · obtain rfl : k = 0 := hk.resolve_right (by omega)
    rw [if_pos (by omega), hzero]
    omega
  · by_cases hcarry : m = 9007199254740992
    · subst hcarry
      have hq : (k * 4503599627370496 + 9007199254740992) / 4503599627370496 = k + 2 := by omega
      have hr : (k * 4503599627370496 + 9007199254740992) % 4503599627370496 = 0 := by omega
      rw [hq, hr, if_neg (by omega), show k + 2 - 1 = k + 1 from rfl, twoTo_add, hone]
      omega
    · have hq : (k * 4503599627370496 + m) / 4503599627370496 = k + 1 := by omega
      have hr : (k * 4503599627370496 + m) % 4503599627370496 = m - 4503599627370496 := by omega
      have hm : 4503599627370496 + (m - 4503599627370496) = m := by omega
      rw [hq, hr, if_neg (by omega), Nat.add_sub_cancel, hm]

theorem units_of_nearest? {a d : Nat} (hd : 0 < d) {x : Binary64} (h : nearest? a d = some x) :
    ∃ k, Scaled a d k ∧ x.units = divNearest a (d * twoTo k) * twoTo k := by
  have hscaled := scaled_log2 a hd
  refine ⟨_, hscaled, ?_⟩
  obtain ⟨hm, hk⟩ := hscaled.divNearest_bounds hd
  have hbits : x.bits = nearestBits a d := by
    unfold nearest? ofBits? at h
    split at h
    · cases h
      rfl
    · cases h
  rw [units, hbits]
  exact unitsOfBits_eq hm hk

def Short (n : Nat) : Prop := ∃ m k, n = m * twoTo k ∧ m < twoTo 53

theorem exists_significand (x : Binary64) : ∃ m k, x.bits = k * twoTo 52 + m ∧
    x.units = m * twoTo k ∧ m < twoTo 53 ∧ (k = 0 ∨ twoTo 52 ≤ m) := by
  obtain ⟨m, k, hbits, hm, hk⟩ : ∃ m k, x.bits = k * twoTo 52 + m ∧ m < twoTo 53 ∧
      (k = 0 ∨ twoTo 52 ≤ m) := by
    rw [twoTo_52, twoTo_53]
    by_cases hsub : x.bits < 4503599627370496
    · exact ⟨x.bits, 0, by omega, by omega, .inl rfl⟩
    · exact ⟨4503599627370496 + x.bits % 4503599627370496, x.bits / 4503599627370496 - 1, by omega,
        by omega, .inr (Nat.le_add_right _ _)⟩
  exact ⟨m, k, hbits, by rw [units, hbits, unitsOfBits_eq (Nat.le_of_lt hm) hk], hm, hk⟩

theorem short_units (x : Binary64) : Short x.units := by
  obtain ⟨m, k, -, hunits, hm, -⟩ := x.exists_significand
  exact ⟨m, k, hunits, hm⟩

theorem divNearest_mul (m : Nat) {d : Nat} (hd : 0 < d) : divNearest (m * d) d = m := by
  simp [divNearest, hd]

theorem log2_mul_twoTo {m k : Nat} (hm : m < twoTo 53) (hk : k = 0 ∨ twoTo 52 ≤ m) :
    (m * twoTo k).log2 - 52 = k := by
  have hscaled := scaled_log2 (m * twoTo k) Nat.one_pos
  rw [Nat.div_one] at hscaled
  generalize (m * twoTo k).log2 - 52 = i at hscaled
  obtain ⟨hbelow, habove⟩ := hscaled
  rw [Nat.one_mul] at hbelow habove
  have hle : k ≤ i := by
    obtain rfl | hk := hk
    · exact Nat.zero_le i
    · have hlt : twoTo (52 + k) < twoTo (i + 53) := by
        rw [twoTo_add 52 k]
        exact Nat.lt_of_le_of_lt (Nat.mul_le_mul_right _ hk) hbelow
      have := twoTo_lt_twoTo_iff.mp hlt
      omega
  have hge : i ≤ k := by
    obtain rfl | habove := habove
    · exact Nat.zero_le k
    · have hlt : twoTo (i + 52) < twoTo (53 + k) := by
        rw [twoTo_add 53 k]
        exact Nat.lt_of_le_of_lt habove (Nat.mul_lt_mul_of_pos_right hm (twoTo_pos k))
      have := twoTo_lt_twoTo_iff.mp hlt
      omega
  omega

theorem nearest?_units (x : Binary64) : nearest? x.units 1 = some x := by
  obtain ⟨m, k, hbits, hunits, hm, hk⟩ := x.exists_significand
  have hnearest : nearestBits x.units 1 = x.bits := by
    rw [nearestBits, Nat.div_one, hunits, log2_mul_twoTo hm hk, Nat.one_mul,
      divNearest_mul m (twoTo_pos k), hbits]
  rw [nearest?, hnearest, ofBits?, dif_pos x.finite]

theorem Short.le_of_lt {n j : Nat} (h : Short n) (hlt : n < twoTo (54 + j)) :
    n ≤ (twoTo 54 - 2) * twoTo j := by
  obtain ⟨m, k, rfl, hm⟩ := h
  rw [twoTo_53] at hm
  rw [twoTo_add] at hlt
  rw [twoTo_54] at hlt ⊢
  by_cases hk : k ≤ j + 1
  · calc
      m * twoTo k ≤ 9007199254740991 * twoTo (1 + j) :=
        Nat.mul_le_mul (by omega) (twoTo_le_twoTo (by omega))
      _ = (18014398509481984 - 2) * twoTo j := by
        rw [twoTo_add, ← Nat.mul_assoc]
        rfl
  · -- A larger step divides the power, so at least one whole step lies between.
    obtain ⟨i, rfl⟩ : ∃ i, k = (2 + i) + j := ⟨k - j - 2, by omega⟩
    rw [twoTo_add, ← Nat.mul_assoc] at hlt ⊢
    refine Nat.mul_le_mul_right _ ?_
    have hlt := Nat.lt_of_mul_lt_mul_right hlt
    have hfour : m * twoTo (2 + i) = 4 * (m * twoTo i) := by
      rw [twoTo_add, Nat.mul_left_comm]
      rfl
    omega

theorem units_of_nearest?_exact {m j : Nat} (hm : m < twoTo 53) {x : Binary64}
    (h : nearest? (m * twoTo j) 1 = some x) : x.units = m * twoTo j := by
  obtain ⟨k, hscaled, hunits⟩ := units_of_nearest? Nat.one_pos h
  rw [Nat.one_mul] at hunits
  have hk : k ≤ j := by
    obtain rfl | habove := hscaled.above
    · exact Nat.zero_le j
    · have hlt : twoTo (k + 52) < twoTo (53 + j) := by
        calc
          twoTo (k + 52) ≤ m * twoTo j := by rwa [Nat.one_mul] at habove
          _ < twoTo 53 * twoTo j := Nat.mul_lt_mul_of_pos_right hm (twoTo_pos j)
          _ = twoTo (53 + j) := (twoTo_add 53 j).symm
      have := twoTo_lt_twoTo_iff.mp hlt
      omega
  obtain ⟨i, rfl⟩ := Nat.exists_eq_add_of_le' hk
  have hsplit : m * twoTo (i + k) = m * twoTo i * twoTo k := by rw [twoTo_add, Nat.mul_assoc]
  have hdiv : m * twoTo (i + k) / twoTo k = m * twoTo i := by
    rw [hsplit, Nat.mul_div_cancel _ (twoTo_pos k)]
  have hmod : m * twoTo (i + k) % twoTo k = 0 := by rw [hsplit, Nat.mul_mod_left]
  obtain ⟨heq, -⟩ | ⟨-, hle, -⟩ := divNearest_cases (m * twoTo (i + k)) (twoTo k)
  · rw [hunits, heq, hdiv, hsplit]
  · have hpos := twoTo_pos k
    omega

theorem twoTo_le_units_of_nearest? {a i : Nat} (hi : twoTo i ≤ a) {x : Binary64}
    (h : nearest? a 1 = some x) : twoTo i ≤ x.units := by
  obtain ⟨k, hscaled, hunits⟩ := units_of_nearest? Nat.one_pos h
  obtain ⟨-, hm⟩ := hscaled.divNearest_bounds Nat.one_pos
  rw [hunits]
  by_cases hk : k ≤ i
  · obtain ⟨j, rfl⟩ := Nat.exists_eq_add_of_le' hk
    have hquot : twoTo j ≤ a / (1 * twoTo k) := by
      rw [Nat.le_div_iff_mul_le (by rw [Nat.one_mul]; exact twoTo_pos k), Nat.one_mul, ← twoTo_add]
      exact hi
    have hle : twoTo j ≤ divNearest a (1 * twoTo k) := by
      obtain ⟨heq, -⟩ | ⟨heq, -⟩ := divNearest_cases a (1 * twoTo k) <;> omega
    rw [twoTo_add]
    exact Nat.mul_le_mul_right _ hle
  · have hone : 1 ≤ divNearest a (1 * twoTo k) := by
      have := hm.resolve_left (by omega)
      rw [twoTo_52] at this
      omega
    calc
      twoTo i ≤ twoTo k := twoTo_le_twoTo (by omega)
      _ ≤ divNearest a (1 * twoTo k) * twoTo k := Nat.le_mul_of_pos_left _ hone

end Binary64

end ScriptScan
