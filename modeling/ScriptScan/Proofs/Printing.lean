import ScriptScan.Listing
import ScriptScan.Proofs.Spelling

namespace ScriptScan

open Numeral Digits Binary64

namespace Binary64

theorem divNearest_mul_mul (a d : Nat) {c : Nat} (hc : 0 < c) :
    divNearest (a * c) (d * c) = divNearest a d := by
  have hdiv : a * c / (d * c) = a / d := Nat.mul_div_mul_right a d hc
  have hmod : a * c % (d * c) = a % d * c := Nat.mul_mod_mul_right c a d
  simp only [divNearest, hdiv, hmod, ← Nat.mul_assoc, Nat.mul_lt_mul_right hc]

theorem nearest?_mul_mul (a d : Nat) {c : Nat} (hc : 0 < c) :
    nearest? (a * c) (d * c) = nearest? a d := by
  have hdiv : a * c / (d * c) = a / d := Nat.mul_div_mul_right a d hc
  simp only [nearest?, nearestBits, hdiv, Nat.mul_right_comm d c, divNearest_mul_mul _ _ hc]

end Binary64

namespace Decimal

theorem pow_five_mul_twoTo (n : Nat) : Nat.pow 5 n * twoTo n = tenTo n := (Nat.mul_pow 5 2 n).symm

theorem toBinary64?_of_search {x : Binary64} {exponent : Int} {fuel : Nat} {d : Decimal}
    (h : search x exponent fuel = some d) : d.toBinary64? = some x := by
  induction fuel generalizing exponent with
  | zero => cases h
  | succ fuel ih =>
      rw [search] at h
      split at h
      · rename_i found hfound
        cases h
        simpa using List.find?_some hfound
      · exact ih h

theorem twoTo_le_pow_five (n : Nat) : twoTo n ≤ Nat.pow 5 n := Nat.pow_le_pow_left (by decide) n

theorem le_log2_mul {a b n : Nat} (ha : a ≠ 0) (hb : twoTo n ≤ b) : n ≤ (a * b).log2 := by
  have hpos : 0 < b := (twoTo_pos n).trans_le hb
  rw [Nat.le_log2 (Nat.mul_ne_zero ha hpos.ne')]
  exact hb.trans (Nat.le_mul_of_pos_left b (Nat.pos_of_ne_zero ha))

theorem toBinary64?_exact (x : Binary64) : (exact x).toBinary64? = some x := by
  have hself := x.nearest?_units
  by_cases hzero : x.units = 0
  · rw [hzero] at hself
    have hdigits : (exact x).digits = 0 := by simp only [exact, hzero, Nat.zero_mul]
    rw [toBinary64?, if_pos hdigits, ← hself]
    rfl
  · have hlog : 1074 ≤ (exact x).digits.log2 := le_log2_mul hzero (twoTo_le_pow_five 1074)
    have hdigits : (exact x).digits ≠ 0 := by
      intro h
      rw [h, Nat.log2_zero] at hlog
      omega
    have hexponent : (exact x).exponent = -1074 := rfl
    rw [toBinary64?, if_neg hdigits, if_neg (by omega), if_neg (by omega), if_neg (by omega)]
    have hquotient := nearest?_mul_mul x.units 1 (tenTo_pos 1074)
    rw [Nat.one_mul, hself] at hquotient
    rw [exact, Nat.mul_assoc, pow_five_mul_twoTo]
    exact hquotient

theorem toBinary64?_shortest (x : Binary64) : (shortest x).toBinary64? = some x := by
  unfold shortest
  cases h : search x 309 1384 with
  | none => exact toBinary64?_exact x
  | some d => exact toBinary64?_of_search h

theorem length_padZeros {width n : Nat} (hwidth : 0 < width) (hn : n < tenTo width) :
    (padZeros width n.repr).toList.length = width := by
  have hle : n.repr.length ≤ width := (Nat.length_repr_le_iff hwidth).mpr hn
  rw [padZeros, String.toList_append, String.toList_ofList, List.length_append,
    List.length_replicate, String.length_toList]
  omega

theorem isRun_padZeros (width n : Nat) :
    Text.IsRun Char.isDigit (padZeros width n.repr).toList := by
  obtain ⟨hne, hdigits⟩ := isRun_repr n
  rw [padZeros, String.toList_append, String.toList_ofList]
  refine ⟨List.append_ne_nil_of_right_ne_nil _ hne, ?_⟩
  intro c hc
  obtain hc | hc := List.mem_append.mp hc
  · rw [List.eq_of_mem_replicate hc]
    rfl
  · exact hdigits c hc

theorem number_padZeros (width n : Nat) : number 10 (padZeros width n.repr).toList = n := by
  have hzeros : ∀ k, number 10 (List.replicate k '0') = 0 := by
    intro k
    have hnil := Nat.ofDigits_append_replicate_zero (b := 10) (k := k) []
    rw [number, List.map_replicate, List.reverse_replicate]
    exact hnil
  rw [padZeros, String.toList_append, String.toList_ofList, number_append, hzeros, Nat.zero_mul,
    Nat.zero_add, number_repr]

def parts (d : Decimal) : Plain :=
  let places := (-d.exponent).toNat
  ⟨(d.digits / tenTo places).repr.toList,
    some (padZeros places (d.digits % tenTo places).repr).toList, none, false⟩

theorem proper_parts (d : Decimal) : d.parts.Proper := by
  refine ⟨isRun_repr _, ?_, by rintro _ ⟨⟩⟩
  intro ds hds
  rw [← Option.some.inj hds]
  exact isRun_padZeros _ _

theorem chars_parts {d : Decimal} (hd : d.digits ≠ 0) (he : d.exponent < 0) :
    d.text.toList = d.parts.chars := by
  rw [text, if_neg hd, if_neg (Int.not_le.mpr he)]
  simp [parts, Plain.chars, Plain.body, fractionChars, exponentChars, suffixChars]

theorem decimal?_parts {d : Decimal} (he : d.exponent < 0) : d.parts.decimal? = some d := by
  have hplaces : 0 < (-d.exponent).toNat := by omega
  have hlength := length_padZeros hplaces (Nat.mod_lt d.digits (tenTo_pos _))
  have hdigits : number 10 (d.parts.whole ++ d.parts.fraction.getD []) = d.digits := by
    change number 10 ((Nat.repr _).toList ++ (padZeros _ _).toList) = _
    rw [number_append, hlength, number_repr, number_padZeros]
    exact Nat.div_add_mod' d.digits _
  rw [Plain.decimal?, toNat?_ten d.proper_parts.run, hdigits]
  change some (Decimal.mk d.digits (-((padZeros _ _).toList.length : Int))) = some d
  rw [hlength, Int.toNat_of_nonneg (by omega), Int.neg_neg]

theorem value_parts {d : Decimal} (he : d.exponent < 0) {x : Binary64}
    (hx : d.toBinary64? = some x) : d.parts.value = .ok (.float x) := by
  have hplain : ¬ d.parts.suffixed = true := Bool.false_ne_true
  rw [Plain.value, if_neg hplain, Plain.float, decimal?_parts he]
  simp [hx, Except.map]

/-- A decimal is spelled so that scanning reads it, all of it, as the float that it stands for. -/
theorem scan_text {d : Decimal} {x : Binary64} (hx : d.toBinary64? = some x) :
    scan d.text = ⟨[⟨.number (.float x) .decimal, d.text,
      Span.between .start (Location.start.advance d.text.toList)⟩,
      Token.atEnd (Location.start.advance d.text.toList)], []⟩ := by
  by_cases hd : d.digits = 0
  · have hzero : Binary64.nearest? (0 * twoTo 1074) 1 = some x := by
      rw [toBinary64?, if_pos hd] at hx
      rw [Nat.zero_mul, ← hx]
      rfl
    have hrepr : "0" = Nat.repr 0 := rfl
    rw [text, if_pos hd, hrepr]
    exact scan_repr hzero
  by_cases he : 0 ≤ d.exponent
  · have hmax : d.exponent ≤ 308 := by
      by_contra hlarge
      rw [toBinary64?, if_neg hd, if_pos (by omega)] at hx
      cases hx
    rw [toBinary64?_of_nonneg he hmax] at hx
    rw [text, if_neg hd, if_pos he]
    exact scan_repr hx
  · have he := Int.not_le.mp he
    exact d.proper_parts.scan_ok (value_parts he hx) (chars_parts hd he)

end Decimal

theorem scan_repr_suffixed (n : Nat) :
    scan (n.repr ++ "n") = ⟨[⟨.number (.integer n) .decimal, n.repr ++ "n",
      Span.between .start (Location.start.advance (n.repr ++ "n").toList)⟩,
      Token.atEnd (Location.start.advance (n.repr ++ "n").toList)], []⟩ := by
  have hproper := Plain.proper_of_whole (isRun_repr n) true
  have hvalue := hproper.value_eq rfl ⟨rfl, by rintro _ ⟨⟩⟩
  have htext : (n.repr ++ "n").toList = Plain.chars ⟨n.repr.toList, none, none, true⟩ := by
    rw [Plain.chars_of_whole, String.toList_append]
    rfl
  rw [← number_ten (isRun_repr n), number_repr, Option.elim_none, pow_zero, Nat.mul_one] at hvalue
  exact hproper.scan_ok hvalue htext

theorem NumberValue.scan_text (v : NumberValue) :
    scan v.text = ⟨[⟨.number v .decimal, v.text,
      Span.between .start (Location.start.advance v.text.toList)⟩,
      Token.atEnd (Location.start.advance v.text.toList)], []⟩ := by
  cases v with
  | float x => exact Decimal.scan_text (Decimal.toBinary64?_shortest x)
  | integer n => exact scan_repr_suffixed n

/-- What a listing prints as the value of a number token is a literal: scanning it reports nothing
and finds this value again, in decimal format, in all of the text. -/
theorem printed_value_scans_back (source : String) :
    ∀ t ∈ (scan source).tokens, ∀ value format, t.kind = .number value format →
      (Listing.Record.ofToken t).number = some ⟨value.text, format.name⟩ ∧
      (scan value.text).diagnostics = [] ∧
      ∃ u final, (scan value.text).tokens = [u, final] ∧ u.kind = .number value .decimal ∧
        u.lexeme = value.text ∧ final.kind = .eof := by
  intro t _ value format hkind
  refine ⟨?_, ?_⟩
  · rw [Listing.Record.ofToken, hkind]
    rfl
  · rw [value.scan_text]
    exact ⟨rfl, _, _, rfl, rfl, rfl, rfl⟩

/-- A float of 309 digits that is written with an exponent, and an integer in hexadecimal. -/
theorem printed_value_scans_back_from_other_formats :
    (∃ t ∈ (scan "1E308 0xFFn").tokens,
      (Listing.Record.ofToken t).number = some ⟨(tenTo 308).repr, "exponential"⟩ ∧
      ∃ u final, (scan (tenTo 308).repr).tokens = [u, final] ∧ u.lexeme = (tenTo 308).repr) ∧
    ∃ t ∈ (scan "1E308 0xFFn").tokens,
      (Listing.Record.ofToken t).number = some ⟨"255n", "hexadecimal"⟩ ∧
      ∃ u final, (scan "255n").tokens = [u, final] ∧ u.lexeme = "255n" := by
  let x : Binary64 := ⟨0x7FE1CCF385EBC8A0, by decide⟩
  have hkinds : (scan "1E308 0xFFn").tokens.map Token.kind =
      [.number (.float x) .exponential, .number (.integer 255) (.radix .hexadecimal), .eof] := by
    decide +kernel
  have htext : (NumberValue.float x).text = (tenTo 308).repr := by
    have hshortest : Decimal.shortest x = ⟨1, 308⟩ := by decide +kernel
    rw [NumberValue.text, hshortest]
    exact congrArg Nat.repr (Nat.one_mul _)
  have hfloat : TokenKind.number (.float x) .exponential ∈
      (scan "1E308 0xFFn").tokens.map Token.kind := by
    simp [hkinds]
  have hinteger : TokenKind.number (.integer 255) (.radix .hexadecimal) ∈
      (scan "1E308 0xFFn").tokens.map Token.kind := by
    simp [hkinds]
  obtain ⟨t, ht, hkind⟩ := List.mem_map.mp hfloat
  obtain ⟨t', ht', hkind'⟩ := List.mem_map.mp hinteger
  obtain ⟨hrecord, -, u, final, htokens, -, hlexeme, -⟩ :=
    printed_value_scans_back _ t ht _ _ hkind
  obtain ⟨hrecord', -, u', final', htokens', -, hlexeme', -⟩ :=
    printed_value_scans_back _ t' ht' _ _ hkind'
  rw [htext] at hrecord htokens hlexeme
  exact ⟨⟨t, ht, hrecord, u, final, htokens, hlexeme⟩,
    ⟨t', ht', hrecord', u', final', htokens', hlexeme'⟩⟩

end ScriptScan
