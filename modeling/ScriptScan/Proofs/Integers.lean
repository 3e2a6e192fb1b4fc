import ScriptScan.Proofs.Range
import ScriptScan.Proofs.Reprint

namespace ScriptScan

namespace Digits

/-- The digits in the order of their values, letters in lower case. -/
def ascending : List Char := "0123456789abcdef".toList

def positional (base : Nat) (cs : List Char) : Nat :=
  Nat.ofDigits base (cs.reverse.map fun c => ascending.idxOf c.toLower)

theorem toNat_lt_of_isOf {c : Char} (h : isOf 16 c = true) : c.toNat < 128 := by
  have hc := (Grammar.radixDigit_iff .hexadecimal c).mpr h
  simp only [Grammar.radixDigit, Char.le_def, UInt32.le_iff_toNat_le, Char.reduceVal,
    UInt32.reduceToNat] at hc
  rw [← Char.toNat_val]
  omega

theorem value_eq_idxOf {c : Char} (h : isOf 16 c = true) :
    value c = ascending.idxOf c.toLower := by
  -- Digits are among the first 128 characters, where both sides can be computed.
  have hall : ∀ n < 128, isOf 16 (Char.ofNat n) = true →
      value (Char.ofNat n) = ascending.idxOf (Char.ofNat n).toLower := by
    decide
  have hc := hall c.toNat (toNat_lt_of_isOf h)
  rw [Char.ofNat_toNat] at hc
  exact hc h

theorem number_eq_positional {base b : Nat} (hb : b ≤ 16) {cs : List Char}
    (h : ∀ c ∈ cs, isOf b c = true) : number base cs = positional base cs := by
  rw [number, positional, ← List.map_reverse]
  congr 1
  apply List.map_congr_left
  intro c hc
  apply value_eq_idxOf
  have hlt := h c (List.mem_reverse.mp hc)
  simp only [isOf, decide_eq_true_eq] at hlt ⊢
  omega

theorem number_ten {cs : List Char} (h : Text.IsRun Char.isDigit cs) :
    number 10 cs = positional 10 cs :=
  number_eq_positional (by decide) fun c hc => isOf_ten_of_isDigit (h.2 c hc)

end Digits

open Digits

namespace Numeral

namespace Plain

/-- The literal can have a suffix: it has no fraction, and its exponent is at most 10000 and has no
sign unless it is zero. -/
def Integral (p : Plain) : Prop :=
  p.fraction = none ∧ ∀ e ∈ p.exponent, positional 10 e.digits ≤ 10000 ∧
    (e.negative = false ∨ positional 10 e.digits = 0)

theorem Proper.unrepresentable_iff {p : Plain} (hp : p.Proper) (hs : p.suffixed = true) :
    p.Unrepresentable ↔ ¬ p.Integral := by
  rw [Unrepresentable, if_pos hs, Integral]
  cases hf : p.fraction with
  | some ds => simp
  | none =>
      cases he : p.exponent with
      | none => simp
      | some e =>
          have hnumber := number_ten (hp.exponent e he).2
          simp only [Option.isSome_none, Bool.false_eq_true, false_or, Option.mem_def,
            Option.some.injEq, exists_eq_left', forall_eq', true_and, hnumber]
          rw [not_and_or, not_or, Nat.not_le, Bool.not_eq_false]
          exact or_comm

theorem Proper.power_eq {p : Plain} (hp : p.Proper) (h : p.Integral) :
    p.power = .ok (p.exponent.elim 0 fun e => positional 10 e.digits) := by
  unfold power
  cases he : p.exponent with
  | none => rfl
  | some e =>
      obtain ⟨hmax, hsign⟩ := h.2 e he
      have hsmall : ¬ maxExponent < positional 10 e.digits := Nat.not_lt.mpr hmax
      have hsigned : ¬ (e.negative = true ∧ positional 10 e.digits ≠ 0) := by
        rintro ⟨hn, hne⟩
        obtain hsign | hsign := hsign
        · rw [hn] at hsign
          cases hsign
        · exact hne hsign
      dsimp only
      rw [toNat?_ten (hp.exponent e he).2, number_ten (hp.exponent e he).2]
      dsimp only
      rw [if_neg hsmall, if_neg hsigned]
      rfl

theorem Proper.integer_eq {p : Plain} (hp : p.Proper) (h : p.Integral) :
    p.integer = .ok (positional 10 p.whole *
      10 ^ p.exponent.elim 0 fun e => positional 10 e.digits) := by
  have hf : ¬ p.fraction.isSome = true := by simp [h.1]
  rw [integer, if_neg hf, hp.power_eq h, toNat?_ten hp.whole, number_ten hp.whole]
  rfl

theorem Proper.value_eq {p : Plain} (hp : p.Proper) (hs : p.suffixed = true) (h : p.Integral) :
    p.value = .ok (.integer (positional 10 p.whole *
      10 ^ p.exponent.elim 0 fun e => positional 10 e.digits)) := by
  rw [value, if_pos hs, hp.integer_eq h]
  rfl

theorem Proper.chars_eq_cons {p : Plain} (hp : p.Proper) : ∃ c cs, p.chars = c :: cs := by
  obtain ⟨c, cs, hcs⟩ := List.exists_cons_of_ne_nil hp.whole.1
  exact ⟨c, _, by rw [chars, body, hcs, List.cons_append, List.cons_append, List.cons_append]⟩

theorem Proper.form {p : Plain} (hp : p.Proper) {c : Char} {cs : List Char}
    (h : p.chars = c :: cs) : Munch.Form c cs ⟨cs, Munch.decoded p.format p.value⟩ := by
  have hdecimal : c :: cs ∈ Grammar.decimal := Grammar.mem_decimal.mpr ⟨p, hp, h⟩
  have hmarker : Munch.NoMarker c cs := by
    intro h0 m hm
    obtain ⟨tail, rfl⟩ := List.head?_eq_some_iff.mp hm
    subst h0
    cases hr : Radix.ofMarker? m with
    | none => rfl
    | some r =>
        -- Before a marker only the zero itself would be decimal, but here all of the text is.
        have hlen := Grammar.length_decimal_le_one hr hdecimal List.prefix_rfl
        simp only [List.length_cons] at hlen
        omega
  have hread : read (c :: cs) = p := by rw [← h, hp.read_chars]
  have hform := Munch.Form.plain (Grammar.isDigit_of_mem_decimal hdecimal) hmarker
  rw [hread, h] at hform
  exact hform

end Plain

theorem Marked.form {m : Marked} (hr : Radix.ofMarker? m.marker = some m.radix)
    (hd : Text.IsRun (isOf m.radix.base) m.digits) :
    Munch.Form '0' m.chars ⟨m.chars, Munch.decoded (.radix m.radix) m.value⟩ := by
  have hread := read_digits hd.2 m.marker m.suffixed
  have hdigits : (read m.radix m.marker (m.digits ++ suffixChars m.suffixed)).digits ≠ [] := by
    rw [hread]
    exact hd.1
  have hform := Munch.Form.marked hr hdigits
  rw [hread] at hform
  exact hform

end Numeral

open Numeral

theorem Numeral.Plain.Proper.scan_ok {p : Plain} (hp : p.Proper) {v : NumberValue}
    (hv : p.value = .ok v) {text : String} (ht : text.toList = p.chars) :
    scan text = ⟨[⟨.number v p.format, text,
      Span.between .start (Location.start.advance text.toList)⟩,
      Token.atEnd (Location.start.advance text.toList)], []⟩ := by
  obtain ⟨c, cs, hcs⟩ := hp.chars_eq_cons
  have hform := hp.form hcs
  have hlexeme : text = String.ofList (c :: cs) := by rw [← hcs, ← ht, String.ofList_toList]
  rw [hv] at hform
  rw [scan_token (ht.trans hcs) hform, hlexeme]
  rfl

theorem Numeral.Plain.Proper.scan_error {p : Plain} (hp : p.Proper) {e : Numeral.Error}
    (he : p.value = .error e) {text : String} (ht : text.toList = p.chars) :
    scan text = ⟨[Token.atEnd (Location.start.advance text.toList)], [(Fault.number e).diagnostic
      (Span.between .start (Location.start.advance text.toList))]⟩ := by
  obtain ⟨c, cs, hcs⟩ := hp.chars_eq_cons
  have hform := hp.form hcs
  rw [he] at hform
  exact scan_fault (ht.trans hcs) hform

theorem Numeral.Marked.scan_ok {m : Marked} (hr : Radix.ofMarker? m.marker = some m.radix)
    (hd : Text.IsRun (isOf m.radix.base) m.digits) {v : NumberValue} (hv : m.value = .ok v)
    {text : String} (ht : text.toList = '0' :: m.chars) :
    scan text = ⟨[⟨.number v (.radix m.radix), text,
      Span.between .start (Location.start.advance text.toList)⟩,
      Token.atEnd (Location.start.advance text.toList)], []⟩ := by
  have hform := Marked.form hr hd
  have hlexeme : text = String.ofList ('0' :: m.chars) := by rw [← ht, String.ofList_toList]
  rw [hv] at hform
  rw [scan_token ht hform, hlexeme]
  rfl

theorem Radix.base_le (r : Radix) : r.base ≤ 16 := by
  cases r <;> decide

theorem scan_integral {p : Plain} (hp : p.Proper) (hs : p.suffixed = true) (h : p.Integral) :
    (scan (String.ofList p.chars)).diagnostics = [] ∧
      (scan (String.ofList p.chars)).tokens.map Token.kind =
        [.number (.integer (positional 10 p.whole *
          10 ^ p.exponent.elim 0 fun e => positional 10 e.digits)) p.format, .eof] := by
  rw [hp.scan_ok (hp.value_eq hs h) String.toList_ofList]
  exact ⟨rfl, rfl⟩

theorem scan_not_integral {p : Plain} (hp : p.Proper) (hs : p.suffixed = true)
    (h : ¬ p.Integral) :
    (scan (String.ofList p.chars)).tokens.map Token.kind = [.eof] ∧
      ∃ d, (scan (String.ofList p.chars)).diagnostics = [d] ∧ d.code = some ⟨"E", 1005⟩ ∧
        d.span.start = 0 ∧ d.span.stop = (String.ofList p.chars).utf8ByteSize := by
  obtain ⟨e, he⟩ := hp.value_error_iff.mpr ((hp.unrepresentable_iff hs).mpr h)
  rw [hp.scan_error he String.toList_ofList]
  refine ⟨rfl, _, rfl, rfl, rfl, ?_⟩
  rw [← Text.byteSize_toList]
  exact Location.offset_start_advance _

theorem scan_marked {m : Marked} (hr : Radix.ofMarker? m.marker = some m.radix)
    (hd : Text.IsRun (isOf m.radix.base) m.digits) (hs : m.suffixed = true) :
    (scan (String.ofList ('0' :: m.chars))).diagnostics = [] ∧
      (scan (String.ofList ('0' :: m.chars))).tokens.map Token.kind =
        [.number (.integer (positional m.radix.base m.digits)) (.radix m.radix), .eof] := by
  have hvalue : m.value = .ok (.integer (positional m.radix.base m.digits)) := by
    rw [Marked.value, if_pos hs, toNat?_eq_number hd, number_eq_positional m.radix.base_le hd.2]
  rw [Marked.scan_ok hr hd hvalue String.toList_ofList]
  exact ⟨rfl, rfl⟩

/-- A decimal literal with a suffix denotes the integer that it spells, exactly, or is reported as
a whole if it spells none or has too large an exponent. A literal with a radix marker and a suffix
always denotes the number that its digits spell. -/
theorem scan_suffixed_literals :
    (∀ p : Plain, p.Proper →
      let text := String.ofList (p.body ++ ['n'])
      let power := p.exponent.elim 0 fun e => positional 10 e.digits
      (p.Integral → (scan text).diagnostics = [] ∧
        (scan text).tokens.map Token.kind =
          [.number (.integer (positional 10 p.whole * 10 ^ power))
            (if p.exponent.isSome then .exponential else .decimal), .eof]) ∧
      (¬ p.Integral → (scan text).tokens.map Token.kind = [.eof] ∧
        ∃ d, (scan text).diagnostics = [d] ∧ d.code = some ⟨"E", 1005⟩ ∧
          d.span.start = 0 ∧ d.span.stop = text.utf8ByteSize)) ∧
    ∀ r marker ds, Grammar.marker r marker → ds ∈ Grammar.many (Grammar.radixDigit r) →
      let text := String.ofList ('0' :: marker :: ds ++ ['n'])
      (scan text).diagnostics = [] ∧ (scan text).tokens.map Token.kind =
        [.number (.integer (positional r.base ds)) (.radix r), .eof] := by
  constructor
  · intro p hp
    have hsuffixed : Plain.Proper { p with suffixed := true } :=
      ⟨hp.whole, hp.fraction, hp.exponent⟩
    exact ⟨scan_integral hsuffixed rfl, scan_not_integral hsuffixed rfl⟩
  · intro r marker ds hm hd
    exact scan_marked (m := ⟨r, marker, ds, true⟩) ((Grammar.marker_iff r marker).mp hm)
      (Grammar.isRun_radix_iff.mp hd) rfl

theorem Text.isRun_of_all {p : Char → Bool} {cs : List Char} (hne : cs ≠ [])
    (h : cs.all p = true) : Text.IsRun p cs :=
  ⟨hne, List.all_eq_true.mp h⟩

/-- An exponent that is zero in spite of its sign, one that no machine word holds, and digits in
both cases. -/
theorem scan_suffixed_literals_boundaries :
    ((scan "07E-00n").diagnostics = [] ∧
      (scan "07E-00n").tokens.map Token.kind = [.number (.integer 7) .exponential, .eof]) ∧
    ((scan "1e4294967296n").tokens.map Token.kind = [.eof] ∧
      ∃ d, (scan "1e4294967296n").diagnostics = [d] ∧ d.code = some ⟨"E", 1005⟩ ∧
        d.span.start = 0 ∧ d.span.stop = 13) ∧
    ((scan "0XfFn").diagnostics = [] ∧
      (scan "0XfFn").tokens.map Token.kind =
        [.number (.integer 255) (.radix .hexadecimal), .eof]) := by
  have hzero : Plain.Proper ⟨['0', '7'], none, some ⟨'E', true, ['0', '0']⟩, true⟩ := by
    refine ⟨Text.isRun_of_all (by decide) (by decide), by rintro _ ⟨⟩, ?_⟩
    rintro _ ⟨⟩
    exact ⟨rfl, Text.isRun_of_all (by decide) (by decide)⟩
  have hlarge : Plain.Proper ⟨['1'], none, some ⟨'e', false, "4294967296".toList⟩, true⟩ := by
    refine ⟨Text.isRun_of_all (by decide) (by decide), by rintro _ ⟨⟩, ?_⟩
    rintro _ ⟨⟩
    exact ⟨rfl, Text.isRun_of_all (by decide) (by decide)⟩
  have hdigits : ['f', 'F'] ∈ Grammar.many (Grammar.radixDigit .hexadecimal) :=
    Grammar.isRun_radix_iff.mpr (Text.isRun_of_all (by decide) (by decide))
  have hseven := (scan_suffixed_literals.1 _ hzero).1 ⟨rfl, by
    rintro _ ⟨⟩
    exact ⟨by decide, .inr (by decide)⟩⟩
  have htoo := (scan_suffixed_literals.1 _ hlarge).2 (by
    rintro ⟨-, h⟩
    exact absurd (h _ rfl).1 (by decide))
  have hbyte := scan_suffixed_literals.2 .hexadecimal 'X' _ (.inr rfl) hdigits
  exact ⟨hseven, htoo, hbyte⟩

end ScriptScan
