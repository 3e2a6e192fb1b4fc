import Mathlib.Computability.Language
import Mathlib.Tactic.SplitIfs
import ScriptScan.Proofs.Form

namespace ScriptScan.Grammar

open Computability Numeral Munch

def one (p : Char → Prop) : Language Char := {w | ∃ c, p c ∧ w = [c]}

def many (p : Char → Prop) : Language Char := {w | w ≠ [] ∧ ∀ c ∈ w, p c}

def optional (l : Language Char) : Language Char := 1 + l

def digit (c : Char) : Prop := '0' ≤ c ∧ c ≤ '9'

def radixDigit : Radix → Char → Prop
  | .binary, c => '0' ≤ c ∧ c ≤ '1'
  | .octal, c => '0' ≤ c ∧ c ≤ '7'
  | .hexadecimal, c => '0' ≤ c ∧ c ≤ '9' ∨ 'a' ≤ c ∧ c ≤ 'f' ∨ 'A' ≤ c ∧ c ≤ 'F'

def marker : Radix → Char → Prop
  | .binary, c => c = 'b' ∨ c = 'B'
  | .octal, c => c = 'o' ∨ c = 'O'
  | .hexadecimal, c => c = 'x' ∨ c = 'X'

def fraction : Language Char := one (· = '.') * many digit

def exponent : Language Char :=
  one (fun c => c = 'e' ∨ c = 'E') * optional (one (· = '-')) * many digit

def suffix : Language Char := optional (one (· = 'n'))

def decimal : Language Char := many digit * optional fraction * optional exponent * suffix

def literal : NumberFormat → Language Char
  | .decimal => many digit * optional fraction * suffix
  | .exponential => many digit * optional fraction * exponent * suffix
  | .radix r => one (· = '0') * one (marker r) * many (radixDigit r) * suffix

/-- What may stand between quotes. -/
def escaped : Language Char :=
  (one (fun c => c ≠ '"' ∧ c ≠ '\\') + one (· = '\\') * one (fun _ => True))∗

def quoted : Language Char := one (· = '"') * escaped * one (· = '"')

def symbol : Language Char := {w | ∃ s : Symbol, w = s.text.toList}

def token : Language Char :=
  symbol + decimal + (literal (.radix .binary) + literal (.radix .octal) +
    literal (.radix .hexadecimal)) + quoted

theorem mem_one {p : Char → Prop} {w : List Char} : w ∈ one p ↔ ∃ c, p c ∧ w = [c] := Iff.rfl

theorem mem_optional {l : Language Char} {w : List Char} : w ∈ optional l ↔ w = [] ∨ w ∈ l := by
  rw [optional, Language.mem_add, Language.mem_one]

theorem digit_iff (c : Char) : digit c ↔ c.isDigit = true := by
  simp [digit, Char.isDigit, Char.le_def]

theorem radixDigit_iff (r : Radix) (c : Char) : radixDigit r c ↔ Digits.isOf r.base c = true := by
  have hlower : c.isLower = (decide (c.val ≥ 'a'.val) && decide (c.val ≤ 'z'.val)) := rfl
  have hupper : c.isUpper = decide (c.val ≥ 'A'.val ∧ c.val ≤ 'Z'.val) := rfl
  simp only [Digits.isOf, Digits.value, Char.isDigit, hlower, hupper, Bool.and_eq_true,
    decide_eq_true_eq, UInt32.le_iff_toNat_le, ge_iff_le, ← Char.toNat_val]
  cases r <;>
    simp only [radixDigit, Radix.base, Char.le_def, UInt32.le_iff_toNat_le, UInt32.reduceToNat,
      Char.reduceVal] <;>
    split_ifs <;> omega

theorem toLower_eq {c d : Char} (h : c.toLower = d) : c = d ∨ c.toNat + 32 = d.toNat := by
  by_cases hc : c.val ≥ 'A'.val ∧ c.val ≤ 'Z'.val
  · have hlower : c.toLower = ⟨c.val + ('a'.val - 'A'.val), _⟩ := dif_pos hc
    refine .inr ?_
    rw [← h, hlower]
    simp only [ge_iff_le, UInt32.le_iff_toNat_le, UInt32.reduceToNat, Char.reduceVal] at hc
    simp only [Char.toNat, UInt32.toNat_add, Char.reduceVal, UInt32.reduceSub, UInt32.reduceToNat]
    omega
  · have hlower : c.toLower = c := dif_neg hc
    exact .inl (hlower ▸ h)

theorem marker_iff (r : Radix) (c : Char) : marker r c ↔ Radix.ofMarker? c = some r := by
  constructor
  · cases r <;> rintro (rfl | rfl) <;> rfl
  · intro h
    unfold Radix.ofMarker? at h
    split at h <;> cases h
    all_goals
      rename_i hc
      obtain hc | hc := toLower_eq hc
      · exact .inl hc
      · refine .inr (Char.toNat_inj.mp ?_)
        simp only [Char.reduceToNat] at hc ⊢
        omega

theorem decimal_eq : decimal = literal .decimal + literal .exponential := by
  simp only [decimal, literal, optional, mul_add, add_mul, mul_one, mul_assoc]

theorem isRun_iff {w : List Char} : w ∈ many digit ↔ Text.IsRun Char.isDigit w := by
  simp only [many, Text.IsRun, digit_iff]
  exact Iff.rfl

theorem isRun_radix_iff {r : Radix} {w : List Char} :
    w ∈ many (radixDigit r) ↔ Text.IsRun (Digits.isOf r.base) w := by
  simp only [many, Text.IsRun, radixDigit_iff]
  exact Iff.rfl

theorem mem_fraction {w : List Char} :
    w ∈ optional fraction ↔ ∃ f : Option (List Char),
      (∀ ds ∈ f, Text.IsRun Char.isDigit ds) ∧ fractionChars f = w := by
  rw [mem_optional]
  constructor
  · rintro (rfl | ⟨_, ⟨c, rfl, rfl⟩, ds, hds, rfl⟩)
    · exact ⟨none, by simp, rfl⟩
    · refine ⟨some ds, ?_, rfl⟩
      rintro _ ⟨⟩
      exact isRun_iff.mp hds
  · rintro ⟨f, hf, rfl⟩
    cases f with
    | none => exact .inl rfl
    | some ds => exact .inr ⟨['.'], ⟨'.', rfl, rfl⟩, ds, isRun_iff.mpr (hf ds rfl), rfl⟩

theorem mem_exponent {w : List Char} : w ∈ exponent ↔ ∃ e : Exponent, e.Proper ∧ e.chars = w := by
  constructor
  · rintro ⟨_, ⟨_, ⟨m, hm, rfl⟩, sign, hsign, rfl⟩, ds, hds, rfl⟩
    have hm' : Plain.isExponentMarker m = true := by simpa [Plain.isExponentMarker] using hm
    obtain rfl | ⟨_, rfl, rfl⟩ := mem_optional.mp hsign
    · exact ⟨⟨m, false, ds⟩, ⟨hm', isRun_iff.mp hds⟩, rfl⟩
    · exact ⟨⟨m, true, ds⟩, ⟨hm', isRun_iff.mp hds⟩, rfl⟩
  · rintro ⟨⟨m, negative, ds⟩, ⟨hm, hds⟩, rfl⟩
    have hm' : m = 'e' ∨ m = 'E' := by simpa [Plain.isExponentMarker] using hm
    refine ⟨m :: if negative then ['-'] else [], ⟨[m], ⟨m, hm', rfl⟩, _, ?_, rfl⟩, ds,
      isRun_iff.mpr hds, rfl⟩
    cases negative with
    | false => exact mem_optional.mpr (.inl rfl)
    | true => exact mem_optional.mpr (.inr ⟨'-', rfl, rfl⟩)

theorem mem_suffix {w : List Char} : w ∈ suffix ↔ ∃ suffixed, suffixChars suffixed = w := by
  rw [suffix, mem_optional, mem_one]
  constructor
  · rintro (rfl | ⟨_, rfl, rfl⟩)
    · exact ⟨false, rfl⟩
    · exact ⟨true, rfl⟩
  · rintro ⟨suffixed, rfl⟩
    cases suffixed with
    | false => exact .inl rfl
    | true => exact .inr ⟨'n', rfl, rfl⟩

theorem mem_literal_decimal {w : List Char} :
    w ∈ literal .decimal ↔ ∃ p : Plain, p.Proper ∧ p.format = .decimal ∧ p.chars = w := by
  constructor
  · rintro ⟨_, ⟨whole, hw, _, hf, rfl⟩, _, hs, rfl⟩
    obtain ⟨f, hf', rfl⟩ := mem_fraction.mp hf
    obtain ⟨suffixed, rfl⟩ := mem_suffix.mp hs
    exact ⟨⟨whole, f, none, suffixed⟩, ⟨isRun_iff.mp hw, hf', by simp⟩, rfl,
      by simp [Plain.chars, Plain.body, exponentChars]⟩
  · rintro ⟨⟨whole, f, e, suffixed⟩, ⟨hw, hf, -⟩, hformat, rfl⟩
    cases e with
    | some e => cases hformat
    | none =>
        refine ⟨whole ++ fractionChars f, ⟨whole, isRun_iff.mpr hw, _, ?_, rfl⟩,
          suffixChars suffixed, mem_suffix.mpr ⟨_, rfl⟩, ?_⟩
        · exact mem_fraction.mpr ⟨f, hf, rfl⟩
        · simp [Plain.chars, Plain.body, exponentChars]

theorem mem_literal_exponential {w : List Char} :
    w ∈ literal .exponential ↔ ∃ p : Plain, p.Proper ∧ p.format = .exponential ∧ p.chars = w := by
  constructor
  · rintro ⟨_, ⟨_, ⟨whole, hw, _, hf, rfl⟩, _, he, rfl⟩, _, hs, rfl⟩
    obtain ⟨f, hf', rfl⟩ := mem_fraction.mp hf
    obtain ⟨e, he', rfl⟩ := mem_exponent.mp he
    obtain ⟨suffixed, rfl⟩ := mem_suffix.mp hs
    refine ⟨⟨whole, f, some e, suffixed⟩, ⟨isRun_iff.mp hw, hf', ?_⟩, rfl, rfl⟩
    rintro _ ⟨⟩
    exact he'
  · rintro ⟨⟨whole, f, e, suffixed⟩, ⟨hw, hf, he⟩, hformat, rfl⟩
    cases e with
    | none => cases hformat
    | some e =>
        exact ⟨_, ⟨_, ⟨whole, isRun_iff.mpr hw, _, mem_fraction.mpr ⟨f, hf, rfl⟩, rfl⟩, _,
          mem_exponent.mpr ⟨e, he e rfl, rfl⟩, rfl⟩, _, mem_suffix.mpr ⟨suffixed, rfl⟩, rfl⟩

theorem mem_decimal {w : List Char} : w ∈ decimal ↔ ∃ p : Plain, p.Proper ∧ p.chars = w := by
  rw [decimal_eq, Language.mem_add, mem_literal_decimal, mem_literal_exponential]
  constructor
  · rintro (⟨p, hp, -, hw⟩ | ⟨p, hp, -, hw⟩) <;> exact ⟨p, hp, hw⟩
  · rintro ⟨p, hp, hw⟩
    cases h : p.exponent with
    | none => exact .inl ⟨p, hp, by simp [Plain.format, h], hw⟩
    | some e => exact .inr ⟨p, hp, by simp [Plain.format, h], hw⟩

theorem mem_literal_radix {r : Radix} {w : List Char} :
    w ∈ literal (.radix r) ↔ ∃ m ds suffixed, Radix.ofMarker? m = some r ∧
      Text.IsRun (Digits.isOf r.base) ds ∧ '0' :: m :: ds ++ suffixChars suffixed = w := by
  constructor
  · rintro ⟨_, ⟨_, ⟨_, ⟨_, rfl, rfl⟩, _, ⟨m, hm, rfl⟩, rfl⟩, ds, hds, rfl⟩, _, hs, rfl⟩
    obtain ⟨suffixed, rfl⟩ := mem_suffix.mp hs
    exact ⟨m, ds, suffixed, (marker_iff r m).mp hm, isRun_radix_iff.mp hds, rfl⟩
  · rintro ⟨m, ds, suffixed, hm, hds, rfl⟩
    exact ⟨_, ⟨_, ⟨_, ⟨'0', rfl, rfl⟩, _, ⟨m, (marker_iff r m).mpr hm, rfl⟩, rfl⟩, ds,
      isRun_radix_iff.mpr hds, rfl⟩, _, mem_suffix.mpr ⟨suffixed, rfl⟩, rfl⟩

theorem mem_escaped {w : List Char} : w ∈ escaped ↔ Escaped w := by
  rw [escaped, Language.mem_kstar]
  constructor
  · rintro ⟨l, rfl, hl⟩
    induction l with
    | nil => exact .nil
    | cons x l ih =>
        have hl' := ih fun y hy => hl y (by simp [hy])
        obtain ⟨c, ⟨hq, hb⟩, rfl⟩ | ⟨_, ⟨_, rfl, rfl⟩, _, ⟨c, -, rfl⟩, rfl⟩ := hl x (by simp)
        · exact .plain hq hb hl'
        · exact .escape c hl'
  · intro h
    induction h with
    | nil => exact ⟨[], rfl, by simp⟩
    | @plain c cs hq hb h ih =>
        obtain ⟨l, rfl, hl⟩ := ih
        refine ⟨[c] :: l, rfl, ?_⟩
        intro y hy
        obtain rfl | hy := List.mem_cons.mp hy
        · exact .inl ⟨c, ⟨hq, hb⟩, rfl⟩
        · exact hl y hy
    | @escape c cs h ih =>
        obtain ⟨l, rfl, hl⟩ := ih
        refine ⟨['\\', c] :: l, rfl, ?_⟩
        intro y hy
        obtain rfl | hy := List.mem_cons.mp hy
        · exact .inr ⟨_, ⟨'\\', rfl, rfl⟩, _, ⟨c, trivial, rfl⟩, rfl⟩
        · exact hl y hy

theorem mem_quoted {w : List Char} :
    w ∈ quoted ↔ ∃ body, Escaped body ∧ '"' :: body ++ ['"'] = w := by
  constructor
  · rintro ⟨_, ⟨_, ⟨_, rfl, rfl⟩, body, hb, rfl⟩, _, ⟨_, rfl, rfl⟩, rfl⟩
    exact ⟨body, mem_escaped.mp hb, rfl⟩
  · rintro ⟨body, hb, rfl⟩
    exact ⟨_, ⟨_, ⟨'"', rfl, rfl⟩, body, mem_escaped.mpr hb, rfl⟩, _, ⟨'"', rfl, rfl⟩, rfl⟩

theorem text_of_ofChar? {c : Char} {s : Symbol} (h : Symbol.ofChar? c = some s) :
    s.text.toList = [c] := by
  unfold Symbol.ofChar? at h
  split at h <;> cases h <;> rfl

theorem text_of_withEqual? {c : Char} {s t : Symbol} (hs : Symbol.ofChar? c = some s)
    (ht : s.withEqual? = some t) : t.text.toList = [c, '='] := by
  have hc := text_of_ofChar? hs
  cases s <;> cases ht
  all_goals
    cases hc
    rfl

theorem text_cases (s : Symbol) : ∃ c, s.text.toList = [c] ∧ Symbol.ofChar? c = some s ∨
    s.text.toList = [c, '='] ∧ (Symbol.ofChar? c).bind Symbol.withEqual? = some s := by
  cases s with
  | bangEqual | equalEqual | lessEqual | greaterEqual => exact ⟨_, .inr ⟨rfl, rfl⟩⟩
  | _ => exact ⟨_, .inl ⟨rfl, rfl⟩⟩

theorem text_injective {s t : Symbol} (h : s.text.toList = t.text.toList) : s = t := by
  obtain ⟨c, ⟨hs, hc⟩ | ⟨hs, hc⟩⟩ := text_cases s <;>
    obtain ⟨d, ⟨ht, hd⟩ | ⟨ht, hd⟩⟩ := text_cases t
  all_goals
    rw [hs, ht] at h
    cases h
  all_goals exact Option.some.inj (hc.symm.trans hd)

theorem ofChar?_of_mem_symbol {c : Char} {w : List Char} (h : c :: w ∈ symbol) :
    ∃ s, Symbol.ofChar? c = some s := by
  obtain ⟨s, hs⟩ := h
  obtain ⟨d, ⟨ht, hd⟩ | ⟨ht, hd⟩⟩ := text_cases s
  all_goals
    rw [ht] at hs
    cases hs
  · exact ⟨s, hd⟩
  · obtain ⟨first, hfirst, -⟩ := Option.bind_eq_some_iff.mp hd
    exact ⟨first, hfirst⟩

theorem isDigit_of_mem_decimal {c : Char} {w : List Char} (h : c :: w ∈ decimal) :
    c.isDigit = true := by
  obtain ⟨p, hp, hw⟩ := mem_decimal.mp h
  obtain ⟨d, ds, hds⟩ := List.exists_cons_of_ne_nil hp.whole.1
  have hd : d.isDigit = true := hp.whole.2 d (by simp [hds])
  rw [Plain.chars, Plain.body, hds] at hw
  cases hw
  exact hd

theorem mem_token {w : List Char} : w ∈ token ↔
    w ∈ symbol ∨ (w ∈ decimal ∨ ∃ r, w ∈ literal (.radix r)) ∨ w ∈ quoted := by
  have hr : (∃ r, w ∈ literal (.radix r)) ↔ (w ∈ literal (.radix .binary) ∨
      w ∈ literal (.radix .octal)) ∨ w ∈ literal (.radix .hexadecimal) := by
    constructor
    · rintro ⟨r, h⟩
      cases r with
      | binary => exact .inl (.inl h)
      | octal => exact .inl (.inr h)
      | hexadecimal => exact .inr h
    · rintro ((h | h) | h) <;> exact ⟨_, h⟩
  simp only [token, Language.mem_add, hr, or_assoc]

theorem mem_token_cons {c : Char} {w : List Char} (h : c :: w ∈ token) :
    ((∃ s, Symbol.ofChar? c = some s) ∧ c :: w ∈ symbol) ∨
      (c.isDigit = true ∧ (c :: w ∈ decimal ∨ ∃ r, c :: w ∈ literal (.radix r))) ∨
      (c = '"' ∧ c :: w ∈ quoted) := by
  obtain h | h | h := mem_token.mp h
  · exact .inl ⟨ofChar?_of_mem_symbol h, h⟩
  · refine .inr (.inl ⟨?_, h⟩)
    obtain h | ⟨r, h⟩ := h
    · exact isDigit_of_mem_decimal h
    · obtain ⟨m, ds, suffixed, -, -, hw⟩ := mem_literal_radix.mp h
      cases hw
      rfl
  · refine .inr (.inr ⟨?_, h⟩)
    obtain ⟨body, -, hw⟩ := mem_quoted.mp h
    cases hw
    rfl

end ScriptScan.Grammar
