import ScriptScan.Proofs.Longest

namespace ScriptScan.Grammar

open Numeral Munch

theorem mem_decimal_of_literal {w : List Char} :
    w ∈ literal .decimal ∨ w ∈ literal .exponential → w ∈ decimal := by
  rw [decimal_eq, Language.mem_add]
  exact id

theorem notMem_decimal_of_radix {r : Radix} {w : List Char} (h : w ∈ literal (.radix r)) :
    w ∉ decimal := by
  intro hw
  obtain ⟨m, ds, suffixed, hr, -, rfl⟩ := mem_literal_radix.mp h
  have hlen := length_decimal_le_one hr hw List.prefix_rfl
  simp at hlen

theorem not_isExponentMarker_of_isDigit {c : Char} (h : c.isDigit = true) :
    Plain.isExponentMarker c = false := by
  rw [← Bool.not_eq_true, Plain.isExponentMarker_iff]
  rintro (rfl | rfl)
  · cases h
  · cases h

theorem not_isExponentMarker_of_mem {p : Plain} (hp : p.Proper) (he : p.exponent = none) {c : Char}
    (hc : c ∈ p.chars) : Plain.isExponentMarker c = false := by
  simp only [Plain.chars, Plain.body, he, exponentChars, List.append_nil, List.mem_append] at hc
  obtain (hc | hc) | hc := hc
  · exact not_isExponentMarker_of_isDigit (hp.whole.2 c hc)
  · cases hf : p.fraction with
    | none => simp [hf, fractionChars] at hc
    | some ds =>
        rw [hf, fractionChars] at hc
        obtain rfl | hc := List.mem_cons.mp hc
        · rfl
        · exact not_isExponentMarker_of_isDigit ((hp.fraction ds hf).2 c hc)
  · cases hs : p.suffixed with
    | false => simp [hs, suffixChars] at hc
    | true =>
        obtain rfl : c = 'n' := by simpa [hs, suffixChars] using hc
        rfl

theorem notMem_exponential_of_decimal {w : List Char} (h : w ∈ literal .decimal) :
    w ∉ literal .exponential := by
  intro hw
  obtain ⟨p, hp, hformat, rfl⟩ := mem_literal_decimal.mp h
  obtain ⟨q, hq, hformat', hchars⟩ := mem_literal_exponential.mp hw
  have hnone : p.exponent = none := by
    cases he : p.exponent with
    | none => rfl
    | some e => simp [Plain.format, he] at hformat
  cases he : q.exponent with
  | none => simp [Plain.format, he] at hformat'
  | some e =>
      have hmem : e.marker ∈ p.chars := by
        rw [← hchars]
        simp [Plain.chars, Plain.body, he, exponentChars, Exponent.chars]
      have hno := not_isExponentMarker_of_mem hp hnone hmem
      rw [(hq.exponent e he).1] at hno
      cases hno

theorem format_unique {f g : NumberFormat} {w : List Char} (hf : w ∈ literal f)
    (hg : w ∈ literal g) : f = g := by
  cases f with
  | decimal =>
      cases g with
      | decimal => rfl
      | exponential => exact absurd hg (notMem_exponential_of_decimal hf)
      | radix r => exact absurd (mem_decimal_of_literal (.inl hf)) (notMem_decimal_of_radix hg)
  | exponential =>
      cases g with
      | decimal => exact absurd hf (notMem_exponential_of_decimal hg)
      | exponential => rfl
      | radix r => exact absurd (mem_decimal_of_literal (.inr hf)) (notMem_decimal_of_radix hg)
  | radix r =>
      cases g with
      | decimal => exact absurd (mem_decimal_of_literal (.inl hg)) (notMem_decimal_of_radix hf)
      | exponential => exact absurd (mem_decimal_of_literal (.inr hg)) (notMem_decimal_of_radix hf)
      | radix r' =>
          obtain ⟨m, ds, suffixed, hr, -, rfl⟩ := mem_literal_radix.mp hf
          obtain ⟨m', ds', suffixed', hr', -, hw⟩ := mem_literal_radix.mp hg
          have hm : m' = m := (List.cons.inj (List.cons.inj hw).2).1
          rw [hm, hr] at hr'
          rw [Option.some.inj hr']

theorem isDigit_of_mem_literal {f : NumberFormat} {c : Char} {w : List Char}
    (h : c :: w ∈ literal f) : c.isDigit = true := by
  cases f with
  | decimal => exact isDigit_of_mem_decimal (mem_decimal_of_literal (.inl h))
  | exponential => exact isDigit_of_mem_decimal (mem_decimal_of_literal (.inr h))
  | radix r =>
      obtain ⟨m, ds, suffixed, -, -, hw⟩ := mem_literal_radix.mp h
      cases hw
      rfl

/-- The kind of token that a text stands for, the value of a number left open. -/
structure Classifies (w : List Char) (kind : TokenKind) : Prop where
  symbol : ∀ s, kind = .symbol s ↔ s.text.toList = w
  number : ∀ f, (∃ value, kind = .number value f) ↔ w ∈ literal f
  integer : ∀ value f, kind = .number value f →
    ((∃ n, value = .integer n) ↔ w.getLast? = some 'n')
  string : ∀ text, kind = .string text ↔ w ∈ quoted ∧ '"' :: text.toList ++ ['"'] = w

theorem classifies_symbol {s : Symbol} {c : Char} {w : List Char} (h : s.text.toList = c :: w) :
    Classifies (c :: w) (.symbol s) := by
  obtain ⟨t, ht⟩ := ofChar?_of_mem_symbol (c := c) (w := w) ⟨s, h.symm⟩
  constructor
  · intro s'
    constructor
    · rintro ⟨⟩
      exact h
    · intro h'
      rw [text_injective (h.trans h'.symm)]
  · intro f
    constructor
    · rintro ⟨value, ⟨⟩⟩
    · intro hw
      have hd := isDigit_of_mem_literal hw
      rw [(not_special_of_ofChar? ht).2.2] at hd
      cases hd
  · rintro value f ⟨⟩
  · intro text
    constructor
    · rintro ⟨⟩
    · rintro ⟨-, hw⟩
      cases hw
      cases ht

theorem classifies_string {body : List Char} (hb : Escaped body) :
    Classifies ('"' :: (body ++ ['"'])) (.string (String.ofList body)) := by
  constructor
  · intro s
    constructor
    · rintro ⟨⟩
    · intro hs
      obtain ⟨t, ht⟩ := ofChar?_of_mem_symbol ⟨s, hs.symm⟩
      cases ht
  · intro f
    constructor
    · rintro ⟨value, ⟨⟩⟩
    · intro hw
      cases isDigit_of_mem_literal hw
  · rintro value f ⟨⟩
  · intro text
    constructor
    · rintro ⟨⟩
      exact ⟨mem_quoted.mpr ⟨body, hb, rfl⟩, by simp⟩
    · rintro ⟨-, hw⟩
      have htext : text.toList = body := by simpa using hw
      rw [← htext, String.ofList_toList]

theorem classifies_number {f : NumberFormat} {value : NumberValue} {c : Char} {w : List Char}
    (hw : c :: w ∈ literal f)
    (hn : (∃ n, value = .integer n) ↔ (c :: w).getLast? = some 'n') :
    Classifies (c :: w) (.number value f) := by
  have hd := isDigit_of_mem_literal hw
  constructor
  · intro s
    constructor
    · rintro ⟨⟩
    · intro hs
      obtain ⟨t, ht⟩ := ofChar?_of_mem_symbol ⟨s, hs.symm⟩
      rw [(not_special_of_ofChar? ht).2.2] at hd
      cases hd
  · intro g
    constructor
    · rintro ⟨_, ⟨⟩⟩
      exact hw
    · intro hg
      exact ⟨value, by rw [format_unique hw hg]⟩
  · rintro _ _ ⟨⟩
    exact hn
  · intro text
    constructor
    · rintro ⟨⟩
    · rintro ⟨-, hq⟩
      cases hq
      cases hd

/-- A suffix is the last character, because no digit looks like it. -/
theorem getLast?_append_suffixChars {p : Char → Bool} (hp : p 'n' = false) {ds : List Char}
    (hds : Text.IsRun p ds) (init : List Char) (suffixed : Bool) :
    (init ++ ds ++ suffixChars suffixed).getLast? = some 'n' ↔ suffixed = true := by
  cases suffixed with
  | true => simp [suffixChars]
  | false =>
      simp only [suffixChars, Bool.false_eq_true, if_false, List.append_nil, iff_false]
      intro hlast
      rw [List.getLast?_append_of_ne_nil _ hds.1] at hlast
      have hn := hds.2 'n' (List.mem_of_getLast? hlast)
      rw [hp] at hn
      cases hn

theorem mem_literal_format {p : Plain} (hp : p.Proper) : p.chars ∈ literal p.format := by
  cases he : p.exponent with
  | none =>
      have hformat : p.format = .decimal := by simp [Plain.format, he]
      rw [hformat]
      exact mem_literal_decimal.mpr ⟨p, hp, hformat, rfl⟩
  | some e =>
      have hformat : p.format = .exponential := by simp [Plain.format, he]
      rw [hformat]
      exact mem_literal_exponential.mpr ⟨p, hp, hformat, rfl⟩

theorem getLast?_chars_plain {p : Plain} (hp : p.Proper) :
    p.chars.getLast? = some 'n' ↔ p.suffixed = true := by
  have hn : Char.isDigit 'n' = false := rfl
  cases he : p.exponent with
  | some e =>
      have hlast := getLast?_append_suffixChars hn (hp.exponent e he).2
        (p.whole ++ fractionChars p.fraction ++ (e.marker :: if e.negative then ['-'] else []))
        p.suffixed
      simpa [Plain.chars, Plain.body, he, exponentChars, Exponent.chars] using hlast
  | none =>
      cases hf : p.fraction with
      | some ds =>
          have hlast := getLast?_append_suffixChars hn (hp.fraction ds hf) (p.whole ++ ['.'])
            p.suffixed
          simpa [Plain.chars, Plain.body, he, hf, exponentChars, fractionChars] using hlast
      | none =>
          have hlast := getLast?_append_suffixChars hn hp.whole [] p.suffixed
          simpa [Plain.chars, Plain.body, he, hf, exponentChars, fractionChars] using hlast

theorem integer_iff_plain {p : Plain} {value : NumberValue} (h : p.value = .ok value) :
    (∃ n, value = .integer n) ↔ p.suffixed = true := by
  unfold Plain.value at h
  cases hs : p.suffixed with
  | true =>
      cases hi : p.integer with
      | error e => simp [hs, hi, Except.map] at h
      | ok n =>
          simp only [hs, hi, Except.map, if_true, Except.ok.injEq] at h
          simp [← h]
  | false =>
      cases hx : p.float with
      | error e => simp [hs, hx, Except.map] at h
      | ok x =>
          simp only [hs, hx, Except.map, Bool.false_eq_true, if_false, Except.ok.injEq] at h
          simp [← h]

theorem integer_iff_marked {m : Marked} {value : NumberValue} (h : m.value = .ok value) :
    (∃ n, value = .integer n) ↔ m.suffixed = true := by
  unfold Marked.value at h
  cases hs : m.suffixed with
  | true =>
      rw [hs] at h
      simp only [if_true] at h
      split at h
      · cases h
      · cases h
        simp
  | false =>
      rw [hs] at h
      simp only [Bool.false_eq_true, if_false] at h
      split at h
      · cases h
      · cases h
        simp

inductive Decodes : List Char → Except Numeral.Error NumberValue → Prop
  | plain {p : Plain} (hp : p.Proper) : Decodes p.chars p.value
  | marked {m : Marked} (hr : Radix.ofMarker? m.marker = some m.radix)
      (hd : Text.IsRun (Digits.isOf m.radix.base) m.digits) : Decodes ('0' :: m.chars) m.value

theorem classifies_of_form {c : Char} {cs : List Char} {m : Munch} (h : m.Form c cs)
    {kind : TokenKind} (hk : m.outcome = .token kind) : Classifies (c :: m.more) kind := by
  cases h with
  | blanks hc | lineComment cs | blockComment hb | openComment hb | openString hq
  | missingDigits hr hd | unknown hb hq hd hs => cases hk
  | string hq =>
      cases hk
      exact classifies_string (quotedBody?_sound hq).1
  | symbol hs hn he =>
      cases hk
      exact classifies_symbol (text_of_ofChar? hs)
  | symbolEqual hs ht =>
      cases hk
      exact classifies_symbol (text_of_withEqual? hs ht)
  | @marked m cs r hr hd =>
      obtain ⟨value, hv, rfl⟩ := decoded_eq_token hk
      have hds : Text.IsRun (Digits.isOf r.base) (Marked.read r m cs).digits :=
        ⟨hd, fun c hc => List.mem_takeWhile_imp hc⟩
      refine classifies_number (mem_literal_radix.mpr ⟨m, _, _, hr, hds, rfl⟩) ?_
      rw [integer_iff_marked hv]
      exact (getLast?_append_suffixChars (Marked.isOf_base_n r) hds ['0', m] _).symm
  | plain hc hm =>
      obtain ⟨value, hv, rfl⟩ := decoded_eq_token hk
      have hp := Plain.proper_read cs hc
      have hchars := Plain.chars_read_cons cs hc
      refine classifies_number ?_ ?_
      · rw [← hchars]
        exact mem_literal_format hp
      · rw [← hchars, integer_iff_plain hv]
        exact (getLast?_chars_plain hp).symm

theorem decodes_of_form {c : Char} {cs : List Char} {m : Munch} (h : m.Form c cs)
    {e : Numeral.Error} (he : m.outcome = .fault (.number e)) :
    Decodes (c :: m.more) (.error e) := by
  cases h with
  | blanks hc | lineComment cs | blockComment hb | openComment hb | openString hq
  | missingDigits hr hd | unknown hb hq hd hs | string hq | symbol hs hn he'
  | symbolEqual hs ht => cases he
  | @marked m cs r hr hd =>
      rw [← decoded_eq_fault he]
      exact .marked hr ⟨hd, fun c hc => List.mem_takeWhile_imp hc⟩
  | plain hc hm =>
      rw [← Plain.chars_read_cons cs hc, ← decoded_eq_fault he]
      exact .plain (Plain.proper_read cs hc)

end ScriptScan.Grammar
