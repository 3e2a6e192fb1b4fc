import ScriptScan.Proofs.Delimited
import ScriptScan.Proofs.Literal

namespace ScriptScan.Munch

open Numeral

def NoComment (c : Char) (cs : List Char) : Prop := c = '-' ∨ c = '{' → cs.head? ≠ some '-'

def NoMarker (c : Char) (cs : List Char) : Prop :=
  c = '0' → ∀ marker ∈ cs.head?, Radix.ofMarker? marker = none

/-- The stretch that a text begins with, given its first character and what follows it. The proofs
about scanning go through these forms and not through the dispatch. -/
inductive Form : Char → List Char → Munch → Prop
  | blanks {c : Char} {cs : List Char} (hc : isBlank c = true) :
      Form c cs ⟨cs.takeWhile isBlank, .trivia⟩
  | lineComment (cs : List Char) :
      Form '-' ('-' :: cs) ⟨'-' :: cs.takeWhile (· ≠ '\n'), .trivia⟩
  | blockComment {cs body : List Char} (h : blockComment? cs = some body) :
      Form '{' ('-' :: cs) ⟨'-' :: body, .trivia⟩
  | openComment {cs : List Char} (h : blockComment? cs = none) :
      Form '{' ('-' :: cs) ⟨'-' :: cs, .fault .unterminatedComment⟩
  | string {cs body : List Char} (h : quotedBody? cs = some body) :
      Form '"' cs ⟨body ++ ['"'], .token (.string (String.ofList body))⟩
  | openString {cs : List Char} (h : quotedBody? cs = none) :
      Form '"' cs ⟨cs, .fault .unterminatedString⟩
  | marked {marker : Char} {cs : List Char} {r : Radix} (hr : Radix.ofMarker? marker = some r)
      (hd : (Marked.read r marker cs).digits ≠ []) :
      Form '0' (marker :: cs)
        ⟨(Marked.read r marker cs).chars, decoded (.radix r) (Marked.read r marker cs).value⟩
  | missingDigits {marker : Char} {cs : List Char} {r : Radix}
      (hr : Radix.ofMarker? marker = some r) (hd : (Marked.read r marker cs).digits = []) :
      Form '0' (marker :: cs)
        ⟨marker :: cs.takeWhile Char.isAlphanum, .fault (.missingDigits r marker)⟩
  | plain {c : Char} {cs : List Char} (hc : c.isDigit = true) (hm : NoMarker c cs) :
      Form c cs ⟨(Plain.read (c :: cs)).chars.tail,
        decoded (Plain.read (c :: cs)).format (Plain.read (c :: cs)).value⟩
  | symbol {c : Char} {cs : List Char} {s : Symbol} (hs : Symbol.ofChar? c = some s)
      (hn : NoComment c cs) (he : s.withEqual? = none ∨ cs.head? ≠ some '=') :
      Form c cs ⟨[], .token (.symbol s)⟩
  | symbolEqual {c : Char} {cs : List Char} {s t : Symbol} (hs : Symbol.ofChar? c = some s)
      (ht : s.withEqual? = some t) : Form c ('=' :: cs) ⟨['='], .token (.symbol t)⟩
  | unknown {c : Char} {cs : List Char} (hb : isBlank c = false) (hq : c ≠ '"')
      (hd : c.isDigit = false) (hs : Symbol.ofChar? c = none) :
      Form c cs ⟨[], .fault (.unknownCharacter c)⟩

theorem form_string (cs : List Char) : Form '"' cs (string cs) := by
  unfold string
  cases h : quotedBody? cs with
  | none => exact .openString h
  | some body => exact .string h

theorem form_block (cs : List Char) : Form '{' ('-' :: cs) (block cs) := by
  unfold block
  cases h : blockComment? cs with
  | none => exact .openComment h
  | some body => exact .blockComment h

theorem form_marked {r : Radix} {marker : Char} (hr : Radix.ofMarker? marker = some r)
    (cs : List Char) : Form '0' (marker :: cs) (marked r marker cs) := by
  unfold marked
  by_cases hd : (Marked.read r marker cs).digits = []
  · simp only [hd, if_true]
    exact .missingDigits hr hd
  · simp only [hd, if_false]
    exact .marked hr hd

theorem form_number {c : Char} (hc : c.isDigit = true) (cs : List Char) :
    Form c cs (number c cs) := by
  unfold number
  split
  · rename_i marker rest
    cases hr : Radix.ofMarker? marker with
    | none =>
        refine .plain hc ?_
        intro _ m hm
        cases hm
        exact hr
    | some r => exact form_marked hr rest
  · rename_i hno
    refine .plain hc ?_
    intro h0 m hm
    obtain ⟨tail, htail⟩ := List.head?_eq_some_iff.mp hm
    exact absurd htail (hno m tail h0)

theorem form_symbol {c : Char} {s : Symbol} (hs : Symbol.ofChar? c = some s) {cs : List Char}
    (hn : NoComment c cs) : Form c cs (symbol s cs) := by
  unfold symbol
  split
  · rename_i t cs ht
    exact .symbolEqual hs ht
  · rename_i hno
    refine .symbol hs hn ?_
    cases ht : s.withEqual? with
    | none => exact .inl rfl
    | some t =>
        refine .inr ?_
        intro hcs
        obtain ⟨tail, htail⟩ := List.head?_eq_some_iff.mp hcs
        exact hno t tail ht htail

theorem form_ofChars (c : Char) (cs : List Char) : Form c cs (ofChars c cs) := by
  unfold ofChars
  by_cases hb : isBlank c = true
  · rw [if_pos hb]
    exact .blanks hb
  by_cases hq : c = '"'
  · rw [if_neg hb, if_pos hq, hq]
    exact form_string cs
  by_cases hd : c.isDigit = true
  · rw [if_neg hb, if_neg hq, if_pos hd]
    exact form_number hd cs
  rw [if_neg hb, if_neg hq, if_neg hd]
  split
  · exact .lineComment _
  · exact form_block _
  · rename_i hline hblock
    have hn : NoComment c cs := by
      intro hc hcs
      obtain ⟨tail, htail⟩ := List.head?_eq_some_iff.mp hcs
      obtain h | h := hc
      · exact hline tail h htail
      · exact hblock tail h htail
    cases hs : Symbol.ofChar? c with
    | none => exact .unknown (by simpa using hb) hq (by simpa using hd) hs
    | some s => exact form_symbol hs hn

theorem not_special_of_ofChar? {c : Char} {s : Symbol} (h : Symbol.ofChar? c = some s) :
    isBlank c = false ∧ c ≠ '"' ∧ c.isDigit = false := by
  unfold Symbol.ofChar? at h
  split at h
  all_goals first | decide | cases h

theorem not_special_of_isDigit {c : Char} (h : c.isDigit = true) :
    isBlank c = false ∧ c ≠ '"' := by
  have hne : ∀ d : Char, d.isDigit = false → c ≠ d := by
    rintro d hd rfl
    rw [h] at hd
    cases hd
  refine ⟨?_, hne _ (by decide)⟩
  simp only [isBlank, Bool.or_eq_false_iff, decide_eq_false_iff_not]
  exact ⟨⟨⟨hne _ (by decide), hne _ (by decide)⟩, hne _ (by decide)⟩, hne _ (by decide)⟩

theorem ofChars_eq_number {c : Char} (h : c.isDigit = true) (cs : List Char) :
    ofChars c cs = number c cs := by
  obtain ⟨hb, hq⟩ := not_special_of_isDigit h
  simp [ofChars, hb, hq, h]

theorem number_eq_plain {c : Char} {cs : List Char} (h : NoMarker c cs) :
    number c cs = plain c cs := by
  unfold number
  split
  · rename_i marker rest
    rw [h rfl marker rfl]
  · rfl

theorem ofChars_eq_dispatch {c : Char} {cs : List Char} (hb : isBlank c = false) (hq : c ≠ '"')
    (hd : c.isDigit = false) (hn : NoComment c cs) :
    ofChars c cs = match Symbol.ofChar? c with
      | some s => symbol s cs
      | none => ⟨[], .fault (.unknownCharacter c)⟩ := by
  unfold ofChars
  rw [if_neg (by simp [hb]), if_neg hq, if_neg (by simp [hd])]
  split
  · exact absurd rfl (hn (.inl rfl))
  · exact absurd rfl (hn (.inr rfl))
  · rfl

theorem symbol_eq {s : Symbol} {cs : List Char} (h : s.withEqual? = none ∨ cs.head? ≠ some '=') :
    symbol s cs = ⟨[], .token (.symbol s)⟩ := by
  unfold symbol
  split
  · rename_i t cs ht
    obtain h | h := h
    · rw [h] at ht
      cases ht
    · exact absurd rfl h
  · rfl

theorem Form.ofChars_eq {c : Char} {cs : List Char} {m : Munch} (h : Form c cs m) :
    ofChars c cs = m := by
  cases h with
  | blanks hc => simp [ofChars, hc]
  | lineComment cs => rfl
  | blockComment hb | openComment hb => simp [ofChars, isBlank, block, hb]
  | string hq | openString hq => simp [ofChars, isBlank, Munch.string, hq]
  | marked hr hd | missingDigits hr hd =>
      rw [ofChars_eq_number (by decide)]
      simp [number, hr, Munch.marked, hd]
  | plain hc hm =>
      rw [ofChars_eq_number hc, number_eq_plain hm]
      rfl
  | symbol hs hn he =>
      obtain ⟨hb, hq, hd⟩ := not_special_of_ofChar? hs
      rw [ofChars_eq_dispatch hb hq hd hn, hs]
      exact symbol_eq he
  | symbolEqual hs ht =>
      obtain ⟨hb, hq, hd⟩ := not_special_of_ofChar? hs
      rw [ofChars_eq_dispatch hb hq hd (by simp [NoComment]), hs]
      simp [Munch.symbol, ht]
  | unknown hb hq hd hs =>
      have hn : NoComment c cs := by
        rintro (rfl | rfl)
        · cases hs
        · cases hs
      rw [ofChars_eq_dispatch hb hq hd hn, hs]

theorem decoded_ne_trivia (f : NumberFormat) (v : Except Numeral.Error NumberValue) :
    decoded f v ≠ .trivia := by
  cases v <;> simp [decoded]

theorem outcome_decoded (f : NumberFormat) (v : Except Numeral.Error NumberValue) :
    (∃ kind, decoded f v = .token kind) ∨ ∃ e, decoded f v = .fault (.number e) := by
  cases v with
  | error e => exact .inr ⟨e, rfl⟩
  | ok value => exact .inl ⟨_, rfl⟩

theorem decoded_eq_token {f : NumberFormat} {v : Except Numeral.Error NumberValue}
    {kind : TokenKind} (h : decoded f v = .token kind) :
    ∃ value, v = .ok value ∧ kind = .number value f := by
  cases v with
  | error e => cases h
  | ok value =>
      cases h
      exact ⟨value, rfl, rfl⟩

theorem decoded_eq_fault {f : NumberFormat} {v : Except Numeral.Error NumberValue}
    {e : Numeral.Error} (h : decoded f v = .fault (.number e)) : v = .error e := by
  cases v with
  | error e' =>
      cases h
      rfl
  | ok value => cases h

theorem Form.more_isPrefix {c : Char} {cs : List Char} {m : Munch} (h : Form c cs m) :
    m.more <+: cs := by
  cases h with
  | blanks hc => exact List.takeWhile_prefix _
  | lineComment cs => exact (List.prefix_cons_inj '-').mpr (List.takeWhile_prefix _)
  | blockComment hb =>
      obtain ⟨inner, -, hp, -⟩ := blockComment?_sound hb
      exact (List.prefix_cons_inj '-').mpr hp
  | openComment hb | openString hq => exact List.prefix_rfl
  | string hq => exact (quotedBody?_sound hq).2
  | marked hr hd => exact Marked.chars_read_isPrefix _ _ _
  | missingDigits hr hd => exact (List.prefix_cons_inj _).mpr (List.takeWhile_prefix _)
  | plain hc hm =>
      have hp := Plain.chars_read_isPrefix (c :: cs)
      rw [Plain.chars_read_cons cs hc] at hp
      exact (List.prefix_cons_inj c).mp hp
  | symbol hs hn he | unknown hb hq hd hs => exact List.nil_prefix
  | symbolEqual hs ht => exact ⟨_, rfl⟩

theorem Form.kind_ne_eof {c : Char} {cs : List Char} {m : Munch} (h : Form c cs m) :
    m.outcome ≠ .token .eof := by
  intro hk
  cases h with
  | marked hr hd | plain hc hm =>
      obtain ⟨value, -, hv⟩ := decoded_eq_token hk
      cases hv
  | blanks hc | lineComment cs | blockComment hb | openComment hb | string hq | openString hq
  | missingDigits hr hd | symbol hs hn he | symbolEqual hs ht | unknown hb hq hd hs => cases hk

theorem more_append_drop (c : Char) (cs : List Char) :
    (ofChars c cs).more ++ cs.drop (ofChars c cs).more.length = cs :=
  List.prefix_iff_eq_append.mp (form_ofChars c cs).more_isPrefix

end ScriptScan.Munch
