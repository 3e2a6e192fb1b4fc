import ScriptScan.Proofs.Integers

namespace ScriptScan.Grammar

open Numeral Munch

def OpensComment (cs : List Char) : Prop := ['-', '-'] <+: cs ∨ ['{', '-'] <+: cs

def LacksDigits (cs : List Char) : Prop :=
  ∃ r m rest, cs = '0' :: m :: rest ∧ marker r m ∧ ∀ d ∈ rest.head?, ¬ radixDigit r d

/-- Where the grammar has a text, scanning finds a token or a number that it cannot decode, unless
a comment starts there or a radix marker lacks its digits. -/
theorem outcome_of_mem_token {c : Char} {cs v : List Char} (hv : v ∈ token) (hp : v <+: c :: cs)
    (hc : ¬ OpensComment (c :: cs)) (hd : ¬ LacksDigits (c :: cs)) {m : Munch} (h : m.Form c cs) :
    (∃ kind, m.outcome = .token kind) ∨ ∃ e, m.outcome = .fault (.number e) := by
  obtain ⟨v, rfl⟩ := exists_cons_of_mem_token hv hp
  -- The first character of `v` tells which forms are left.
  have hclass := mem_token_cons hv
  cases h with
  | blanks hb =>
      have hb' : c = ' ' ∨ c = '\t' ∨ c = '\r' ∨ c = '\n' := by
        simpa [isBlank, or_assoc] using hb
      obtain rfl | rfl | rfl | rfl := hb' <;>
        obtain ⟨⟨s, ⟨⟩⟩, -⟩ | ⟨⟨⟩, -⟩ | ⟨⟨⟩, -⟩ := hclass
  | lineComment cs => exact absurd (.inl ⟨cs, rfl⟩) hc
  | @blockComment cs body hb | @openComment cs hb => exact absurd (.inr ⟨cs, rfl⟩) hc
  | openString hq =>
      obtain ⟨⟨s, ⟨⟩⟩, -⟩ | ⟨⟨⟩, -⟩ | ⟨-, hv⟩ := hclass
      obtain ⟨body, hb, hw⟩ := mem_quoted.mp hv
      obtain ⟨t, ht⟩ := hp
      have hcs : body ++ '"' :: t = cs := by
        rw [← hw] at ht
        simpa using ht
      rw [← hcs, quotedBody?_append hb] at hq
      cases hq
  | @missingDigits m cs r hr hd' =>
      refine absurd ⟨r, m, cs, rfl, (marker_iff r m).mpr hr, ?_⟩ hd
      intro d hd hdigit
      obtain ⟨tail, rfl⟩ := List.head?_eq_some_iff.mp hd
      simp [Marked.read, (radixDigit_iff r d).mp hdigit] at hd'
  | unknown hb hq hd' hs =>
      obtain ⟨⟨s, hs'⟩, -⟩ | ⟨hdigit, -⟩ | ⟨rfl, -⟩ := hclass
      · rw [hs] at hs'
        cases hs'
      · rw [hd'] at hdigit
        cases hdigit
      · exact absurd rfl hq
  | string hq | symbol hs hn he | symbolEqual hs ht => exact .inl ⟨_, rfl⟩
  | marked hr hd' | plain hc' hm => exact outcome_decoded _ _

theorem Unrepresentable.form {w : List Char} (h : Unrepresentable w) :
    ∃ c cs e, w = c :: cs ∧ Form c cs ⟨cs, .fault (.number e)⟩ := by
  cases h with
  | plain hp hv =>
      obtain ⟨e, he⟩ := hp.value_error_iff.mpr hv
      obtain ⟨c, cs, hcs⟩ := hp.chars_eq_cons
      have hform := hp.form hcs
      rw [he] at hform
      exact ⟨c, cs, e, hcs, hform⟩
  | marked hr hd hv =>
      obtain ⟨e, he⟩ := (Marked.value_error_iff hd).mpr hv
      have hform := Marked.form hr hd
      rw [he] at hform
      exact ⟨'0', _, e, rfl, hform⟩

theorem not_unrepresentable_of_form {c : Char} {cs : List Char} {m : Munch} (h : m.Form c cs)
    {kind : TokenKind} (hk : m.outcome = .token kind) : ¬ Unrepresentable (c :: m.more) := by
  intro hu
  obtain ⟨_, _, e, ⟨⟩, hfault⟩ := hu.form
  have hinert : Text.Inert [] := by rintro _ ⟨⟩
  -- The text of a token is taken up as the same token when nothing follows it.
  have hagain := h.rescan hk hinert
  rw [List.append_nil] at hagain
  rw [← hagain.ofChars_eq, hfault.ofChars_eq] at hk
  cases hk

/-- A token's text is the longest one of the grammar at its place, and tells its kind. Where
scanning takes up a stretch and the grammar has a text there, the longest one becomes a token,
unless a comment starts there, a radix marker lacks its digits, or the text is a literal without
a value. -/
theorem scan_maximal_munch (source : String) :
    (∀ t ∈ (scan source).words, ∃ a w b, source.toList = a ++ w ++ b ∧
      t.span.start = Text.byteSize a ∧ t.span.stop = Text.byteSize (a ++ w) ∧
      IsLongest token w (w ++ b) ∧ Classifies w t.kind) ∧
    ∀ pre rest v, Starts source.toList pre rest → v ∈ token → v <+: rest →
      ¬ OpensComment rest → ¬ LacksDigits rest → ∃ w, IsLongest token w rest ∧
        (¬ Unrepresentable w → ∃ t ∈ (scan source).words, t.span.start = Text.byteSize pre ∧
          t.span.stop = Text.byteSize (pre ++ w) ∧ Classifies w t.kind) ∧
        (Unrepresentable w → ∃ d ∈ (scan source).diagnostics,
          d.code = some .undecodableNumber ∧ d.span.start = Text.byteSize pre ∧
          d.span.stop = Text.byteSize (pre ++ w)) := by
  constructor
  · intro t ht
    obtain ⟨pre, c, rest, hs, ht⟩ := mem_itemsFrom_iff.mp (mem_words_scan.mp ht)
    have hf := form_ofChars c rest
    have ho := Item.outcome_of_ofMunch?_token ht
    have hspan : t.span = _ := Item.span_ofMunch? ht
    have hsplit : c :: (ofChars c rest).more ++ rest.drop (ofChars c rest).more.length =
        c :: rest := by
      rw [List.cons_append, more_append_drop]
    refine ⟨pre, c :: (ofChars c rest).more, rest.drop (ofChars c rest).more.length, ?_, ?_, ?_, ?_,
      classifies_of_form hf ho⟩
    · rw [List.append_assoc, hsplit, hs.append_eq]
    · rw [hspan]
      exact span_start_advance _ pre c
    · rw [hspan]
      exact span_stop_advance _ pre c
    · rw [hsplit]
      exact isLongest_of_form hf (.inl ⟨_, ho⟩)
  · intro pre rest v hs hv hp hc hd
    cases rest with
    | nil => exact absurd (List.prefix_nil.mp hp) (ne_nil_of_mem_token hv)
    | cons c rest =>
        have hf := form_ofChars c rest
        have ho := outcome_of_mem_token hv hp hc hd hf
        refine ⟨_, isLongest_of_form hf ho, ?_⟩
        obtain ⟨kind, hk⟩ | ⟨e, he⟩ := ho
        · refine ⟨fun _ => ?_, fun hu => absurd hu (not_unrepresentable_of_form hf hk)⟩
          refine ⟨_, mem_words_scan.mpr (mem_itemsFrom_iff.mpr
            ⟨pre, c, rest, hs, Item.ofMunch?_token hk _ c⟩), ?_, ?_, classifies_of_form hf hk⟩
          · exact span_start_advance _ pre c
          · exact span_stop_advance _ pre c
        · refine ⟨fun hr => absurd (decodes_of_form hf he).unrepresentable hr, fun _ => ?_⟩
          refine ⟨_, mem_diagnostics_scan.mpr (mem_itemsFrom_iff.mpr
            ⟨pre, c, rest, hs, Item.ofMunch?_fault he _ c⟩), rfl, ?_, ?_⟩
          · exact span_start_advance _ pre c
          · exact span_stop_advance _ pre c

/-- A binary literal that the next digit cuts short is still a token. -/
theorem scan_maximal_munch_cut_literal :
    IsLongest token ['0', 'b', '1'] ['0', 'b', '1', '2'] ∧ ¬ Unrepresentable ['0', 'b', '1'] ∧
      ∃ t ∈ (scan "0b12").words, t.span.start = 0 ∧ t.span.stop = 3 ∧
        Classifies ['0', 'b', '1'] t.kind := by
  have hdigits : (Marked.read .binary 'b' ['1', '2']).digits ≠ [] := by decide
  have hlongest : IsLongest token ['0', 'b', '1'] ['0', 'b', '1', '2'] :=
    isLongest_marked rfl hdigits
  have hvalue : ¬ Unrepresentable ['0', 'b', '1'] := by
    intro hu
    obtain ⟨_, _, e, ⟨⟩, hform⟩ := hu.form
    have htoken : (ofChars '0' ['b', '1']).outcome =
        .token (.number (.float ⟨0x3FF * twoTo 52, by decide⟩) (.radix .binary)) := by
      decide +kernel
    rw [hform.ofChars_eq] at htoken
    cases htoken
  have hc : ¬ OpensComment ['0', 'b', '1', '2'] := by
    rintro (⟨t, ⟨⟩⟩ | ⟨t, ⟨⟩⟩)
  have hd : ¬ LacksDigits ['0', 'b', '1', '2'] := by
    rintro ⟨r, m, rest, ⟨⟩, hm, hdigit⟩
    cases r with
    | binary => exact hdigit '1' rfl (by simp [radixDigit])
    | octal | hexadecimal => simp [marker] at hm
  obtain ⟨w, hw, htoken, -⟩ :=
    (scan_maximal_munch "0b12").2 [] _ _ .first hlongest.1 hlongest.2.1 hc hd
  obtain rfl := hw.unique hlongest
  exact ⟨hlongest, hvalue, htoken hvalue⟩

end ScriptScan.Grammar
