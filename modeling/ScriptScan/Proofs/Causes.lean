import ScriptScan.Proofs.Range
import ScriptScan.Proofs.Tiling

namespace ScriptScan

namespace Grammar

open Numeral Munch

def number : Language Char :=
  decimal + (literal (.radix .binary) + literal (.radix .octal) + literal (.radix .hexadecimal))

def punctuation : List Char :=
  ['(', ')', '{', '}', ',', '.', ';', '!', '=', '<', '>', '+', '-', '*', '/']

def alphanumeric (c : Char) : Prop :=
  '0' ≤ c ∧ c ≤ '9' ∨ 'a' ≤ c ∧ c ≤ 'z' ∨ 'A' ≤ c ∧ c ≤ 'Z'

theorem alphanumeric_iff (c : Char) : alphanumeric c ↔ c.isAlphanum = true := by
  have halpha : c.isAlphanum = (decide (c.val ≥ 'A'.val ∧ c.val ≤ 'Z'.val) ||
      (decide (c.val ≥ 'a'.val) && decide (c.val ≤ 'z'.val)) || c.isDigit) := rfl
  simp only [alphanumeric, halpha, Char.isDigit, Char.le_def, Bool.or_eq_true, Bool.and_eq_true,
    decide_eq_true_eq, ge_iff_le, UInt32.le_iff_toNat_le, UInt32.reduceToNat, Char.reduceVal]
  tauto

theorem mem_number {w : List Char} : w ∈ number ↔ w ∈ decimal ∨ ∃ r, w ∈ literal (.radix r) := by
  simp only [number, Language.mem_add]
  constructor
  · rintro (h | (h | h) | h)
    · exact .inl h
    · exact .inr ⟨_, h⟩
    · exact .inr ⟨_, h⟩
    · exact .inr ⟨_, h⟩
  · rintro (h | ⟨r, h⟩)
    · exact .inl h
    · cases r with
      | binary => exact .inr (.inl (.inl h))
      | octal => exact .inr (.inl (.inr h))
      | hexadecimal => exact .inr (.inr h)

theorem Decodes.mem_number {w : List Char} {v : Except Numeral.Error NumberValue}
    (h : Decodes w v) : w ∈ number := by
  rw [Grammar.mem_number]
  cases h with
  | plain hp => exact .inl (mem_decimal.mpr ⟨_, hp, rfl⟩)
  | marked hr hd => exact .inr ⟨_, mem_literal_radix.mpr ⟨_, _, _, hr, hd, rfl⟩⟩

theorem IsLongest.number_of_token {w cs : List Char} (h : IsLongest token w cs)
    (hw : w ∈ number) : IsLongest number w cs := by
  refine ⟨hw, h.2.1, ?_⟩
  intro v hv hp
  exact h.2.2 v (mem_token.mpr (.inr (.inl (Grammar.mem_number.mp hv)))) hp

end Grammar

open Grammar

/-- Why a diagnostic with a code is reported of the text `w`, with the text `after` behind it. -/
inductive Cause (after : List Char) : Code → List Char → Prop
  | unknownCharacter {c : Char} (hs : c ∉ punctuation) (hb : c ∉ [' ', '\t', '\r', '\n'])
      (hq : c ≠ '"') (hd : ¬ digit c) : Cause after ⟨"E", 1001⟩ [c]
  /-- No closing quote: no beginning of the text is a string. -/
  | unterminatedString {body : List Char} (he : after = [])
      (hq : ∀ v ∈ quoted, ¬ v <+: '"' :: body) : Cause after ⟨"E", 1002⟩ ('"' :: body)
  | missingDigits {r : Radix} {m : Char} {run : List Char} (hm : marker r m)
      (hr : ∀ c ∈ run, alphanumeric c) (he : ∀ c ∈ after.head?, ¬ alphanumeric c)
      (hd : ∀ c ∈ run.head?, ¬ radixDigit r c) : Cause after ⟨"E", 1003⟩ ('0' :: m :: run)
  | unterminatedComment {body : List Char} (he : after = []) (hc : ¬ ['-', '}'] <:+: body) :
      Cause after ⟨"E", 1004⟩ ('{' :: '-' :: body)
  | undecodableNumber {w : List Char} (hw : IsLongest number w (w ++ after))
      (hv : Unrepresentable w) : Cause after ⟨"E", 1005⟩ w

namespace Munch

theorem no_closing_of_none {cs : List Char} (h : blockComment? cs = none) : ¬ closing <:+: cs := by
  induction cs with
  | nil => simp [closing]
  | cons c cs ih =>
      have hp : ¬ closing <+: c :: cs := by
        rintro ⟨t, ht⟩
        rw [← ht] at h
        cases h
      rw [blockComment?_cons hp, Option.map_eq_none_iff] at h
      rw [List.infix_cons_iff, not_or]
      exact ⟨hp, ih h⟩

theorem not_prefix_quoted {cs : List Char} (h : quotedBody? cs = none) {v : List Char}
    (hv : v ∈ quoted) : ¬ v <+: '"' :: cs := by
  rintro ⟨t, ht⟩
  obtain ⟨body, hb, rfl⟩ := mem_quoted.mp hv
  have hcs : body ++ '"' :: t = cs := by simpa using ht
  rw [← hcs, quotedBody?_append hb] at h
  cases h

theorem not_alphanumeric_head {cs : List Char} {c : Char}
    (hc : c ∈ (cs.drop (cs.takeWhile Char.isAlphanum).length).head?) : ¬ alphanumeric c := by
  have hrest : cs.drop (cs.takeWhile Char.isAlphanum).length = cs.dropWhile Char.isAlphanum := by
    nth_rewrite 2 [← List.takeWhile_append_dropWhile (p := Char.isAlphanum) (l := cs)]
    exact List.drop_left
  have hstop := List.head?_dropWhile_not Char.isAlphanum cs
  rw [hrest] at hc
  rw [hc] at hstop
  simpa [alphanumeric_iff] using hstop

theorem not_radixDigit_head {r : Radix} {m : Char} {cs : List Char}
    (h : (Numeral.Marked.read r m cs).digits = []) {c : Char}
    (hc : c ∈ (cs.takeWhile Char.isAlphanum).head?) : ¬ radixDigit r c := by
  intro hdigit
  obtain ⟨run, hrun⟩ := List.head?_eq_some_iff.mp hc
  obtain ⟨t, ht⟩ := List.takeWhile_prefix (l := cs) Char.isAlphanum
  rw [hrun, List.cons_append] at ht
  rw [radixDigit_iff] at hdigit
  simp [Numeral.Marked.read, ← ht, hdigit] at h

theorem unknown_cause (after : List Char) {c : Char} (hb : isBlank c = false) (hq : c ≠ '"')
    (hd : c.isDigit = false) (hs : Symbol.ofChar? c = none) : Cause after ⟨"E", 1001⟩ [c] := by
  refine .unknownCharacter ?_ ?_ hq ?_
  · intro hc
    have hall : punctuation.all (fun c => (Symbol.ofChar? c).isSome) = true := by decide
    have hsome := List.all_eq_true.mp hall c hc
    rw [hs] at hsome
    cases hsome
  · intro hc
    have hall : [' ', '\t', '\r', '\n'].all isBlank = true := by decide
    have hblank := List.all_eq_true.mp hall c hc
    rw [hb] at hblank
    cases hblank
  · rw [digit_iff, hd]
    exact Bool.false_ne_true

theorem eq_number_of_decoded {f : NumberFormat} {v : Except Numeral.Error NumberValue}
    {cause : Fault} (h : decoded f v = .fault cause) : ∃ e, cause = .number e := by
  cases v with
  | error e =>
      cases h
      exact ⟨e, rfl⟩
  | ok value => cases h

namespace Form

variable {c : Char} {cs : List Char} {m : Munch}

theorem number_cause (h : m.Form c cs) {e : Numeral.Error} (he : m.outcome = .fault (.number e)) :
    Cause (cs.drop m.more.length) ⟨"E", 1005⟩ (c :: m.more) := by
  have hsplit : c :: m.more ++ cs.drop m.more.length = c :: cs := by
    rw [List.cons_append, List.prefix_iff_eq_append.mp h.more_isPrefix]
  have hdecodes := decodes_of_form h he
  refine .undecodableNumber ?_ hdecodes.unrepresentable
  rw [hsplit]
  exact (isLongest_of_form h (.inr ⟨e, he⟩)).number_of_token hdecodes.mem_number

theorem cause (h : m.Form c cs) {f : Fault} (hf : m.outcome = .fault f) :
    Cause (cs.drop m.more.length) f.code (c :: m.more) := by
  cases h with
  | blanks hc | lineComment cs | blockComment hb | string hq | symbol hs hn he
  | symbolEqual hs ht => cases hf
  | openComment hb =>
      cases hf
      exact .unterminatedComment (by simp) (no_closing_of_none hb)
  | openString hq =>
      cases hf
      exact .unterminatedString (by simp) fun v hv => not_prefix_quoted hq hv
  | @missingDigits m cs r hr hd =>
      cases hf
      refine .missingDigits ((marker_iff r m).mpr hr) ?_ ?_ ?_
      · intro c hc
        exact (alphanumeric_iff c).mpr (List.mem_takeWhile_imp hc)
      · intro c hc
        exact not_alphanumeric_head hc
      · intro c hc
        exact not_radixDigit_head hd hc
  | unknown hb hq hd hs =>
      cases hf
      exact unknown_cause _ hb hq hd hs
  | marked hr hd =>
      obtain ⟨e, rfl⟩ := eq_number_of_decoded hf
      exact (Form.marked hr hd).number_cause hf
  | plain hc hm =>
      obtain ⟨e, rfl⟩ := eq_number_of_decoded hf
      exact (Form.plain hc hm).number_cause hf

end Form

end Munch

def Diagnostic.Unclosed (d : Diagnostic) : Prop :=
  d.code = some ⟨"E", 1002⟩ ∨ d.code = some ⟨"E", 1004⟩

def Explained (source : String) (d : Diagnostic) : Prop :=
  ∃ a w b code, source.toList = a ++ w ++ b ∧ d.span.start = Text.byteSize a ∧
    d.span.stop = Text.byteSize (a ++ w) ∧ d.code = some code ∧ Cause b code w

theorem explained_of_mem {source : String} {d : Diagnostic} (hd : d ∈ (scan source).diagnostics) :
    d.level = .error ∧ Explained source d := by
  obtain ⟨pre, c, rest, hs, hd⟩ := mem_itemsFrom_iff.mp (mem_diagnostics_scan.mp hd)
  have hf := Munch.form_ofChars c rest
  obtain ⟨kind, -, ⟨⟩⟩ | ⟨cause, ho, ⟨⟩⟩ := Item.ofMunch?_eq_some hd
  refine ⟨rfl, pre, c :: (Munch.ofChars c rest).more,
    rest.drop (Munch.ofChars c rest).more.length, cause.code, ?_, ?_, ?_, rfl, hf.cause ho⟩
  · rw [List.append_assoc, List.cons_append, Munch.more_append_drop, hs.append_eq]
  · exact Munch.span_start_advance _ pre c
  · exact Munch.span_stop_advance _ pre c

theorem Explained.stop_of_unclosed {source : String} {d : Diagnostic} (h : Explained source d)
    (hu : d.Unclosed) : d.span.stop = Text.byteSize source.toList := by
  obtain ⟨a, w, b, code, hsource, -, hstop, hcode, hcause⟩ := h
  have hb : b = [] := by
    unfold Diagnostic.Unclosed at hu
    rw [hcode] at hu
    cases hcause with
    | unterminatedString he hq => exact he
    | unterminatedComment he hc => exact he
    | unknownCharacter | missingDigits | undecodableNumber => simp at hu
  rw [hstop, hsource, hb, List.append_nil]

theorem stop_lt_of_before (source : String) :
    (itemsFrom .start source.toList).Pairwise fun i j =>
      i.span.stop ≤ j.span.start ∧ i.span.stop < Text.byteSize source.toList := by
  have htiles : Tiles 0 (itemsFrom .start source.toList) source.toList :=
    tiles_itemsFrom .start source.toList
  refine htiles.pairwise.imp_of_mem ?_
  intro i j _ hj hij
  obtain ⟨a, w, b, hsource, hw, hstart, -⟩ := htiles.placed j hj
  have hpos := Text.byteSize_pos hw
  refine ⟨hij.2, ?_⟩
  rw [hsource]
  simp only [Text.byteSize_append]
  omega

theorem stop_lt_of_later (source : String) :
    (scan source).diagnostics.Pairwise fun d _ => d.span.stop < Text.byteSize source.toList := by
  refine List.pairwise_filterMap.mpr ((stop_lt_of_before source).imp ?_)
  intro i j hij d hd _ _
  rw [Item.diagnostic?_eq_some hd] at hij
  exact hij.2

theorem unclosed_last {source : String} {earlier later : List Diagnostic} {d : Diagnostic}
    (hd : (scan source).diagnostics = earlier ++ d :: later) (hu : d.Unclosed) :
    later = [] ∧ ∀ e ∈ earlier, ¬ e.Unclosed := by
  have hstop : ∀ e ∈ (scan source).diagnostics, e.Unclosed →
      e.span.stop = Text.byteSize source.toList :=
    fun e he => (explained_of_mem he).2.stop_of_unclosed
  have hpairs := stop_lt_of_later source
  rw [hd] at hstop hpairs
  obtain ⟨-, hlater, hearlier⟩ := List.pairwise_append.mp hpairs
  constructor
  · cases later with
    | nil => rfl
    | cons e later =>
        have hlt := (List.pairwise_cons.mp hlater).1 e (by simp)
        exact absurd (hstop d (by simp) hu) hlt.ne
  · intro e he hu'
    have hlt := hearlier e he d (by simp)
    exact absurd (hstop e (by simp [he]) hu') hlt.ne

theorem words_before_unclosed {source : String} {d : Diagnostic}
    (hd : d ∈ (scan source).diagnostics) (hu : d.Unclosed) {t : Token}
    (ht : t ∈ (scan source).words) : t.span.stop ≤ d.span.start := by
  have hstop := (explained_of_mem hd).2.stop_of_unclosed hu
  obtain ⟨l, r, hitems⟩ := List.append_of_mem (mem_diagnostics_scan.mp hd)
  have hpairs := stop_lt_of_before source
  have ht := mem_words_scan.mp ht
  rw [hitems] at hpairs ht
  obtain ⟨-, hafter, hbefore⟩ := List.pairwise_append.mp hpairs
  obtain ht | ht := List.mem_append.mp ht
  · exact (hbefore _ ht (.fault d) (by simp)).1
  · obtain ⟨⟨⟩⟩ | ht := List.mem_cons.mp ht
    exact absurd hstop ((List.pairwise_cons.mp hafter).1 _ ht).2.ne

/-- Every diagnostic is an error with the cause that its code tells. A string or comment that is
left open is reported last, and nothing else is reported or found behind its start. -/
theorem scan_diagnostics_explained (source : String) :
    (∀ d ∈ (scan source).diagnostics, d.level = .error ∧
      ∃ a w b code, source.toList = a ++ w ++ b ∧ d.span.start = Text.byteSize a ∧
        d.span.stop = Text.byteSize (a ++ w) ∧ d.code = some code ∧ Cause b code w) ∧
    ∀ earlier d later, (scan source).diagnostics = earlier ++ d :: later → d.Unclosed →
      later = [] ∧ (∀ e ∈ earlier, ¬ e.Unclosed) ∧
        ∀ t ∈ (scan source).words, t.span.stop ≤ d.span.start := by
  constructor
  · intro d hd
    exact explained_of_mem hd
  · intro earlier d later hd hu
    obtain ⟨hlater, hearlier⟩ := unclosed_last hd hu
    have hmem : d ∈ (scan source).diagnostics := by
      rw [hd]
      exact List.mem_append_right earlier List.mem_cons_self
    exact ⟨hlater, hearlier, fun t ht => words_before_unclosed hmem hu ht⟩

/-- A string whose only other quote is escaped comes after all other mistakes. -/
theorem scan_diagnostics_explained_escaped_quote :
    ∃ earlier d, (scan "1e400 0b2 \"\\\"").diagnostics = earlier ++ [d] ∧ d.Unclosed ∧
      earlier.map Diagnostic.code = [some ⟨"E", 1005⟩, some ⟨"E", 1003⟩] ∧
      (∀ e ∈ earlier, ¬ e.Unclosed) ∧ Explained "1e400 0b2 \"\\\"" d := by
  have hscan : (scan "1e400 0b2 \"\\\"").diagnostics =
      [(Fault.number .outOfRange).diagnostic ⟨0, 5, 1, 1⟩,
        (Fault.missingDigits .binary 'b').diagnostic ⟨6, 9, 1, 7⟩] ++
      [Fault.unterminatedString.diagnostic ⟨10, 13, 1, 11⟩] := by
    decide +kernel
  obtain ⟨hcauses, hunclosed⟩ := scan_diagnostics_explained "1e400 0b2 \"\\\""
  refine ⟨_, _, hscan, .inl rfl, rfl, (hunclosed _ _ [] hscan (.inl rfl)).2.1, ?_⟩
  exact (hcauses _ (by rw [hscan]; simp)).2

end ScriptScan
