import ScriptScan.Proofs.Bytes
import ScriptScan.Proofs.LineFeed

namespace ScriptScan

open Text Numeral

namespace Numeral

namespace Plain

theorem readFraction?_fractionChars {f : Option (List Char)}
    (hf : ∀ ds ∈ f, IsRun Char.isDigit ds) {t : List Char}
    (ht : ∀ c ∈ t.head?, c.isDigit = false ∧ c ≠ '.') :
    readFraction? (fractionChars f ++ t) = f := by
  have hstop : Stops Char.isDigit t := fun c hc => (ht c hc).1
  cases f with
  | some ds =>
      rw [fractionChars, readFraction?_append (hf ds rfl), hstop.takeWhile_eq_nil, List.append_nil]
  | none =>
      cases t with
      | nil => rfl
      | cons c t => exact readFraction?_cons_of_ne (ht c rfl).2 t

theorem readExponent?_exponentChars {e : Option Exponent} (he : ∀ x ∈ e, x.Proper)
    {t : List Char} (ht : ∀ c ∈ t.head?, c.isDigit = false ∧ isExponentMarker c = false) :
    readExponent? (exponentChars e ++ t) = e := by
  have hstop : Stops Char.isDigit t := fun c hc => (ht c hc).1
  cases e with
  | some e =>
      rw [exponentChars, readExponent?_append (he e rfl), hstop.takeWhile_eq_nil, List.append_nil]
  | none =>
      cases t with
      | nil => rfl
      | cons c t => exact readExponent?_cons_of_not (ht c rfl).2 t

theorem Proper.read_chars {p : Plain} (hp : p.Proper) : read p.chars = p := by
  obtain ⟨whole, fraction, exponent, suffixed⟩ := p
  obtain ⟨hwhole, hfraction, hexponent⟩ := hp
  dsimp only at hwhole hfraction hexponent
  have hsuffix : ∀ c ∈ (suffixChars suffixed).head?,
      c.isDigit = false ∧ isExponentMarker c = false := by
    cases suffixed <;> simp [suffixChars, isExponentMarker]
  have hending := head_ending hexponent suffixed
  have hstop : Stops Char.isDigit
      (fractionChars fraction ++ (exponentChars exponent ++ suffixChars suffixed)) := by
    cases fraction with
    | none => exact fun c hc => (hending c hc).1
    | some ds => simp [Stops, fractionChars]
  simp only [read, chars, body, List.append_assoc]
  rw [List.takeWhile_append_of_pos hwhole.2, List.dropWhile_append_of_pos hwhole.2,
    hstop.takeWhile_eq_nil, hstop.dropWhile_eq_self, List.append_nil,
    readFraction?_fractionChars hfraction hending, List.drop_left,
    readExponent?_exponentChars hexponent hsuffix, List.drop_left]
  cases suffixed <;> rfl

end Plain

theorem Marked.read_digits {r : Radix} {ds : List Char}
    (hds : ∀ c ∈ ds, Digits.isOf r.base c = true) (marker : Char) (suffixed : Bool) :
    read r marker (ds ++ suffixChars suffixed) = ⟨r, marker, ds, suffixed⟩ := by
  have hstop : Stops (Digits.isOf r.base) (suffixChars suffixed) := by
    cases suffixed with
    | false => simp [Stops, suffixChars]
    | true => simp [Stops, suffixChars, isOf_base_n r]
  simp only [read]
  rw [List.takeWhile_append_of_pos hds, List.dropWhile_append_of_pos hds, hstop.takeWhile_eq_nil,
    hstop.dropWhile_eq_self, List.append_nil]
  cases suffixed <;> rfl

end Numeral

namespace Munch

/-- A token's own text, with inert text after it, is scanned as the same token. -/
theorem Form.rescan {c : Char} {cs t : List Char} {m : Munch} (h : m.Form c cs)
    {kind : TokenKind} (hk : m.outcome = .token kind) (ht : Inert t) : m.Form c (m.more ++ t) := by
  have hprefix := h.more_isPrefix
  cases h with
  | blanks hc | lineComment cs | blockComment hb | openComment hb | openString hq
  | missingDigits hr hd | unknown hb hq hd hs => cases hk
  | string hq =>
      apply Form.string
      rw [List.append_assoc]
      exact quotedBody?_append (quotedBody?_sound hq).1 t
  | @marked marker cs r hr hd =>
      have hread : Marked.read r marker ((Marked.read r marker cs).digits ++
          suffixChars (Marked.read r marker cs).suffixed ++ t) = Marked.read r marker cs := by
        rw [Marked.read_append_inert ht]
        apply Marked.read_digits
        intro d hd
        exact List.mem_takeWhile_imp hd
      have hform := Form.marked hr (hread ▸ hd)
      rw [hread] at hform
      exact hform
  | plain hc hn =>
      have hread : Plain.read (c :: ((Plain.read (c :: cs)).chars.tail ++ t)) =
          Plain.read (c :: cs) := by
        rw [← List.cons_append, ← Plain.chars_read_cons cs hc, Plain.read_append_inert ht]
        exact (Plain.proper_read cs hc).read_chars
      -- The character after a zero is the one that stood there before, or the first of `t`.
      have hmarker : NoMarker c ((Plain.read (c :: cs)).chars.tail ++ t) := by
        apply NoMarker.append_inert _ ht
        intro h0 marker hm
        apply hn h0 marker
        obtain ⟨rest, hrest⟩ := hprefix
        obtain ⟨tail, htail⟩ := List.head?_eq_some_iff.mp hm
        rw [← hrest]
        dsimp only
        rw [htail]
        rfl
      have hform := Form.plain hc hmarker
      rw [hread] at hform
      exact hform
  | symbol hs hn he =>
      have hminus : t.head? ≠ some '-' := fun hm => (ht '-' hm).2.2.1 rfl
      have hequal : t.head? ≠ some '=' := fun he => (ht '=' he).2.2.2 rfl
      exact .symbol hs (fun _ => hminus) (.inr hequal)
  | symbolEqual hs he => exact .symbolEqual hs he

end Munch

structure Produced where
  source : String
  token : Token
  mem : token ∈ (scan source).words

namespace Produced

def text (x : Produced) : List Char :=
  (slice? x.source.toList x.token.span.start x.token.span.stop).getD []

theorem exists_form (x : Produced) : ∃ c cs, ∃ m : Munch, m.Form c cs ∧
    m.outcome = .token x.token.kind ∧ x.token.lexeme = m.lexeme c x.token.kind ∧
    slice? x.source.toList x.token.span.start x.token.span.stop = some (c :: m.more) := by
  obtain ⟨pre, c, rest, hs, ht⟩ := mem_itemsFrom_iff.mp (mem_words_scan.mp x.mem)
  have hspan : x.token.span = _ := Item.span_ofMunch? ht
  have hsource : x.source.toList = pre ++ (c :: (Munch.ofChars c rest).more) ++
      rest.drop (Munch.ofChars c rest).more.length := by
    rw [List.append_assoc, List.cons_append, Munch.more_append_drop, hs.append_eq]
  refine ⟨c, rest, _, Munch.form_ofChars c rest, Item.outcome_of_ofMunch?_token ht, ?_, ?_⟩
  · obtain ⟨kind, -, h⟩ | ⟨cause, -, h⟩ := Item.ofMunch?_eq_some ht
    · rw [Item.token.inj h]
    · cases h
  · rw [hspan, Munch.span_start_advance, Munch.span_stop_advance, hsource, slice?_append]

theorem slice?_text (x : Produced) :
    slice? x.source.toList x.token.span.start x.token.span.stop = some x.text := by
  obtain ⟨c, cs, m, -, -, -, hslice⟩ := x.exists_form
  rw [text, hslice]
  rfl

theorem itemsFrom_text (x : Produced) (p : Location) {t : List Char} (ht : Inert t) :
    ∃ u : Token, itemsFrom p (x.text ++ t) = .token u :: itemsFrom (p.advance x.text) t ∧
      u.kind = x.token.kind ∧ u.lexeme = x.token.lexeme := by
  obtain ⟨c, cs, m, hf, hk, hlexeme, hslice⟩ := x.exists_form
  have htext : x.text = c :: m.more := Option.some.inj (x.slice?_text.symm.trans hslice)
  have hagain := (hf.rescan hk ht).ofChars_eq
  refine ⟨⟨x.token.kind, m.lexeme c x.token.kind, m.span p c⟩, ?_, rfl, hlexeme.symm⟩
  rw [htext, List.cons_append, itemsFrom_cons, hagain, Item.ofMunch?_token hk, List.drop_left]
  rfl

end Produced

inductive Gap : List Char → Prop
  | nil : Gap []
  | blank {c : Char} {cs : List Char} (hc : c ∈ [' ', '\t', '\r', '\n']) (h : Gap cs) :
      Gap (c :: cs)
  | comment {w cs : List Char} (hw : ¬ ['-', '}'] <:+: w) (h : Gap cs) :
      Gap ('{' :: '-' :: (w ++ ['-', '}'] ++ cs))

theorem Gap.inert_append {gap : List Char} (h : Gap gap) (hne : gap ≠ []) (t : List Char) :
    Inert (gap ++ t) := by
  cases h with
  | nil => exact absurd rfl hne
  | @blank c cs hc h =>
      rintro _ ⟨⟩
      simp only [List.mem_cons, List.not_mem_nil, or_false] at hc
      obtain rfl | rfl | rfl | rfl := hc <;> decide
  | comment hw h =>
      rintro _ ⟨⟩
      decide

theorem Gap.itemsFrom_append {gap : List Char} (h : Gap gap) (p : Location) (t : List Char) :
    itemsFrom p (gap ++ t) = itemsFrom (p.advance gap) t := by
  induction h generalizing p with
  | nil => rfl
  | @blank c cs hc h ih =>
      have hblank : Munch.isBlank c = true := by simpa [Munch.isBlank, or_assoc] using hc
      rw [List.cons_append, itemsFrom_blank p hblank, ih]
      rfl
  | @comment w cs hw h ih =>
      have hm := (Munch.Form.blockComment (Munch.blockComment?_append hw (cs ++ t))).ofChars_eq
      have hcs : '{' :: '-' :: (w ++ ['-', '}'] ++ cs) ++ t =
          '{' :: '-' :: (w ++ Munch.closing ++ (cs ++ t)) := by
        simp [Munch.closing]
      rw [hcs, itemsFrom_cons, hm, List.length_cons, List.drop_succ_cons, List.drop_left,
        Munch.stop_eq_advance, Item.ofMunch?, Option.toList_none, List.nil_append, ih,
        ← Location.advance_append]
      rfl

/-- The words stand in the text in this order, with a gap between any two neighbours. -/
inductive Joined : List (List Char) → List Char → Prop
  | nil : Joined [] []
  | single (w : List Char) : Joined [w] w
  | cons (w : List Char) {v gap cs : List Char} {ws : List (List Char)} (hgap : Gap gap)
      (hne : gap ≠ []) (h : Joined (v :: ws) cs) : Joined (w :: v :: ws) (w ++ gap ++ cs)

def Token.content (t : Token) : TokenKind × String := (t.kind, t.lexeme)

theorem Joined.itemsFrom_eq {xs : List Produced} {cs : List Char}
    (h : Joined (xs.map Produced.text) cs) (p : Location) :
    ∃ ts : List Token, itemsFrom p cs = ts.map Item.token ∧
      ts.map Token.content = xs.map fun x => x.token.content := by
  -- The induction takes off a token together with the gap behind it.
  induction xs generalizing cs p with
  | nil =>
      cases h
      exact ⟨[], itemsFrom_nil p, rfl⟩
  | cons x xs ih =>
      cases xs with
      | nil =>
          cases h
          have hinert : Inert [] := by rintro _ ⟨⟩
          obtain ⟨u, hu, hkind, hlexeme⟩ := x.itemsFrom_text p hinert
          rw [List.append_nil, itemsFrom_nil] at hu
          exact ⟨[u], hu, by simp [Token.content, hkind, hlexeme]⟩
      | cons y ys =>
          simp only [List.map_cons] at h
          cases h with
          | @cons _ _ gap cs _ hgap hne h =>
              obtain ⟨u, hu, hkind, hlexeme⟩ := x.itemsFrom_text p (hgap.inert_append hne cs)
              obtain ⟨ts, hts, hcontent⟩ := ih h ((p.advance x.text).advance gap)
              refine ⟨u :: ts, ?_, ?_⟩
              · rw [List.append_assoc, hu, hgap.itemsFrom_append, hts, List.map_cons]
              · rw [List.map_cons, hcontent, Token.content, hkind, hlexeme]
                rfl

/-- Tokens of any texts, printed one after the other with blanks and comments between them, are
scanned as the same tokens, without a diagnostic. -/
theorem scan_joined_tokens (xs : List Produced) (text : String)
    (h : Joined (xs.map Produced.text) text.toList) :
    (scan text).diagnostics = [] ∧
      (scan text).words.map Token.content = xs.map (fun x => x.token.content) ∧
      ∃ final, (scan text).tokens = (scan text).words ++ [final] ∧ final.kind = .eof := by
  obtain ⟨ts, hts, hcontent⟩ := h.itemsFrom_eq .start
  have htokens : (ts.map Item.token).filterMap Item.token? = ts := by
    rw [List.filterMap_map]
    exact List.filterMap_some
  have hfaults : (ts.map Item.token).filterMap Item.diagnostic? = [] := by
    rw [List.filterMap_map, List.filterMap_eq_nil_iff]
    intro t _
    rfl
  refine ⟨?_, ?_, _, tokens_scan text, rfl⟩
  · rw [← hfaults, ← hts]
    rfl
  · rw [words_scan, hts, htokens, hcontent]

/-- A minus sign and a brace right before comments, and a number that its text cut short. -/
theorem scan_joined_tokens_before_comments :
    ∃ xs : List Produced, xs.map (fun x => x.token.lexeme) = ["-", "\x7b", "1"] ∧
      Joined (xs.map Produced.text) "-\x7b-\x7d-\x7d\x7b \x7b--\x7d1".toList ∧
      (scan "-\x7b-\x7d-\x7d\x7b \x7b--\x7d1").diagnostics = [] ∧
      (scan "-\x7b-\x7d-\x7d\x7b \x7b--\x7d1").words.map Token.content =
        xs.map fun x => x.token.content := by
  let minus : Produced := ⟨"-1", ⟨.symbol .minus, "-", ⟨0, 1, 1, 1⟩⟩, by decide +kernel⟩
  let brace : Produced := ⟨"\x7b", ⟨.symbol .leftBrace, "\x7b", ⟨0, 1, 1, 1⟩⟩, by decide +kernel⟩
  let one : Produced := ⟨"1e-", ⟨.number (.float ⟨0x3FF * twoTo 52, by decide⟩) .decimal, "1",
    ⟨0, 1, 1, 1⟩⟩, by decide +kernel⟩
  have htexts : [minus, brace, one].map Produced.text = [['-'], ['{'], ['1']] := by decide +kernel
  have hjoined : Joined ([minus, brace, one].map Produced.text)
      "-\x7b-\x7d-\x7d\x7b \x7b--\x7d1".toList := by
    rw [htexts]
    have hlast : Joined [['{'], ['1']] ['{', ' ', '{', '-', '-', '}', '1'] :=
      .cons ['{'] (.blank (by simp) (.comment (w := []) (by simp) .nil)) (by simp) (.single ['1'])
    have hall := Joined.cons ['-'] (.comment (w := ['}']) (by decide) .nil) (by simp) hlast
    exact hall
  obtain ⟨hdiagnostics, hwords, -⟩ := scan_joined_tokens _ _ hjoined
  exact ⟨_, rfl, hjoined, hdiagnostics, hwords⟩

end ScriptScan
