import ScriptScan.Proofs.Causes
import ScriptScan.Proofs.Inert
import ScriptScan.Proofs.LineTable
import ScriptScan.Proofs.Lookahead

namespace ScriptScan

open Text Numeral

theorem Text.Inert.append {t : List Char} (h : Inert t) (hne : t ≠ []) (u : List Char) :
    Inert (t ++ u) := by
  intro c hc
  apply h c
  rwa [head?_append_of_pos (List.length_pos_iff.mpr hne)] at hc

namespace Munch

theorem Form.append_of_inert {c : Char} {a t : List Char} {m : Munch} (h : m.Form c (a ++ t))
    (hle : m.more.length ≤ a.length) (ht : Inert t) (hne : t ≠ []) (u : List Char) :
    m.Form c (a ++ t ++ u) := by
  have hpos := List.length_pos_iff.mpr hne
  apply h.append_of_lt (by rw [List.length_append]; omega)
  intro _ _
  have hlonger : c :: (a ++ t) ++ u = c :: a ++ (t ++ u) := by simp
  rw [hlonger, Plain.read_append_inert (ht.append hne u), ← List.cons_append,
    Plain.read_append_inert ht]

theorem Form.of_unterminatedComment {c : Char} {cs : List Char} {m : Munch} (h : m.Form c cs)
    (ho : m.outcome = .fault .unterminatedComment) :
    ∃ body, c :: cs = '{' :: '-' :: body ∧ blockComment? body = none := by
  cases h with
  | openComment hb => exact ⟨_, rfl, hb⟩
  | marked hr hd | plain hc hn =>
      obtain ⟨e, he⟩ := eq_number_of_decoded ho
      cases he
  | blanks hc | lineComment cs | blockComment hb | string hq | openString hq | missingDigits hr hd
  | symbol hs hn he | symbolEqual hs ht | unknown hb hq hd hs => cases ho

theorem Form.of_unterminatedString {c : Char} {cs : List Char} {m : Munch} (h : m.Form c cs)
    (ho : m.outcome = .fault .unterminatedString) : c = '"' ∧ quotedBody? cs = none := by
  cases h with
  | openString hq => exact ⟨rfl, hq⟩
  | marked hr hd | plain hc hn =>
      obtain ⟨e, he⟩ := eq_number_of_decoded ho
      cases he
  | blanks hc | lineComment cs | blockComment hb | openComment hb | string hq | missingDigits hr hd
  | symbol hs hn he | symbolEqual hs ht | unknown hb hq hd hs => cases ho

theorem Escaped.append {a b : List Char} (ha : Escaped a) (hb : Escaped b) : Escaped (a ++ b) := by
  induction ha with
  | nil => exact hb
  | plain hq hs h ih => exact .plain hq hs ih
  | escape c h ih => exact .escape c ih

theorem Escaped.quotedBody?_eq_none {cs : List Char} (h : Escaped cs) : quotedBody? cs = none := by
  induction h with
  | nil => rfl
  | plain hq hb h ih => rw [quotedBody?_plain hq hb, ih, Option.map_none]
  | escape c h ih => rw [quotedBody?, ih, Option.map_none]

/-- A text without a closing quote consists of whole characters and escapes, but for a backslash
that may be left over at its end. -/
theorem escaped_or_of_none {cs : List Char} (h : quotedBody? cs = none) :
    Escaped cs ∨ ∃ w, Escaped w ∧ cs = w ++ ['\\'] := by
  fun_induction quotedBody? cs with
  | case1 => exact .inl .nil
  | case2 t => cases h
  | case3 c cs ih =>
      obtain hcs | ⟨w, hw, rfl⟩ := ih (Option.map_eq_none_iff.mp h)
      · exact .inl (.escape c hcs)
      · exact .inr ⟨_, .escape c hw, rfl⟩
  | case4 c cs hq hb ih =>
      -- A backslash gets here only as the last character, with nothing to escape.
      by_cases hc : c = '\\'
      · cases cs with
        | nil => exact .inr ⟨[], .nil, by rw [hc, List.nil_append]⟩
        | cons d cs => exact absurd rfl (hb d cs hc)
      · obtain hcs | ⟨w, hw, rfl⟩ := ih (Option.map_eq_none_iff.mp h)
        · exact .inl (.plain hq hc hcs)
        · exact .inr ⟨_, .plain hq hc hw, rfl⟩

end Munch

/-- Appending to a text changes nothing before a place where scanning takes up inert text. -/
theorem Starts.itemsFrom_append {cs pre rest t : List Char} (h : Starts cs pre rest)
    (hrest : t <:+ rest) (ht : Inert t) (hne : t ≠ []) (p : Location) :
    ∃ earlier, ∀ u, itemsFrom p (cs ++ u) = earlier ++ itemsFrom (p.advance pre) (rest ++ u) := by
  induction h with
  | first => exact ⟨[], fun u => rfl⟩
  | @next pre rest c h ih =>
      obtain ⟨earlier, he⟩ := ih ((hrest.trans (List.drop_suffix _ _)).trans (List.suffix_cons _ _))
      obtain ⟨r, hr⟩ := hrest
      -- The inert text lies behind this stretch too, so the stretch ends where it did.
      refine ⟨earlier ++ (Item.ofMunch? (Munch.ofChars c rest) (p.advance pre) c).toList, ?_⟩
      intro u
      have hsplit : (Munch.ofChars c rest).more ++ r ++ t = rest := by
        rw [List.append_assoc, hr, Munch.more_append_drop]
      have hform : (Munch.ofChars c rest).Form c (rest ++ u) := by
        have hf := Munch.form_ofChars c rest
        generalize Munch.ofChars c rest = m at hsplit hf
        rw [← hsplit] at hf ⊢
        exact hf.append_of_inert (by simp) ht hne u
      have hle := (Munch.form_ofChars c rest).more_isPrefix.length_le
      rw [he, List.cons_append, itemsFrom_cons, hform.ofChars_eq,
        List.drop_append_of_le_length hle, Munch.stop_eq_advance, ← Location.advance_append,
        List.append_assoc]

theorem exists_starts_of_mem {source : String} {d : Diagnostic}
    (hd : d ∈ (scan source).diagnostics) : ∃ pre c rest cause,
      Starts source.toList pre (c :: rest) ∧ (Munch.ofChars c rest).outcome = .fault cause ∧
      d = cause.diagnostic ((Munch.ofChars c rest).span (Location.start.advance pre) c) := by
  obtain ⟨pre, c, rest, hs, hi⟩ := mem_itemsFrom_iff.mp (mem_diagnostics_scan.mp hd)
  obtain ⟨kind, -, h⟩ | ⟨cause, ho, h⟩ := Item.ofMunch?_eq_some hi
  · cases h
  · exact ⟨pre, c, rest, cause, hs, ho, Item.fault.inj h⟩

theorem Fault.eq_unterminatedComment {f : Fault} (h : f.code = ⟨"E", 1004⟩) :
    f = .unterminatedComment := by
  cases f with
  | unterminatedComment => rfl
  | unknownCharacter c | unterminatedString | missingDigits r m | number e => cases h

theorem Fault.eq_unterminatedString {f : Fault} (h : f.code = ⟨"E", 1002⟩) :
    f = .unterminatedString := by
  cases f with
  | unterminatedString => rfl
  | unknownCharacter c | unterminatedComment | missingDigits r m | number e => cases h

def Span.extend (n : Nat) (s : Span) : Span := { s with stop := s.stop + n }

def Token.moveRight (n : Nat) (t : Token) : Token :=
  { t with span := ⟨t.span.start + n, t.span.stop + n, t.span.line, t.span.column + n⟩ }

theorem Munch.span_append (p : Location) (c : Char) (cs u : List Char) (o o' : Outcome) :
    Munch.span ⟨cs ++ u, o⟩ p c = (Munch.span ⟨cs, o'⟩ p c).extend (byteSize u) := by
  simp only [Munch.span, Munch.stop_eq_advance, Span.between, Span.extend, Location.offset_advance,
    byteSize, byteSize_append, Nat.add_assoc]

theorem atEnd_append (p : Location) (cs : List Char) {u : List Char} (hline : '\n' ∉ u)
    (hbytes : byteSize u = u.length) :
    Token.atEnd (p.advance (cs ++ u)) = (Token.atEnd (p.advance cs)).moveRight u.length := by
  have hcount : u.count '\n' = 0 := List.count_eq_zero.mpr hline
  simp only [Token.atEnd, Token.moveRight, Span.between, Location.advance_append,
    Location.offset_advance, Location.line_advance, Location.column_advance_of_not_mem _ hline,
    hcount, hbytes, Nat.add_zero]

theorem items_close_comment {source : String} {d : Diagnostic}
    (hd : d ∈ (scan source).diagnostics) (hcode : d.code = some ⟨"E", 1004⟩) :
    ∃ earlier : List Item, itemsFrom .start source.toList = earlier ++ [Item.fault d] ∧
      itemsFrom .start (source.toList ++ Munch.closing) = earlier := by
  obtain ⟨pre, c, rest, cause, hs, ho, rfl⟩ := exists_starts_of_mem hd
  obtain rfl := Fault.eq_unterminatedComment (Option.some.inj hcode)
  obtain ⟨body, ⟨⟩, hnone⟩ := (Munch.form_ofChars c rest).of_unterminatedComment ho
  have hopen := Munch.Form.openComment hnone
  have hclosed : Munch.Form '{' ('-' :: (body ++ Munch.closing))
      ⟨'-' :: (body ++ Munch.closing), .trivia⟩ := by
    have hfound := Munch.blockComment?_append (Munch.no_closing_of_none hnone) []
    rw [List.append_nil] at hfound
    exact .blockComment hfound
  have hinert : Inert ('{' :: '-' :: body) := by
    rintro _ ⟨⟩
    decide
  obtain ⟨earlier, he⟩ :=
    hs.itemsFrom_append List.suffix_rfl hinert (List.cons_ne_nil _ _) .start
  refine ⟨earlier, ?_, ?_⟩
  · have hopened := he []
    rw [List.append_nil, List.append_nil, itemsFrom_whole _ hopen] at hopened
    rw [hopened, hopen.ofChars_eq]
    rfl
  · rw [he, List.cons_append, List.cons_append, itemsFrom_whole _ hclosed]
    exact List.append_nil earlier

/-- The text ends in a backslash that no other one escapes. -/
def Dangling (r : List Char) : Prop := ∃ w ∈ Grammar.escaped, r = w ++ ['\\']

theorem items_close_string {source : String} {d : Diagnostic}
    (hd : d ∈ (scan source).diagnostics) (hcode : d.code = some ⟨"E", 1002⟩) :
    ∃ (pre r : List Char) (earlier : List Item), source.toList = pre ++ '"' :: r ∧
      d.span.start = byteSize pre ∧ itemsFrom .start source.toList = earlier ++ [Item.fault d] ∧
      (¬ Dangling r → itemsFrom .start (source.toList ++ ['"']) = earlier ++
        [Item.token ⟨.string (String.ofList r), String.ofList r, d.span.extend 1⟩]) ∧
      (Dangling r → itemsFrom .start (source.toList ++ ['"']) = earlier ++
        [Item.fault { d with span := d.span.extend 1 }]) := by
  obtain ⟨pre, c, r, cause, hs, ho, rfl⟩ := exists_starts_of_mem hd
  obtain rfl := Fault.eq_unterminatedString (Option.some.inj hcode)
  obtain ⟨rfl, hnone⟩ := (Munch.form_ofChars c r).of_unterminatedString ho
  have hopen := Munch.Form.openString hnone
  have hinert : Inert ('"' :: r) := by
    rintro _ ⟨⟩
    decide
  obtain ⟨earlier, he⟩ :=
    hs.itemsFrom_append List.suffix_rfl hinert (List.cons_ne_nil _ _) .start
  rw [hopen.ofChars_eq]
  refine ⟨pre, r, earlier, hs.append_eq.symm, Munch.span_start_advance _ pre '"', ?_, ?_, ?_⟩
  · have hopened := he []
    rw [List.append_nil, List.append_nil, itemsFrom_whole _ hopen] at hopened
    exact hopened
  · intro hr
    have hescaped : Munch.Escaped r := by
      obtain h | ⟨w, hw, rfl⟩ := Munch.escaped_or_of_none hnone
      · exact h
      · exact absurd ⟨w, Grammar.mem_escaped.mpr hw, rfl⟩ hr
    have hclosed := Munch.Form.string (Munch.quotedBody?_append hescaped [])
    rw [he, List.cons_append, itemsFrom_whole _ hclosed, Item.ofMunch?_token rfl,
      Munch.span_append]
    rfl
  · -- The backslash that is left over takes the new quote along.
    rintro ⟨w, hw, rfl⟩
    have hstill : Munch.quotedBody? (w ++ ['\\'] ++ ['"']) = none := by
      rw [List.append_assoc]
      exact ((Grammar.mem_escaped.mp hw).append (.escape '"' .nil)).quotedBody?_eq_none
    rw [he, List.cons_append, itemsFrom_whole _ (Munch.Form.openString hstill),
      Item.ofMunch?_fault rfl, Munch.span_append]
    rfl

section Items

variable {text : String} {items : List Item}

theorem scan_of_items (h : itemsFrom .start text.toList = items) :
    (scan text).words = items.filterMap Item.token? ∧
      (scan text).diagnostics = items.filterMap Item.diagnostic? := by
  rw [words_scan, scan, h]
  exact ⟨rfl, rfl⟩

theorem scan_of_fault_last {d : Diagnostic}
    (h : itemsFrom .start text.toList = items ++ [Item.fault d]) :
    (scan text).words = items.filterMap Item.token? ∧
      (scan text).diagnostics = items.filterMap Item.diagnostic? ++ [d] := by
  obtain ⟨hwords, hdiagnostics⟩ := scan_of_items h
  rw [List.filterMap_append] at hwords hdiagnostics
  exact ⟨hwords.trans (List.append_nil _), hdiagnostics⟩

theorem scan_of_token_last {t : Token}
    (h : itemsFrom .start text.toList = items ++ [Item.token t]) :
    (scan text).words = items.filterMap Item.token? ++ [t] ∧
      (scan text).diagnostics = items.filterMap Item.diagnostic? := by
  obtain ⟨hwords, hdiagnostics⟩ := scan_of_items h
  rw [List.filterMap_append] at hwords hdiagnostics
  exact ⟨hwords, hdiagnostics.trans (List.append_nil _)⟩

end Items

/-- The closing mark of a comment, put at the end of a text that lacks it, mends this mistake and
changes nothing else. So does the quote of a string, which becomes one more token; but if a
backslash stands before it, the string stays open and only grows. -/
theorem closing_mends_open_literal (source : String) (d : Diagnostic)
    (hd : d ∈ (scan source).diagnostics) :
    ∃ final : Token, final.kind = .eof ∧ (scan source).tokens = (scan source).words ++ [final] ∧
      (d.code = some ⟨"E", 1004⟩ →
        (scan source).diagnostics = (scan (source ++ "-\x7d")).diagnostics ++ [d] ∧
        (scan (source ++ "-\x7d")).tokens = (scan source).words ++ [final.moveRight 2]) ∧
      (d.code = some ⟨"E", 1002⟩ →
        ∃ a r : List Char, source.toList = a ++ '"' :: r ∧ d.span.start = byteSize a ∧
          d.span.stop = source.utf8ByteSize ∧
          (¬ Dangling r →
            (scan source).diagnostics = (scan (source ++ "\"")).diagnostics ++ [d] ∧
            (scan (source ++ "\"")).tokens = (scan source).words ++
              [⟨TokenKind.string (String.ofList r), String.ofList r, d.span.extend 1⟩,
                final.moveRight 1]) ∧
          (Dangling r →
            (∃ earlier : List Diagnostic, (scan source).diagnostics = earlier ++ [d] ∧
              (scan (source ++ "\"")).diagnostics =
                earlier ++ [{ d with span := d.span.extend 1 }]) ∧
            (scan (source ++ "\"")).tokens = (scan source).words ++ [final.moveRight 1])) := by
  refine ⟨_, rfl, tokens_scan source, ?_, ?_⟩
  · intro hcode
    obtain ⟨earlier, hopen, hclosed⟩ := items_close_comment hd hcode
    have hchars : (source ++ "-\x7d").toList = source.toList ++ Munch.closing :=
      String.toList_append
    rw [← hchars] at hclosed
    obtain ⟨hwords, hdiagnostics⟩ := scan_of_fault_last hopen
    obtain ⟨hwords', hdiagnostics'⟩ := scan_of_items hclosed
    constructor
    · rw [hdiagnostics, hdiagnostics']
    · rw [tokens_scan, hwords', hwords, hchars, atEnd_append .start _ (by decide) (by decide)]
      rfl
  · intro hcode
    obtain ⟨a, r, earlier, hsource, hstart, hopen, hclosed, hstill⟩ := items_close_string hd hcode
    have hchars : (source ++ "\"").toList = source.toList ++ ['"'] := String.toList_append
    have hstop : d.span.stop = source.utf8ByteSize := by
      rw [← byteSize_toList]
      exact (explained_of_mem hd).2.stop_of_unclosed (.inl hcode)
    rw [← hchars] at hclosed hstill
    obtain ⟨hwords, hdiagnostics⟩ := scan_of_fault_last hopen
    refine ⟨a, r, hsource, hstart, hstop, ?_, ?_⟩
    · intro hr
      obtain ⟨hwords', hdiagnostics'⟩ := scan_of_token_last (hclosed hr)
      constructor
      · rw [hdiagnostics, hdiagnostics']
      · rw [tokens_scan, hwords', hwords, hchars, atEnd_append .start _ (by decide) (by decide),
          List.append_assoc]
        rfl
    · intro hr
      obtain ⟨hwords', hdiagnostics'⟩ := scan_of_fault_last (hstill hr)
      refine ⟨⟨_, hdiagnostics, hdiagnostics'⟩, ?_⟩
      rw [tokens_scan, hwords', hwords, hchars, atEnd_append .start _ (by decide) (by decide)]
      rfl

theorem eq_of_quote_at_start {a r body : List Char} (h : '"' :: body = a ++ '"' :: r)
    (ha : 0 = byteSize a) : r = body := by
  cases a with
  | nil => exact (List.cons.inj h).2.symm
  | cons c a => exact absurd ha (byteSize_pos (List.cons_ne_nil c a)).ne

/-- A comment that ends in half of its closing mark, and strings that end in two backslashes and in
one. -/
theorem closing_mends_open_literal_at_the_edge :
    (scan "+\x7b- -").diagnostics = (scan ("+\x7b- -" ++ "-\x7d")).diagnostics ++
      [Fault.unterminatedComment.diagnostic ⟨1, 5, 1, 2⟩] ∧
    (¬ Dangling ['\\', '\\'] ∧
      (scan "\"\\\\").diagnostics = (scan ("\"\\\\" ++ "\"")).diagnostics ++
        [Fault.unterminatedString.diagnostic ⟨0, 3, 1, 1⟩]) ∧
    (Dangling ['\\'] ∧
      ∃ earlier, (scan "\"\\").diagnostics =
          earlier ++ [Fault.unterminatedString.diagnostic ⟨0, 2, 1, 1⟩] ∧
        (scan ("\"\\" ++ "\"")).diagnostics =
          earlier ++ [Fault.unterminatedString.diagnostic ⟨0, 3, 1, 1⟩]) := by
  have hpair : ¬ Dangling ['\\', '\\'] := by
    rintro ⟨w, hw, h⟩
    change ['\\'] ++ ['\\'] = w ++ ['\\'] at h
    obtain rfl := List.append_cancel_right h
    cases Grammar.mem_escaped.mp hw with
    | plain hq hb h => exact hb rfl
  have hsingle : Dangling ['\\'] := ⟨[], Grammar.mem_escaped.mpr .nil, rfl⟩
  refine ⟨?_, ⟨hpair, ?_⟩, hsingle, ?_⟩
  · obtain ⟨final, -, -, hcomment, -⟩ := closing_mends_open_literal "+\x7b- -"
      (Fault.unterminatedComment.diagnostic ⟨1, 5, 1, 2⟩) (by decide +kernel)
    exact (hcomment rfl).1
  · obtain ⟨final, -, -, -, hstring⟩ := closing_mends_open_literal "\"\\\\"
      (Fault.unterminatedString.diagnostic ⟨0, 3, 1, 1⟩) (by decide +kernel)
    obtain ⟨a, r, hsource, hstart, -, hclosed, -⟩ := hstring rfl
    rw [eq_of_quote_at_start hsource hstart] at hclosed
    exact (hclosed hpair).1
  · obtain ⟨final, -, -, -, hstring⟩ := closing_mends_open_literal "\"\\"
      (Fault.unterminatedString.diagnostic ⟨0, 2, 1, 1⟩) (by decide +kernel)
    obtain ⟨a, r, hsource, hstart, -, -, hstill⟩ := hstring rfl
    rw [eq_of_quote_at_start hsource hstart] at hstill
    exact (hstill hsingle).1

end ScriptScan
