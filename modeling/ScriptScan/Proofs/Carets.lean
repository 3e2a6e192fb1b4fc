import ScriptScan.Proofs.Items
import ScriptScan.Proofs.Lines
import ScriptScan.Proofs.Rows

namespace ScriptScan

open Text SourceFile

theorem isLineEnd_eq_false_iff {c : Char} : isLineEnd c = false ↔ c ≠ '\n' ∧ c ≠ '\r' := by
  simp [isLineEnd]

theorem rdropWhile_append_of_ne_nil {α : Type} {p : α → Bool} {a b : List α}
    (h : b.rdropWhile p ≠ []) : (a ++ b).rdropWhile p = a ++ b.rdropWhile p := by
  have hne : (b.reverse.dropWhile p).isEmpty = false := by
    simpa [List.rdropWhile] using h
  rw [List.rdropWhile, List.reverse_append, List.dropWhile_append, hne]
  simp [List.rdropWhile]

theorem rdropWhile_eq_self {α : Type} {p : α → Bool} {a : List α} (h : ∀ x ∈ a, p x = false) :
    a.rdropWhile p = a := by
  rw [List.rdropWhile_eq_self_iff]
  intro hne
  rw [h _ (List.getLast_mem hne)]
  exact Bool.false_ne_true

theorem prefix_rdropWhile_append {α : Type} {p : α → Bool} {a : List α}
    (h : ∀ x ∈ a, p x = false) (b : List α) : a <+: (a ++ b).rdropWhile p := by
  induction b using List.reverseRecOn with
  | nil =>
      refine ⟨[], ?_⟩
      rw [List.append_nil, rdropWhile_eq_self h]
  | append_singleton b x ih =>
      rw [← List.append_assoc, List.rdropWhile_concat]
      split
      · exact ih
      · exact ⟨b ++ [x], (List.append_assoc _ _ _).symm⟩

namespace Span

/-- How many characters of a text that starts at byte `offset` lie in the span. -/
def covered (s : Span) (offset : Nat) : List Char → Nat
  | [] => 0
  | c :: cs =>
      (if s.start ≤ offset ∧ offset < s.stop then 1 else 0) + s.covered (offset + c.utf8Size) cs

theorem covered_append (s : Span) (offset : Nat) (a b : List Char) :
    s.covered offset (a ++ b) = s.covered offset a + s.covered (offset + byteSize a) b := by
  induction a generalizing offset with
  | nil => exact (Nat.zero_add _).symm
  | cons c a ih =>
      rw [List.cons_append, covered, covered, ih, byteSize, Nat.add_assoc, Nat.add_assoc]

theorem covered_of_before {s : Span} {offset : Nat} {cs : List Char}
    (h : offset + byteSize cs ≤ s.start) : s.covered offset cs = 0 := by
  induction cs generalizing offset with
  | nil => rfl
  | cons c cs ih =>
      have hc := c.utf8Size_pos
      rw [byteSize] at h
      rw [covered, if_neg (by omega), ih (by omega)]

theorem covered_of_inside {s : Span} {offset : Nat} {cs : List Char} (hstart : s.start ≤ offset)
    (hstop : offset + byteSize cs ≤ s.stop) : s.covered offset cs = cs.length := by
  induction cs generalizing offset with
  | nil => rfl
  | cons c cs ih =>
      have hc := c.utf8Size_pos
      rw [byteSize] at hstop
      rw [covered, if_pos (by omega), ih (by omega) (by omega), List.length_cons, Nat.add_comm]

theorem covered_of_after {s : Span} {offset : Nat} {cs : List Char} (h : s.stop ≤ offset) :
    s.covered offset cs = 0 := by
  induction cs generalizing offset with
  | nil => rfl
  | cons c cs ih => rw [covered, if_neg (by omega), ih (by omega)]

end Span

/-- What a report shows of a line from the start of a span on, given the text `w` of the span and
the text after it. -/
def shownFrom (w after : List Char) : List Char :=
  ((w ++ after).takeWhile (· ≠ '\n')).rdropWhile (· = '\r')

theorem shownFrom_isPrefix (w after : List Char) : shownFrom w after <+: w ++ after :=
  (List.rdropWhile_prefix _ _).trans (List.takeWhile_prefix _)

theorem length_shownFrom_le {w : List Char} (h : '\n' ∈ w) (after : List Char) :
    (shownFrom w after).length ≤ w.length := by
  obtain ⟨a, b, rfl, ha⟩ := List.eq_append_cons_of_mem h
  have hline : (a ++ '\n' :: b ++ after).takeWhile (· ≠ '\n') = a := by
    rw [List.append_assoc, List.takeWhile_append_of_pos]
    · simp
    · intro c hc
      exact decide_eq_true (ne_of_mem_of_not_mem hc ha)
  have hle : (shownFrom (a ++ '\n' :: b) after).length ≤ a.length := by
    rw [shownFrom, hline]
    exact (List.rdropWhile_prefix _ a).length_le
  rw [List.length_append]
  omega

theorem shownFrom_nil {w : List Char} (h : '\n' ∉ w) :
    shownFrom w [] = w.rdropWhile (· = '\r') := by
  have hline : w.takeWhile (· ≠ '\n') = w := by
    rw [List.takeWhile_eq_self_iff]
    intro c hc
    exact decide_eq_true (ne_of_mem_of_not_mem hc h)
  rw [shownFrom, List.append_nil, hline]

theorem prefix_shownFrom {w : List Char} (h : ∀ c ∈ w, isLineEnd c = false) (after : List Char) :
    w <+: shownFrom w after := by
  have hne : ∀ c ∈ w, c ≠ '\n' ∧ c ≠ '\r' := fun c hc => isLineEnd_eq_false_iff.mp (h c hc)
  rw [shownFrom, List.takeWhile_append_of_pos]
  · refine prefix_rdropWhile_append ?_ _
    intro c hc
    exact decide_eq_false (hne c hc).2
  · intro c hc
    exact decide_eq_true (hne c hc).1

/-- How many carriage returns at the end of a span with the text `w` are underlined though they
are not shown. -/
def hiddenReturns (w : List Char) : Nat :=
  if '\n' ∈ w then 0 else (w.rtakeWhile (· = '\r')).length

/-- A span that has no line end in it, or reaches to the end of the text, has a caret for each
character that it covers and that is shown, and one for each return that is not. -/
theorem underlined_eq {w after : List Char} (h : (∀ c ∈ w, isLineEnd c = false) ∨ after = []) :
    (if '\n' ∈ w then (shownFrom w after).length else w.length) =
      min w.length (shownFrom w after).length + hiddenReturns w := by
  unfold hiddenReturns
  by_cases hw : '\n' ∈ w
  · have hle := length_shownFrom_le hw after
    rw [if_pos hw, if_pos hw, Nat.min_eq_right hle, Nat.add_zero]
  · rw [if_neg hw, if_neg hw]
    have hsplit := congrArg List.length
      (List.rdropWhile_append_rtakeWhile (p := (· = '\r')) (l := w))
    rw [List.length_append] at hsplit
    obtain h | rfl := h
    · have hle := (prefix_shownFrom h after).length_le
      have hreturn : ∀ c ∈ w, decide (c = '\r') = false := by
        intro c hc
        exact decide_eq_false (isLineEnd_eq_false_iff.mp (h c hc)).2
      rw [rdropWhile_eq_self hreturn] at hsplit
      rw [Nat.min_eq_left hle]
      omega
    · rw [shownFrom_nil hw, Nat.min_eq_right (by omega)]
      omega

theorem underlined_le_iff {w after : List Char} (h : (∀ c ∈ w, isLineEnd c = false) ∨ after = []) :
    min w.length (shownFrom w after).length + hiddenReturns w ≤ (shownFrom w after).length ↔
      hiddenReturns w = 0 := by
  have hunderlined := underlined_eq h
  by_cases hw : '\n' ∈ w
  · have hnone : hiddenReturns w = 0 := if_pos hw
    omega
  · rw [if_neg hw] at hunderlined
    omega

theorem Excerpt.indent_eq {e : Excerpt} (h : e.startColumn ≤ e.line.length + 1) :
    e.indent = (e.line.take (e.startColumn - 1)).map fun c => if c = '\t' then '\t' else ' ' := by
  have hlength : (e.line.take (e.startColumn - 1)).length = e.startColumn - 1 := by
    rw [List.length_take]
    omega
  rw [indent, hlength, Nat.sub_self, List.replicate_zero, List.append_nil]

def excerptOf (s : Span) (last w after : List Char) : Excerpt :=
  ⟨last ++ shownFrom w after, s.line, s.column,
    s.column + if '\n' ∈ w then (shownFrom w after).length else w.length⟩

namespace SourceFile

/-- A span stands after whole lines and a beginning `last` of one more. Its text `w` begins with a
character of this line that is shown. -/
structure Holds (f : SourceFile) (s : Span) (whole last w after : List Char) : Prop where
  chars : f.chars = whole ++ last ++ (w ++ after)
  endsLine : EndsLine whole
  sameLine : '\n' ∉ last
  head : ∃ c ∈ w.head?, isLineEnd c = false
  span : s = Span.between (Location.start.advance (whole ++ last))
    (Location.start.advance (whole ++ last ++ w))

namespace Holds

variable {f : SourceFile} {s : Span} {whole last w after : List Char}
  (h : f.Holds s whole last w after)

include h

theorem start_eq : s.start = byteSize (whole ++ last) := by
  rw [h.span]
  exact Location.offset_start_advance _

theorem stop_eq : s.stop = byteSize (whole ++ last ++ w) := by
  rw [h.span]
  exact Location.offset_start_advance _

theorem line_eq : s.line = whole.count '\n' + 1 := by
  have hline := Location.line_advance .start (whole ++ last)
  rw [List.count_append, List.count_eq_zero_of_not_mem h.sameLine, Nat.add_zero,
    Nat.add_comm] at hline
  rw [h.span]
  exact hline

theorem column_eq : s.column = last.length + 1 := by
  have hcolumn := Location.column_advance_of_not_mem (Location.start.advance whole) h.sameLine
  rw [h.endsLine.column_advance, ← Location.advance_append, Nat.add_comm] at hcolumn
  rw [h.span]
  exact hcolumn

theorem slice?_eq : slice? f.chars s.start s.stop = some w := by
  rw [h.start_eq, h.stop_eq, h.chars, ← List.append_assoc]
  exact slice?_append _ _ _

theorem lineStart?_eq : f.lineStart? (s.line - 1) = some (byteSize whole) := by
  rw [h.line_eq, Nat.add_sub_cancel]
  exact lineStart?_eq_of_endsLine (h.chars.trans (List.append_assoc _ _ _)) h.endsLine

theorem shownFrom_ne_nil : shownFrom w after ≠ [] := by
  obtain ⟨c, hc, hend⟩ := h.head
  obtain ⟨more, rfl⟩ := List.head?_eq_some_iff.mp hc
  have hne := isLineEnd_eq_false_iff.mp hend
  intro hnil
  rw [shownFrom, List.rdropWhile_eq_nil_iff] at hnil
  have hreturn := hnil c (by simp [hne.1])
  exact hne.2 (by simpa using hreturn)

theorem line?_eq : f.line? s.line = some (last ++ shownFrom w after) := by
  have hpiece : '\n' ∉ last ++ (w ++ after).takeWhile (· ≠ '\n') := by
    intro hmem
    obtain hmem | hmem := List.mem_append.mp hmem
    · exact h.sameLine hmem
    · simpa using List.mem_takeWhile_imp hmem
  have hrest : (w ++ after).dropWhile (· ≠ '\n') = [] ∨
      ∃ more, (w ++ after).dropWhile (· ≠ '\n') = '\n' :: more := by
    have hstop := List.head?_dropWhile_not (· ≠ '\n') (w ++ after)
    cases hdrop : (w ++ after).dropWhile (· ≠ '\n') with
    | nil => exact .inl rfl
    | cons c more =>
        rw [hdrop] at hstop
        have hc : c = '\n' := by simpa using hstop
        exact .inr ⟨more, by rw [hc]⟩
  have hchars : f.chars = whole ++ (last ++ (w ++ after).takeWhile (· ≠ '\n')) ++
      (w ++ after).dropWhile (· ≠ '\n') := by
    rw [List.append_assoc, List.append_assoc, List.takeWhile_append_dropWhile, h.chars,
      List.append_assoc]
  have hline := getElem?_splitOn_newline h.endsLine hpiece hrest
  rw [← hchars] at hline
  rw [h.line_eq, line?_succ hline, rdropWhile_append_of_ne_nil h.shownFrom_ne_nil]
  rfl

theorem lineColumn_stop : f.lineColumn (min s.stop f.size) =
    ((Location.start.advance (whole ++ last ++ w)).line,
      (Location.start.advance (whole ++ last ++ w)).column) := by
  have hchars : f.chars = whole ++ last ++ w ++ after :=
    h.chars.trans (List.append_assoc _ _ _).symm
  have hle : s.stop ≤ f.size := by
    rw [h.stop_eq, size, hchars, byteSize_append _ after]
    exact Nat.le_add_right _ _
  rw [Nat.min_eq_left hle, h.stop_eq, lineColumn_byteSize hchars]

/-- The columns that an excerpt underlines end with the span if it ends in its first line, and with
what is shown of the line otherwise. -/
theorem ofSpan?_eq : Excerpt.ofSpan? f s = some (excerptOf s last w after) := by
  have hline : (Location.start.advance (whole ++ last ++ w)).line = s.line + w.count '\n' := by
    rw [Location.advance_append, Location.line_advance, h.span]
    rfl
  rw [Excerpt.ofSpan?, h.line?_eq, Option.map_some, Option.some_inj, h.lineColumn_stop, excerptOf]
  dsimp only
  by_cases hw : '\n' ∈ w
  · have hcount : 0 < w.count '\n' := List.count_pos_iff.mpr hw
    rw [if_neg (by omega), if_pos hw, h.column_eq, List.length_append, Nat.add_right_comm]
  · have hcolumn : (Location.start.advance (whole ++ last ++ w)).column = s.column + w.length := by
      rw [Location.advance_append, Location.column_advance_of_not_mem _ hw, h.span]
      rfl
    have hcount : w.count '\n' = 0 := List.count_eq_zero_of_not_mem hw
    rw [if_pos (by omega), if_neg hw, hcolumn]

theorem covered_eq : s.covered (byteSize whole) (last ++ shownFrom w after) =
    min w.length (shownFrom w after).length := by
  have hstart := h.start_eq
  have hstop := h.stop_eq
  simp only [byteSize_append] at hstart hstop
  rw [Span.covered_append, Span.covered_of_before hstart.ge, Nat.zero_add]
  obtain ⟨t, ht⟩ | ⟨t, ht⟩ := List.prefix_or_prefix_of_prefix (shownFrom_isPrefix w after)
    (List.prefix_append w after)
  · have hlength := congrArg List.length ht
    have hsize := congrArg byteSize ht
    rw [List.length_append] at hlength
    rw [byteSize_append] at hsize
    rw [Span.covered_of_inside (by omega) (by omega), Nat.min_eq_right (by omega)]
  · rw [← ht, Span.covered_append, Span.covered_of_inside (by omega) (by omega),
      Span.covered_of_after (by omega), List.length_append, Nat.add_zero,
      Nat.min_eq_left (Nat.le_add_right _ _)]

theorem length_pos : 0 < min w.length (shownFrom w after).length := by
  have hshown : 0 < (shownFrom w after).length := List.length_pos_iff.mpr h.shownFrom_ne_nil
  obtain ⟨c, hc, -⟩ := h.head
  obtain ⟨more, rfl⟩ := List.head?_eq_some_iff.mp hc
  rw [List.length_cons]
  omega

theorem column_le : s.column ≤ (last ++ shownFrom w after).length := by
  have hcolumn := h.column_eq
  have hpos := h.length_pos
  rw [List.length_append]
  omega

theorem caretRow_eq (hends : (∀ c ∈ w, isLineEnd c = false) ∨ after = []) (width : Nat) :
    (excerptOf s last w after).caretRow width = spaces width ++ " | " ++ String.ofList
      (((last ++ shownFrom w after).take (s.column - 1)).map
        (fun c => if c = '\t' then '\t' else ' ') ++
        List.replicate (min w.length (shownFrom w after).length + hiddenReturns w) '^') := by
  have hpos := h.length_pos
  have hcarets : (excerptOf s last w after).carets =
      List.replicate (min w.length (shownFrom w after).length + hiddenReturns w) '^' := by
    rw [Excerpt.carets, excerptOf, underlined_eq hends, Nat.add_sub_cancel_left, Nat.max_eq_right]
    omega
  rw [Excerpt.caretRow, hcarets, Excerpt.indent_eq (Nat.le_succ_of_le h.column_le)]
  rfl

end Holds

end SourceFile

namespace Munch

open Numeral

theorem not_isLineEnd_of_class {p : Char → Bool} (hn : p '\n' = false) (hr : p '\r' = false)
    {c : Char} (hc : p c = true) : isLineEnd c = false := by
  rw [isLineEnd_eq_false_iff]
  constructor
  · rintro rfl
    rw [hn] at hc
    cases hc
  · rintro rfl
    rw [hr] at hc
    cases hc

theorem not_isLineEnd_of_isDigit {c : Char} (h : c.isDigit = true) : isLineEnd c = false :=
  not_isLineEnd_of_class rfl rfl h

theorem not_isLineEnd_of_isOf {r : Radix} {c : Char} (h : Digits.isOf r.base c = true) :
    isLineEnd c = false := by
  cases r with
  | binary | octal | hexadecimal => exact not_isLineEnd_of_class rfl rfl h

theorem not_isLineEnd_of_ofMarker? {r : Radix} {c : Char} (h : Radix.ofMarker? c = some r) :
    isLineEnd c = false :=
  not_isLineEnd_of_class (p := fun c => (Radix.ofMarker? c).isSome) rfl rfl (by simp [h])

theorem not_isLineEnd_suffixChars (suffixed : Bool) :
    ∀ c ∈ suffixChars suffixed, isLineEnd c = false := by
  cases suffixed with
  | false => exact List.forall_mem_nil _
  | true => exact List.forall_mem_singleton.mpr rfl

theorem not_isLineEnd_fractionChars {f : Option (List Char)}
    (h : ∀ ds ∈ f, IsRun Char.isDigit ds) : ∀ c ∈ fractionChars f, isLineEnd c = false := by
  cases f with
  | none => simp [fractionChars]
  | some ds =>
      rw [fractionChars, List.forall_mem_cons]
      exact ⟨rfl, fun c hc => not_isLineEnd_of_isDigit ((h ds rfl).2 c hc)⟩

theorem not_isLineEnd_exponentChars {e : Option Exponent} (h : ∀ x ∈ e, x.Proper) :
    ∀ c ∈ exponentChars e, isLineEnd c = false := by
  cases e with
  | none => simp [exponentChars]
  | some e =>
      obtain ⟨hmarker, hdigits⟩ := h e rfl
      have hfirst : isLineEnd e.marker = false := not_isLineEnd_of_class rfl rfl hmarker
      have hsign : ∀ c ∈ (if e.negative then ['-'] else []), isLineEnd c = false := by
        split
        · exact List.forall_mem_singleton.mpr rfl
        · exact List.forall_mem_nil _
      rw [exponentChars, Exponent.chars, List.cons_append, List.forall_mem_cons,
        List.forall_mem_append]
      exact ⟨hfirst, hsign, fun c hc => not_isLineEnd_of_isDigit (hdigits.2 c hc)⟩

theorem not_isLineEnd_plain {p : Plain} (hp : p.Proper) : ∀ c ∈ p.chars, isLineEnd c = false := by
  rw [Plain.chars, Plain.body, List.forall_mem_append, List.forall_mem_append,
    List.forall_mem_append]
  exact ⟨⟨⟨fun c hc => not_isLineEnd_of_isDigit (hp.whole.2 c hc),
    not_isLineEnd_fractionChars hp.fraction⟩, not_isLineEnd_exponentChars hp.exponent⟩,
    not_isLineEnd_suffixChars _⟩

theorem Form.not_isLineEnd_or_open {c : Char} {cs : List Char} {m : Munch} (h : m.Form c cs)
    {f : Fault} (hf : m.outcome = .fault f) :
    isLineEnd c = false ∧ ((∀ x ∈ m.more, isLineEnd x = false) ∨ m.more = cs) := by
  cases h with
  | blanks hc | lineComment cs | blockComment hb | string hq | symbol hs hn he
  | symbolEqual hs ht => cases hf
  | openComment hb | openString hq => exact ⟨rfl, .inr rfl⟩
  | @marked marker cs r hr hd =>
      refine ⟨rfl, .inl ?_⟩
      rw [Marked.chars, List.cons_append, List.forall_mem_cons, List.forall_mem_append]
      exact ⟨not_isLineEnd_of_ofMarker? hr,
        fun x hx => not_isLineEnd_of_isOf (List.mem_takeWhile_imp hx), not_isLineEnd_suffixChars _⟩
  | missingDigits hr hd =>
      refine ⟨rfl, .inl ?_⟩
      rw [List.forall_mem_cons]
      exact ⟨not_isLineEnd_of_ofMarker? hr,
        fun x hx => not_isLineEnd_of_class rfl rfl (List.mem_takeWhile_imp hx)⟩
  | plain hc hm =>
      have hchars := not_isLineEnd_plain (Plain.proper_read cs hc)
      exact ⟨not_isLineEnd_of_isDigit hc, .inl fun x hx => hchars x (List.mem_of_mem_tail hx)⟩
  | unknown hb hq hd hs =>
      have hc := not_isLineEnd_of_class (p := fun c => !isBlank c) rfl rfl (c := c) (by simp [hb])
      exact ⟨hc, .inl (by simp)⟩

end Munch

theorem exists_holds_of_mem (name : String) {source : String} {d : Diagnostic}
    (hd : d ∈ (scan source).diagnostics) :
    ∃ whole last w after, SourceFile.Holds ⟨name, source⟩ d.span whole last w after ∧
      ((∀ c ∈ w, isLineEnd c = false) ∨ after = []) := by
  obtain ⟨pre, c, rest, hs, hd⟩ := mem_itemsFrom_iff.mp (mem_diagnostics_scan.mp hd)
  obtain ⟨kind, -, ⟨⟩⟩ | ⟨cause, ho, ⟨⟩⟩ := Item.ofMunch?_eq_some hd
  obtain ⟨hc, hmore⟩ := (Munch.form_ofChars c rest).not_isLineEnd_or_open ho
  obtain ⟨whole, last, rfl, hwhole, hlast⟩ := exists_endsLine_append pre
  have hsplit := Munch.more_append_drop c rest
  refine ⟨whole, last, c :: (Munch.ofChars c rest).more,
    rest.drop (Munch.ofChars c rest).more.length, ⟨?_, hwhole, hlast, ⟨c, rfl, hc⟩, ?_⟩, ?_⟩
  · rw [List.cons_append, hsplit, hs.append_eq]
    rfl
  · rw [Location.advance_append .start (whole ++ last)]
    rfl
  · obtain hmore | hmore := hmore
    · exact .inl (List.forall_mem_cons.mpr ⟨hc, hmore⟩)
    · exact .inr (by rw [hmore, List.drop_length])

open Report

/-- In the report of a mistake, the line below the source line has a blank for each column before
the mistake, and then carets: one for each character of the shown line that the mistake covers, of
which there is at least one, and one more for each carriage return at the end of a mistake that
ends in its first line. The carets stay within the shown line exactly if there is no such return. -/
theorem carets_mark_span (name source : String) :
    let file : SourceFile := ⟨name, source⟩
    ∀ d ∈ (scan source).diagnostics, ∃ text line start,
      slice? file.chars d.span.start d.span.stop = some text ∧
      file.line? d.span.line = some line ∧ file.lineStart? (d.span.line - 1) = some start ∧
      let width := d.span.line.repr.length
      let blanks := (line.take (d.span.column - 1)).map fun c => if c = '\t' then '\t' else ' '
      let marked := d.span.covered start line
      let carets := List.replicate (marked + hiddenReturns text) '^'
      (render false file d).toList = ((lines file d).map String.toList).flatMap (· ++ ['\n']) ∧
      (lines file d)[3]? = some (d.span.line.repr ++ " | " ++ String.ofList line) ∧
      (lines file d)[4]? = some (spaces width ++ " | " ++ String.ofList (blanks ++ carets)) ∧
      d.span.column ≤ line.length ∧ 1 ≤ marked ∧
      (d.span.column - 1 + carets.length ≤ line.length ↔ hiddenReturns text = 0) := by
  intro file d hd
  obtain ⟨whole, last, w, after, h, hends⟩ := exists_holds_of_mem name hd
  have hlines := lines_eq h.ofSpan?_eq
  have hcolumn := h.column_eq
  have hlength : (last ++ shownFrom w after).length = last.length + (shownFrom w after).length :=
    List.length_append
  refine ⟨w, _, _, h.slice?_eq, h.line?_eq, h.lineStart?_eq, ?_⟩
  dsimp only
  rw [h.covered_eq]
  refine ⟨toList_render_plain file d, ?_, ?_, h.column_le, h.length_pos, ?_⟩
  · rw [hlines]
    rfl
  · rw [← h.caretRow_eq hends, hlines]
    rfl
  · rw [List.length_replicate, hlength, ← underlined_le_iff hends]
    omega

/-- A string that is left open over two lines, after a tab and before a carriage return. -/
theorem carets_mark_span_after_tab :
    let file : SourceFile := ⟨"demo.ql", "\t\"é\r\ncd"⟩
    let d := Fault.unterminatedString.diagnostic ⟨1, 8, 1, 2⟩
    d ∈ (scan "\t\"é\r\ncd").diagnostics ∧ file.line? d.span.line = some ['\t', '"', 'é'] ∧
      d.span.covered 0 ['\t', '"', 'é'] = 2 ∧ (lines file d)[4]? = some "  | \t^^" := by
  intro file d
  have hd : d ∈ (scan "\t\"é\r\ncd").diagnostics := by decide +kernel
  have hline : file.line? d.span.line = some ['\t', '"', 'é'] := by decide
  have htext : slice? file.chars d.span.start d.span.stop = some "\"é\r\ncd".toList := by decide
  have hstart : file.lineStart? (d.span.line - 1) = some 0 := by decide
  obtain ⟨text, line, start, htext', hline', hstart', -, -, hrow, -⟩ :=
    carets_mark_span "demo.ql" _ d hd
  cases hline.symm.trans hline'
  cases htext.symm.trans htext'
  cases hstart.symm.trans hstart'
  exact ⟨hd, hline, by decide, hrow.trans (by decide)⟩

/-- A string that is left open at the end of the text, before a carriage return. -/
theorem carets_run_past_line_end :
    let file : SourceFile := ⟨"demo.ql", "\"open\r"⟩
    ∃ d ∈ (scan "\"open\r").diagnostics, file.line? d.span.line = some "\"open".toList ∧
      d.span.covered 0 "\"open".toList = 5 ∧ (lines file d)[4]? = some "  | ^^^^^^" := by
  decide +kernel

end ScriptScan
