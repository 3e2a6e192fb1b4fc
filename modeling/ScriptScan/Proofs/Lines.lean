import Mathlib.Data.List.DropRight
import Mathlib.Data.Prod.Lex
import Mathlib.Data.Set.Function
import Mathlib.Order.Monotone.Basic
import ScriptScan.Proofs.LineTable

namespace ScriptScan

open Text

theorem EndsLine.append_newline {cs : List Char} (h : EndsLine cs) (first : List Char) :
    EndsLine (first ++ '\n' :: cs) := by
  obtain rfl | ⟨body, rfl⟩ := h
  · exact .inr ⟨first, rfl⟩
  · exact .inr ⟨first ++ '\n' :: body, by simp⟩

def linesSize : List (List Char) → Nat
  | [] => 0
  | l :: ls => byteSize l + 1 + linesSize ls

theorem length_splitOn_newline (cs : List Char) :
    (cs.splitOn '\n').length = cs.count '\n' + 1 := by
  induction cs with
  | nil => rfl
  | cons c cs ih =>
      rw [List.splitOn_cons_eq_if_modifyHead]
      by_cases hc : c = '\n'
      · subst c
        rw [if_pos (beq_self_eq_true _), List.length_cons, ih, List.count_cons_self]
      · rw [if_neg (by simpa using hc), List.length_modifyHead, ih, List.count_cons_of_ne hc]

theorem splitOn_lines_append {lines : List (List Char)} (h : ∀ l ∈ lines, '\n' ∉ l)
    (rest : List Char) :
    (lines.flatMap (· ++ ['\n']) ++ rest).splitOn '\n' = lines ++ rest.splitOn '\n' := by
  induction lines with
  | nil => rfl
  | cons l lines ih =>
      have hl : '\n' ∉ l := h l List.mem_cons_self
      have hlines : ∀ l ∈ lines, '\n' ∉ l := fun l' hl' => h l' (List.mem_cons_of_mem _ hl')
      rw [List.flatMap_cons, List.append_assoc, List.append_assoc, List.singleton_append,
        List.splitOn_append_cons_self_of_not_mem hl, ih hlines, List.cons_append]

theorem splitOn_lines {lines : List (List Char)} (h : ∀ l ∈ lines, '\n' ∉ l) :
    (lines.flatMap (· ++ ['\n'])).splitOn '\n' = lines ++ [[]] := by
  have hsplit := splitOn_lines_append h []
  rw [List.append_nil] at hsplit
  exact hsplit

theorem getElem?_splitOn_newline {whole line rest : List Char} (hwhole : EndsLine whole)
    (hline : '\n' ∉ line) (hrest : rest = [] ∨ ∃ more, rest = '\n' :: more) :
    ((whole ++ line ++ rest).splitOn '\n')[whole.count '\n']? = some line := by
  have hfirst : ((line ++ rest).splitOn '\n')[0]? = some line := by
    obtain rfl | ⟨more, rfl⟩ := hrest
    · rw [List.append_nil, List.splitOn_eq_singleton hline]
      rfl
    · rw [List.splitOn_append_cons_self_of_not_mem hline]
      rfl
  obtain rfl | ⟨body, rfl⟩ := hwhole
  · exact hfirst
  · have hcount : (body ++ ['\n']).count '\n' = (body.splitOn '\n').length := by
      rw [length_splitOn_newline, List.count_append]
      rfl
    rw [List.append_assoc, List.append_assoc, List.singleton_append, List.splitOn_append_cons_self,
      hcount, List.getElem?_append_right (Nat.le_refl _), Nat.sub_self, hfirst]

theorem exists_append_of_line {cs line : List Char} {k : Nat}
    (h : (cs.splitOn '\n')[k]? = some line) :
    ∃ whole rest, cs = whole ++ line ++ rest ∧ EndsLine whole ∧ whole.count '\n' = k ∧
      byteSize whole = linesSize ((cs.splitOn '\n').take k) ∧ '\n' ∉ line ∧
      (rest = [] ∨ ∃ more, rest = '\n' :: more) := by
  -- The induction takes off one line and its line feed at a time.
  induction k generalizing cs with
  | zero =>
      by_cases hmem : '\n' ∈ cs
      · obtain ⟨first, more, rfl, hfirst⟩ := List.eq_append_cons_of_mem hmem
        rw [List.splitOn_append_cons_self_of_not_mem hfirst] at h ⊢
        cases h
        exact ⟨[], _, rfl, .inl rfl, rfl, rfl, hfirst, .inr ⟨more, rfl⟩⟩
      · rw [List.splitOn_eq_singleton hmem] at h ⊢
        cases h
        exact ⟨[], [], by simp, .inl rfl, rfl, rfl, hmem, .inl rfl⟩
  | succ k ih =>
      by_cases hmem : '\n' ∈ cs
      · obtain ⟨first, more, rfl, hfirst⟩ := List.eq_append_cons_of_mem hmem
        rw [List.splitOn_append_cons_self_of_not_mem hfirst] at h ⊢
        obtain ⟨whole, rest, hmore, hwhole, hcount, hsize, hline, hrest⟩ := ih h
        refine ⟨first ++ '\n' :: whole, rest, by simp [hmore], hwhole.append_newline first, ?_, ?_,
          hline, hrest⟩
        · rw [List.count_append, List.count_cons_self, hcount,
            List.count_eq_zero_of_not_mem hfirst, Nat.zero_add]
        · rw [List.take_succ_cons, linesSize, ← hsize, byteSize_append, byteSize, Nat.add_assoc]
          rfl
      · rw [List.splitOn_eq_singleton hmem] at h
        cases h

namespace Location

theorem lt_step (p : Location) (c : Char) :
    toLex (p.line, p.column) < toLex ((p.step c).line, (p.step c).column) := by
  rw [Prod.Lex.toLex_lt_toLex]
  by_cases hc : c = '\n'
  · subst c
    exact .inl (Nat.lt_succ_self p.line)
  · rw [line_step_of_ne p hc, column_step_of_ne p hc]
    exact .inr ⟨rfl, Nat.lt_succ_self p.column⟩

theorem lt_advance (p : Location) {cs : List Char} (h : cs ≠ []) :
    toLex (p.line, p.column) < toLex ((p.advance cs).line, (p.advance cs).column) := by
  induction cs generalizing p with
  | nil => exact absurd rfl h
  | cons c cs ih =>
      rw [advance_cons]
      by_cases hcs : cs = []
      · subst cs
        exact p.lt_step c
      · exact (p.lt_step c).trans (ih _ hcs)

end Location

namespace SourceFile

def IsBoundary (f : SourceFile) (offset : Nat) : Prop :=
  ∃ pre, pre <+: f.chars ∧ byteSize pre = offset

theorem isBoundary_iff {f : SourceFile} {offset : Nat} :
    f.IsBoundary offset ↔ (takeBytes? f.chars offset).isSome = true := by
  constructor
  · rintro ⟨pre, ⟨rest, hcs⟩, rfl⟩
    rw [← hcs, takeBytes?_append]
    rfl
  · intro h
    obtain ⟨pre, hpre⟩ := Option.isSome_iff_exists.mp h
    obtain ⟨rest, hcs, hsize⟩ := eq_append_of_takeBytes? hpre
    exact ⟨pre, ⟨rest, hcs.symm⟩, hsize⟩

instance (f : SourceFile) (offset : Nat) : Decidable (f.IsBoundary offset) :=
  decidable_of_iff _ isBoundary_iff.symm

theorem strictMonoOn_lineColumn (f : SourceFile) :
    StrictMonoOn (fun offset => toLex (f.lineColumn offset)) {offset | f.IsBoundary offset} := by
  rintro _ ⟨pre, hpre, rfl⟩ _ ⟨pre', hpre', rfl⟩ hlt
  have hprefix : pre <+: pre' := by
    obtain h | h := List.prefix_or_prefix_of_prefix hpre hpre'
    · exact h
    · obtain ⟨w, rfl⟩ := h
      rw [byteSize_append] at hlt
      omega
  obtain ⟨w, rfl⟩ := hprefix
  have hw : w ≠ [] := by
    rintro rfl
    rw [List.append_nil] at hlt
    omega
  obtain ⟨rest, hrest⟩ := hpre
  obtain ⟨rest', hrest'⟩ := hpre'
  dsimp only
  rw [lineColumn_byteSize hrest.symm, lineColumn_byteSize hrest'.symm, Location.advance_append]
  exact Location.lt_advance _ hw

theorem injOn_lineColumn (f : SourceFile) :
    Set.InjOn f.lineColumn {offset | f.IsBoundary offset} := by
  intro a ha b hb hab
  exact f.strictMonoOn_lineColumn.injOn ha hb (congrArg toLex hab)

variable {f : SourceFile} {offset : Nat}

theorem lineIndex_eq_count (f : SourceFile) (offset : Nat) :
    f.lineIndex offset = (f.content.toUTF8.data.toList.take offset).count 10 := by
  obtain ⟨pre, rest, hcs, hle, hlt⟩ := exists_append_around f.chars offset
  rw [lineIndex_eq hcs hle hlt, toList_toUTF8, ← count_take_bytes hle hlt, ← hcs]
  rfl

theorem lineStart?_eq_of_endsLine {whole rest : List Char} (h : f.chars = whole ++ rest)
    (hwhole : EndsLine whole) : f.lineStart? (whole.count '\n') = some (byteSize whole) := by
  have hlt : whole.count '\n' < f.lineStarts.length := by
    rw [← lineCount, lineCount_eq, h, List.count_append]
    omega
  have hstart := getD_lineStarts h hwhole
  rw [List.getD_eq_getElem?_getD, List.getElem?_eq_getElem hlt, Option.getD_some] at hstart
  rw [lineStart?, List.getElem?_eq_getElem hlt, hstart]

theorem exists_lineStart?_lineIndex (f : SourceFile) (offset : Nat) :
    ∃ start, f.lineStart? (f.lineIndex offset) = some start ∧ start ≤ offset := by
  obtain ⟨pre, rest, hcs, hle, hlt⟩ := exists_append_around f.chars offset
  have hindex := lineIndex_eq hcs hle hlt
  obtain ⟨whole, last, rfl, hwhole, hlast⟩ := exists_endsLine_append pre
  rw [List.count_append, List.count_eq_zero_of_not_mem hlast, Nat.add_zero] at hindex
  rw [byteSize_append] at hle
  refine ⟨byteSize whole, ?_, by omega⟩
  rw [hindex]
  exact lineStart?_eq_of_endsLine (hcs.trans (List.append_assoc _ _ _)) hwhole

theorem lineIndex_lt_lineCount (f : SourceFile) (offset : Nat) :
    f.lineIndex offset < f.lineCount := by
  obtain ⟨start, hstart, -⟩ := f.exists_lineStart?_lineIndex offset
  exact (List.getElem?_eq_some_iff.mp hstart).1

theorem lineColumn_eq {start : Nat} (hstart : f.lineStart? (f.lineIndex offset) = some start) :
    f.lineColumn offset = (f.lineIndex offset + 1,
      (slice? f.chars start offset).elim (offset - start) List.length + 1) := by
  have hgetD : f.lineStarts.getD (f.lineIndex offset) 0 = start := by
    rw [List.getD_eq_getElem?_getD, ← lineStart?, hstart, Option.getD_some]
  unfold lineColumn
  simp only [hgetD]
  cases slice? f.chars start offset with
  | none => rfl
  | some piece => rfl

theorem fst_lineColumn (f : SourceFile) (offset : Nat) :
    (f.lineColumn offset).1 = f.lineIndex offset + 1 := by
  obtain ⟨start, hstart, -⟩ := f.exists_lineStart?_lineIndex offset
  rw [lineColumn_eq hstart]

theorem exists_between_of_isBoundary (h : f.IsBoundary offset) {start : Nat}
    (hstart : f.lineStart? (f.lineIndex offset) = some start) :
    ∃ piece, Between f.chars start offset piece ∧ (f.lineColumn offset).2 = piece.length + 1 := by
  obtain ⟨pre, ⟨rest, hcs⟩, rfl⟩ := h
  have hindex : f.lineIndex (byteSize pre) = pre.count '\n' :=
    lineIndex_eq hcs.symm (Nat.le_refl _) fun c _ => Nat.lt_add_of_pos_right c.utf8Size_pos
  obtain ⟨whole, last, rfl, hwhole, hlast⟩ := exists_endsLine_append pre
  have hbetween : Between f.chars (byteSize whole) (byteSize (whole ++ last)) last :=
    ⟨whole, rest, hcs.symm, rfl, rfl⟩
  rw [List.append_assoc] at hcs
  have hbyte : start = byteSize whole := by
    rw [hindex, List.count_append, List.count_eq_zero_of_not_mem hlast, Nat.add_zero,
      lineStart?_eq_of_endsLine hcs.symm hwhole] at hstart
    exact (Option.some.inj hstart).symm
  subst hbyte
  refine ⟨last, hbetween, ?_⟩
  rw [lineColumn_eq hstart, slice?_eq_some_iff.mpr hbetween, Option.elim_some]

theorem snd_lineColumn_of_not_isBoundary (h : ¬ f.IsBoundary offset) {start : Nat}
    (hstart : f.lineStart? (f.lineIndex offset) = some start) :
    (f.lineColumn offset).2 = offset - start + 1 := by
  have hslice : slice? f.chars start offset = none := by
    rw [Option.eq_none_iff_forall_ne_some]
    intro piece hpiece
    obtain ⟨pre, rest, hcs, -, hstop⟩ := slice?_eq_some_iff.mp hpiece
    exact h ⟨pre ++ piece, ⟨rest, hcs.symm⟩, hstop⟩
  rw [lineColumn_eq hstart, hslice, Option.elim_none]

theorem exists_line (f : SourceFile) {k : Nat} (hk : k < f.lineCount) :
    ∃ line, (f.chars.splitOn '\n')[k]? = some line := by
  rw [lineCount_eq, ← length_splitOn_newline] at hk
  exact ⟨_, List.getElem?_eq_getElem hk⟩

theorem lineStart?_eq {k : Nat} (hk : k < f.lineCount) :
    f.lineStart? k = some (linesSize ((f.chars.splitOn '\n').take k)) := by
  obtain ⟨line, hline⟩ := f.exists_line hk
  obtain ⟨whole, rest, hcs, hwhole, rfl, hsize, -⟩ := exists_append_of_line hline
  rw [List.append_assoc] at hcs
  rw [← hsize, lineStart?_eq_of_endsLine hcs hwhole]

theorem lineStart?_eq_none {k : Nat} (hk : f.lineCount ≤ k) : f.lineStart? k = none :=
  List.getElem?_eq_none hk

theorem lineColumn_lineStart {k start : Nat} (h : f.lineStart? k = some start) :
    f.lineColumn start = (k + 1, 1) := by
  have hk : k < f.lineCount := (List.getElem?_eq_some_iff.mp h).1
  obtain ⟨line, hline⟩ := f.exists_line hk
  obtain ⟨whole, rest, hcs, hwhole, rfl, hsize, -⟩ := exists_append_of_line hline
  rw [List.append_assoc] at hcs
  rw [lineStart?_eq_of_endsLine hcs hwhole] at h
  rw [← Option.some.inj h, lineColumn_byteSize hcs, hwhole.column_advance, Location.line_advance,
    Nat.add_comm]
  rfl

theorem trimLineEnd_append_newline (cs : List Char) :
    trimLineEnd (cs ++ ['\n']) = trimLineEnd cs :=
  List.rdropWhile_concat_pos isLineEnd cs '\n' rfl

theorem trimLineEnd_eq {cs : List Char} (h : '\n' ∉ cs) :
    trimLineEnd cs = cs.rdropWhile (· = '\r') := by
  change cs.rdropWhile isLineEnd = _
  induction cs using List.reverseRecOn with
  | nil => rfl
  | append_singleton cs c ih =>
      have hc : c ≠ '\n' := fun he => h (by simp [he])
      have hcs : '\n' ∉ cs := fun hmem => h (List.mem_append_left _ hmem)
      have hend : isLineEnd c = decide (c = '\r') := by simp [isLineEnd, hc]
      rw [List.rdropWhile_concat, List.rdropWhile_concat, ih hcs, hend]

theorem line?_of_between {k start : Nat} {piece : List Char}
    (hstart : f.lineStart? k = some start)
    (h : Between f.chars start ((f.lineStart? (k + 1)).getD f.size) piece) :
    f.line? (k + 1) = some (trimLineEnd piece) := by
  rw [line?, hstart, Option.bind_eq_bind, Option.bind_some, slice?_eq_some_iff.mpr h]
  rfl

theorem line?_succ {k : Nat} {line : List Char} (h : (f.chars.splitOn '\n')[k]? = some line) :
    f.line? (k + 1) = some (line.rdropWhile (· = '\r')) := by
  obtain ⟨whole, rest, hcs, hwhole, hcount, -, hline, hrest⟩ := exists_append_of_line h
  have hstart : f.lineStart? k = some (byteSize whole) := by
    rw [← hcount]
    exact lineStart?_eq_of_endsLine (hcs.trans (List.append_assoc _ _ _)) hwhole
  have hlines : (whole ++ line).count '\n' = k := by
    rw [List.count_append, List.count_eq_zero_of_not_mem hline, hcount, Nat.add_zero]
  rw [← trimLineEnd_eq hline]
  obtain rfl | ⟨more, rfl⟩ := hrest
  · -- The last line ends where the text ends.
    have hlast : f.lineStart? (k + 1) = none := by
      apply lineStart?_eq_none
      rw [lineCount_eq, hcs, List.append_nil, hlines]
    apply line?_of_between hstart
    rw [hlast, Option.getD_none, size, hcs, List.append_nil]
    exact ⟨whole, [], by rw [List.append_nil], rfl, rfl⟩
  · -- Any other line ends where the next one starts, after a line feed.
    have hends : EndsLine (whole ++ (line ++ ['\n'])) := .inr ⟨whole ++ line, by simp⟩
    have hcs : f.chars = whole ++ (line ++ ['\n']) ++ more := by simp [hcs]
    have hnext := lineStart?_eq_of_endsLine hcs hends
    rw [← List.append_assoc, List.count_append, hlines, List.count_singleton_self] at hnext
    rw [← trimLineEnd_append_newline]
    apply line?_of_between hstart
    rw [hnext, Option.getD_some, List.append_assoc]
    exact ⟨whole, more, hcs, rfl, rfl⟩

theorem line?_eq_none {n : Nat} (h : ¬ (1 ≤ n ∧ n ≤ f.lineCount)) : f.line? n = none := by
  cases n with
  | zero => rfl
  | succ k =>
      rw [line?, lineStart?_eq_none (by omega)]
      rfl

theorem mem_of_line? {n : Nat} {line : List Char} (h : f.line? n = some line) {c : Char}
    (hc : c ∈ line) : c ∈ f.chars ∧ c ≠ '\n' := by
  by_cases hn : 1 ≤ n ∧ n ≤ f.lineCount
  · obtain ⟨k, rfl⟩ := Nat.exists_eq_add_of_le' hn.1
    obtain ⟨piece, hpiece⟩ := f.exists_line hn.2
    obtain ⟨whole, rest, hcs, -, -, -, hnewline, -⟩ := exists_append_of_line hpiece
    rw [line?_succ hpiece, Option.some_inj] at h
    have hmem : c ∈ piece := (List.rdropWhile_prefix _ piece).mem (h ▸ hc)
    refine ⟨?_, ne_of_mem_of_not_mem hmem hnewline⟩
    rw [hcs]
    exact List.mem_append_left _ (List.mem_append_right _ hmem)
  · rw [line?_eq_none hn] at h
    cases h

/-- Looking up lines agrees with splitting the text at its line feeds.

Every offset lies in a line of the table, after as many line feeds as there are among the bytes
before it. Its column counts the characters from the start of the line, or the bytes if the offset
falls into a character or beyond the end. Between characters, places grow with their offsets. The
lines of the table start where the pieces of the text do and read as these without the carriage
returns at their ends. -/
theorem line_lookup_agrees_with_splitting (f : SourceFile) :
    let pieces := f.chars.splitOn '\n'
    (∀ offset, f.lineIndex offset < f.lineCount ∧
      (f.lineColumn offset).1 = 1 + (f.content.toUTF8.data.toList.take offset).count 10 ∧
      ∃ start, f.lineStart? ((f.lineColumn offset).1 - 1) = some start ∧ start ≤ offset ∧
        (f.IsBoundary offset → ∃ between, Between f.chars start offset between ∧
          (f.lineColumn offset).2 = 1 + between.length) ∧
        (¬ f.IsBoundary offset → (f.lineColumn offset).2 = 1 + (offset - start))) ∧
    StrictMonoOn (fun offset => toLex (f.lineColumn offset)) {offset | f.IsBoundary offset} ∧
    Set.InjOn f.lineColumn {offset | f.IsBoundary offset} ∧
    f.lineCount = 1 + f.chars.count '\n' ∧
    (∀ k, f.lineStart? k = if k < f.lineCount then some (linesSize (pieces.take k)) else none) ∧
    (∀ k start, f.lineStart? k = some start → f.lineColumn start = (k + 1, 1)) ∧
    (∀ n, 1 ≤ n → n ≤ f.lineCount → ∃ piece, pieces[n - 1]? = some piece ∧
      f.line? n = some (piece.rdropWhile (· = '\r'))) ∧
    ∀ n, ¬ (1 ≤ n ∧ n ≤ f.lineCount) → f.line? n = none := by
  dsimp only
  refine ⟨?_, f.strictMonoOn_lineColumn, f.injOn_lineColumn, ?_, ?_, ?_, ?_, ?_⟩
  · intro offset
    obtain ⟨start, hstart, hle⟩ := f.exists_lineStart?_lineIndex offset
    refine ⟨f.lineIndex_lt_lineCount offset, ?_, start, ?_, hle, ?_, ?_⟩
    · rw [fst_lineColumn, lineIndex_eq_count, Nat.add_comm]
    · rw [fst_lineColumn, Nat.add_sub_cancel, hstart]
    · intro h
      obtain ⟨between, hbetween, hcolumn⟩ := exists_between_of_isBoundary h hstart
      exact ⟨between, hbetween, hcolumn.trans (Nat.add_comm _ _)⟩
    · intro h
      rw [snd_lineColumn_of_not_isBoundary h hstart, Nat.add_comm]
  · rw [lineCount_eq, Nat.add_comm]
  · intro k
    split
    · rename_i hk
      exact lineStart?_eq hk
    · rename_i hk
      exact lineStart?_eq_none (Nat.le_of_not_lt hk)
  · intro k start
    exact lineColumn_lineStart
  · intro n hpos hle
    obtain ⟨k, rfl⟩ := Nat.exists_eq_add_of_le' hpos
    obtain ⟨piece, hpiece⟩ := f.exists_line hle
    exact ⟨piece, hpiece, line?_succ hpiece⟩
  · intro n hn
    exact line?_eq_none hn

/-- An offset between two characters, one inside a character, one after the end, the start of the
second line, and a first line with a carriage return. -/
theorem line_lookup_agrees_with_splitting_wide_characters :
    let f : SourceFile := ⟨"page", "é\r\nλx"⟩
    (f.IsBoundary 6 ∧ ∃ start between, f.lineStart? ((f.lineColumn 6).1 - 1) = some start ∧
      Between f.chars start 6 between ∧ (f.lineColumn 6).2 = 1 + between.length) ∧
    (¬ f.IsBoundary 5 ∧ ∃ start, f.lineStart? ((f.lineColumn 5).1 - 1) = some start ∧
      (f.lineColumn 5).2 = 1 + (5 - start)) ∧
    (¬ f.IsBoundary 9 ∧ (f.lineColumn 9).1 = 1 + (f.content.toUTF8.data.toList.take 9).count 10) ∧
    (f.lineStart? 1 = some 4 ∧ f.lineColumn 4 = (2, 1)) ∧
    (f.lineCount = 2 ∧ ∃ piece, (f.chars.splitOn '\n')[0]? = some piece ∧
      f.line? 1 = some (piece.rdropWhile (· = '\r'))) ∧
    f.line? 3 = none := by
  intro f
  obtain ⟨hplace, -, -, -, -, hstart, hline, hnone⟩ := line_lookup_agrees_with_splitting f
  have hboundary : f.IsBoundary 6 := by decide
  have hinside : ¬ f.IsBoundary 5 := by decide
  have hbeyond : ¬ f.IsBoundary 9 := by decide
  have hcount : f.lineCount = 2 := by decide
  have hsecond : f.lineStart? 1 = some 4 := by decide
  obtain ⟨-, -, start, hs, -, hb, -⟩ := hplace 6
  obtain ⟨-, -, start', hs', -, -, hn⟩ := hplace 5
  obtain ⟨between, hbetween, hcolumn⟩ := hb hboundary
  exact ⟨⟨hboundary, start, between, hs, hbetween, hcolumn⟩, ⟨hinside, start', hs', hn hinside⟩,
    ⟨hbeyond, (hplace 9).2.1⟩, ⟨hsecond, hstart 1 4 hsecond⟩,
    ⟨hcount, hline 1 (Nat.le_refl 1) (by omega)⟩, hnone 3 (by omega)⟩

end SourceFile

end ScriptScan
