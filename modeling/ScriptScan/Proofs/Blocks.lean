import ScriptScan.Proofs.Carets
import ScriptScan.Proofs.Escapes
import ScriptScan.Proofs.SharedLog
import ScriptScan.Proofs.Spelling

namespace ScriptScan

open Text

/-- The blocks of a text of whole lines, with an empty line between each two. -/
def Text.blocks (text : String) : List String :=
  let lines := (text.toList.splitOn '\n').dropLast
  if lines = [] then []
  else (lines.splitOn []).map fun block => String.ofList (block.flatMap (· ++ ['\n']))

theorem map_intercalate {α β : Type} (g : α → β) (a : α) (ls : List (List α)) :
    ([a].intercalate ls).map g = [g a].intercalate (ls.map (List.map g)) := by
  induction ls with
  | nil => rfl
  | cons l ls ih =>
      cases ls with
      | nil => rw [List.intercalate_singleton, List.map_singleton, List.intercalate_singleton]
      | cons l' ls =>
          rw [List.intercalate_cons_cons, List.map_append, ih, List.map_append]
          exact List.intercalate_cons_cons.symm

namespace Fault

theorem newline_not_mem_unknownCharacter (c : Char) (span : Span) :
    ∀ s ∈ ((unknownCharacter c).diagnostic span).texts, '\n' ∉ s.toList := by
  have hmessage : '\n' ∉
      ("unknown character `" ++ String.ofList (escapeQuotes c) ++ "`").toList := by
    simp only [String.toList_append, String.toList_ofList, List.mem_append, not_or]
    exact ⟨⟨by decide, newline_not_mem_escapeQuotes c⟩, by decide⟩
  have hrest : ∀ s ∈ ["E", "remove the character"], '\n' ∉ s.toList := by decide
  exact List.forall_mem_cons.mpr ⟨hmessage, hrest⟩

theorem newline_not_mem_missingDigits (r : Radix) {marker : Char} (h : marker ≠ '\n')
    (span : Span) : ∀ s ∈ ((missingDigits r marker).diagnostic span).texts, '\n' ∉ s.toList := by
  have hname : '\n' ∉ r.name.toList := by
    cases r with
    | binary | octal | hexadecimal => decide
  have hmessage : '\n' ∉
      ("expected " ++ r.name ++ " digit after `" ++ String.ofList ['0', marker] ++ "`").toList := by
    simp only [String.toList_append, String.toList_ofList, List.mem_append, not_or]
    exact ⟨⟨⟨⟨by decide, hname⟩, by decide⟩, by simp [h.symm]⟩, by decide⟩
  have hrest : ∀ s ∈ ["E", r.name ++ " literals use digits of base " ++ r.base.repr],
      '\n' ∉ s.toList := by
    cases r with
    | binary | octal | hexadecimal => decide +kernel
  exact List.forall_mem_cons.mpr ⟨hmessage, hrest⟩

def fixed : List Fault :=
  [unterminatedString, unterminatedComment, number .outOfRange, number .notInteger,
    number .exponentTooLarge]

theorem newline_not_mem_fixed {f : Fault} (h : f ∈ fixed) (span : Span) :
    ∀ s ∈ (f.diagnostic span).texts, '\n' ∉ s.toList := by
  -- The place is not among the texts, so one place stands for all of them.
  have hfixed : ∀ f ∈ fixed, ∀ s ∈ (f.diagnostic Span.nowhere).texts, '\n' ∉ s.toList := by
    decide +kernel
  exact hfixed f h

end Fault

theorem Munch.Form.newline_not_mem_texts {c : Char} {cs : List Char} {m : Munch}
    (h : m.Form c cs) {f : Fault} (hf : m.outcome = .fault f) (span : Span) :
    ∀ s ∈ (f.diagnostic span).texts, '\n' ∉ s.toList := by
  have hnumber : ∀ e, f = .number e → f ∈ Fault.fixed := by
    rintro e rfl
    obtain rfl | rfl | rfl := (Grammar.decodes_of_form h hf).error_eq
    · decide
    · decide
    · decide
  cases h with
  | blanks hc | lineComment cs | blockComment hb | string hq | symbol hs hn he
  | symbolEqual hs ht => cases hf
  | openComment hb | openString hq =>
      cases hf
      exact Fault.newline_not_mem_fixed (by decide) span
  | missingDigits hr hd =>
      cases hf
      have hmarker := isLineEnd_eq_false_iff.mp (not_isLineEnd_of_ofMarker? hr)
      exact Fault.newline_not_mem_missingDigits _ hmarker.1 span
  | unknown hb hq hd hs =>
      cases hf
      exact Fault.newline_not_mem_unknownCharacter c span
  | marked hr hd | plain hc hm =>
      obtain ⟨e, he⟩ := eq_number_of_decoded hf
      exact Fault.newline_not_mem_fixed (hnumber e he) span

theorem newline_not_mem_texts {source : String} {d : Diagnostic}
    (hd : d ∈ (scan source).diagnostics) : ∀ s ∈ d.texts, '\n' ∉ s.toList := by
  obtain ⟨pre, c, rest, -, hd⟩ := mem_itemsFrom_iff.mp (mem_diagnostics_scan.mp hd)
  obtain ⟨kind, -, ⟨⟩⟩ | ⟨cause, ho, ⟨⟩⟩ := Item.ofMunch?_eq_some hd
  exact (Munch.form_ofChars c rest).newline_not_mem_texts ho _

namespace Report

theorem newline_not_mem_rowText {row : Row} (h : Lacks '\n' row) : '\n' ∉ (rowText row).toList := by
  rw [rowText, String.toList_join, List.flatMap_map]
  intro hmem
  obtain ⟨p, hp, hmem⟩ := List.mem_flatMap.mp hmem
  exact h p hp hmem

theorem splitOn_writeRows {rows : List Row} (h : ∀ row ∈ rows, Lacks '\n' row) :
    (writeRows false rows).toList.splitOn '\n' =
      rows.map (fun row => (rowText row).toList) ++ [[]] := by
  rw [toList_writeRows_plain]
  apply splitOn_lines
  rw [List.forall_mem_map]
  exact fun row hrow => newline_not_mem_rowText (h row hrow)

variable {f : SourceFile} {ds : List Diagnostic}

theorem blocks_renderAll (hlacks : ∀ d ∈ ds, ∀ row ∈ rows f d, Lacks '\n' row)
    (hfull : ∀ d ∈ ds, "" ∉ lines f d) :
    blocks (renderAll false f ds) = ds.map (render false f) := by
  have hall : ∀ row ∈ [[]].intercalate (ds.map (rows f)), Lacks '\n' row := by
    intro row hrow
    obtain rfl | ⟨d, hd, hrow⟩ := mem_intercalate_rows hrow
    · simp [Lacks]
    · exact hlacks d hd row hrow
  have hlines : ([[]].intercalate (ds.map (rows f))).map (fun row => (rowText row).toList) =
      [[]].intercalate (ds.map fun d => (lines f d).map String.toList) := by
    rw [map_intercalate, List.map_map]
    simp only [lines, List.map_map]
    rfl
  rw [blocks, renderAll_eq_writeRows, splitOn_writeRows hall, List.dropLast_concat, hlines]
  cases ds with
  | nil => rfl
  | cons d ds =>
      have hempty : ∀ block ∈ (d :: ds).map (fun d => (lines f d).map String.toList),
          [] ∉ block := by
        rw [List.forall_mem_map]
        intro d hd hmem
        obtain ⟨line, hline, hnil⟩ := List.mem_map.mp hmem
        rw [String.toList_eq_nil_iff] at hnil
        exact hfull d hd (hnil ▸ hline)
      -- The lines of all reports are those of each, joined by single empty lines.
      have hsplit := List.splitOn_intercalate [] hempty (by simp)
      rw [if_neg, hsplit, List.map_map]
      · refine List.map_congr_left ?_
        intro d _
        rw [Function.comp, ← toList_render_plain, String.ofList_toList]
      · intro hnil
        rw [hnil] at hsplit
        cases hsplit

def layout (name : String) (d : Diagnostic) (code : Code) (line marks : List Char) : List String :=
  let number := d.span.line.repr
  let gutter := spaces number.length
  ["error[" ++ code.text ++ "]: " ++ d.message,
    gutter ++ "--> " ++ name ++ ":" ++ (number ++ ":" ++ d.span.column.repr),
    gutter ++ " |",
    number ++ " | " ++ String.ofList line,
    gutter ++ " | " ++ String.ofList marks] ++
  d.notes.map (fun note => gutter ++ " = note: " ++ note) ++
  d.helps.map (fun help => gutter ++ " = help: " ++ help)

section Layout

variable {name : String} {d : Diagnostic} {code : Code} {line marks : List Char}

theorem length_layout :
    (layout name d code line marks).length = 5 + d.notes.length + d.helps.length := by
  simp only [layout, List.length_append, List.length_map, List.length_cons, List.length_nil]

theorem empty_not_mem_layout : "" ∉ layout name d code line marks := by
  simp [layout]

theorem idxOf_bar {gutter : String} (h : '|' ∉ gutter.toList) (rest : List Char) :
    (gutter.toList ++ ' ' :: '|' :: rest).idxOf '|' = gutter.length + 1 := by
  rw [List.idxOf_append_of_notMem h, String.length_toList]
  rfl

theorem idxOf_layout : ∀ row ∈ ((layout name d code line marks).drop 2).take 3,
    row.toList.idxOf '|' = d.span.line.repr.length + 1 := by
  have hgutter : '|' ∉ (spaces d.span.line.repr.length).toList := by
    simp [spaces]
  have hlength : (spaces d.span.line.repr.length).length = d.span.line.repr.length := by
    simp [spaces]
  have hnumber : '|' ∉ d.span.line.repr.toList := not_mem_of_class rfl (Digits.isRun_repr _).2
  have hbar := idxOf_bar hgutter []
  have hcaret := idxOf_bar hgutter (' ' :: marks)
  have hsource := idxOf_bar hnumber (' ' :: line)
  rw [hlength] at hbar hcaret
  have hthree : ((layout name d code line marks).drop 2).take 3 =
      [spaces d.span.line.repr.length ++ " |", d.span.line.repr ++ " | " ++ String.ofList line,
        spaces d.span.line.repr.length ++ " | " ++ String.ofList marks] := rfl
  rw [hthree]
  simp only [List.forall_mem_cons, String.toList_append, String.toList_ofList, List.append_assoc]
  exact ⟨hbar, hsource, hcaret, by simp⟩

theorem lines_eq_layout {f : SourceFile} {e : Excerpt} (he : Excerpt.ofSpan? f d.span = some e)
    (hlevel : d.level = .error) (hcode : d.code = some code) :
    lines f d = layout f.name d code e.line (e.indent ++ e.carets) := by
  have hnumber : e.number = d.span.line := by
    obtain ⟨line, -, rfl⟩ := Option.map_eq_some_iff.mp he
    rfl
  have hheader : title d ++ ": " ++ d.message = "error[" ++ code.text ++ "]: " ++ d.message := by
    apply String.toList_injective
    rw [title, hcode, hlevel]
    simp [Level.name]
  have hnote : remarkLine e.gutterWidth .note =
      fun note => spaces e.gutterWidth ++ " = note: " ++ note := by
    funext note
    apply String.toList_injective
    simp [remarkLine, Level.name]
  have hhelp : remarkLine e.gutterWidth .help =
      fun help => spaces e.gutterWidth ++ " = help: " ++ help := by
    funext help
    apply String.toList_injective
    simp [remarkLine, Level.name]
  rw [lines_eq he, hheader, hnote, hhelp, Excerpt.caretRow, Excerpt.gutterWidth, hnumber]
  rfl

end Layout

end Report

open Report

theorem lacks_newline_of_mem {name source : String} (hname : '\n' ∉ name.toList) {d : Diagnostic}
    (hd : d ∈ (scan source).diagnostics) : ∀ row ∈ rows ⟨name, source⟩ d, Lacks '\n' row := by
  refine lacks_rows isControl_newline hname ?_ (newline_not_mem_texts hd)
  intro line hline hmem
  exact (SourceFile.mem_of_line? hline hmem).2 rfl

theorem exists_layout_of_mem (name : String) {source : String} {d : Diagnostic}
    (hd : d ∈ (scan source).diagnostics) :
    ∃ code line blanks count, d.code = some code ∧
      SourceFile.line? ⟨name, source⟩ d.span.line = some line ∧
      (∀ c ∈ blanks, c = ' ' ∨ c = '\t') ∧
      lines ⟨name, source⟩ d =
        layout name d code line (blanks ++ List.replicate (count + 1) '^') := by
  obtain ⟨hlevel, -, -, -, code, -, -, -, hcode, -⟩ := explained_of_mem hd
  obtain ⟨whole, last, w, after, h, -⟩ := exists_holds_of_mem name hd
  obtain ⟨count, hcarets⟩ := (excerptOf d.span last w after).carets_eq
  have hlines := lines_eq_layout h.ofSpan?_eq hlevel hcode
  rw [hcarets] at hlines
  exact ⟨code, _, _, count, hcode, h.line?_eq, fun c => Excerpt.mem_indent, hlines⟩

/-- The report of a mistake has a line each for its title, its place, a bar, the source line, the
carets and every remark. None of these is empty, and the bars stand below each other. So the
reports of a text can be told apart by the empty lines between them. -/
theorem reports_split_at_empty_lines {name : String} (hname : '\n' ∉ name.toList)
    (source : String) :
    let file : SourceFile := ⟨name, source⟩
    let ds := (scan source).diagnostics
    (∀ d ∈ ds, ∃ code line blanks count, d.code = some code ∧
      file.line? d.span.line = some line ∧ (∀ c ∈ blanks, c = ' ' ∨ c = '\t') ∧
      let rows := layout name d code line (blanks ++ List.replicate (count + 1) '^')
      (render false file d).toList.splitOn '\n' = rows.map String.toList ++ [[]] ∧
      rows.length = 5 + d.notes.length + d.helps.length ∧ "" ∉ rows ∧
      ∀ row ∈ (rows.drop 2).take 3, row.toList.idxOf '|' = d.span.line.repr.length + 1) ∧
    blocks (renderAll false file ds) = ds.map (render false file) ∧
    (blocks (renderAll false file ds)).length = (scanInto Log.empty source).2.errorCount := by
  intro file ds
  have hlacks : ∀ d ∈ ds, ∀ row ∈ rows file d, Lacks '\n' row :=
    fun d hd => lacks_newline_of_mem hname hd
  have hfull : ∀ d ∈ ds, "" ∉ lines file d := by
    intro d hd
    obtain ⟨code, line, blanks, count, -, -, -, hlines⟩ := exists_layout_of_mem name hd
    rw [hlines]
    exact empty_not_mem_layout
  have hblocks := blocks_renderAll hlacks hfull
  refine ⟨?_, hblocks, ?_⟩
  · intro d hd
    obtain ⟨code, line, blanks, count, hcode, hline, hblanks, hlines⟩ :=
      exists_layout_of_mem name hd
    refine ⟨code, line, blanks, count, hcode, hline, hblanks, ?_, length_layout,
      empty_not_mem_layout, idxOf_layout⟩
    rw [← hlines, render, splitOn_writeRows (hlacks d hd), lines, List.map_map]
    rfl
  · rw [hblocks, List.length_map, scanInto, Log.errorCount_reportAll, countP_isError_scan]
    exact (Nat.zero_add _).symm

/-- An unknown character and, on the next line, a marker without digits. -/
theorem reports_split_at_empty_lines_between_two :
    let file : SourceFile := ⟨"demo.ql", "@\n\t0x"⟩
    '\n' ∉ "demo.ql".toList ∧ blocks (renderAll false file (scan "@\n\t0x").diagnostics) =
      ["error[E1001]: unknown character `@`\n --> demo.ql:1:1\n  |\n1 | @\n  | ^\n" ++
          "  = help: remove the character\n",
        "error[E1003]: expected hexadecimal digit after `0x`\n --> demo.ql:2:2\n  |\n" ++
          "2 | \t0x\n  | \t^^\n  = note: hexadecimal literals use digits of base 16\n"] := by
  have hname : '\n' ∉ "demo.ql".toList := by decide
  obtain ⟨-, hblocks, -⟩ := reports_split_at_empty_lines hname "@\n\t0x"
  exact ⟨hname, hblocks.trans (by decide +kernel)⟩

end ScriptScan
