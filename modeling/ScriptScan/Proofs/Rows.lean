import Mathlib.Data.List.Basic
import ScriptScan.Report

namespace ScriptScan

namespace Excerpt

theorem mem_indent {e : Excerpt} {c : Char} (h : c ∈ e.indent) : c = ' ' ∨ c = '\t' := by
  obtain h | h := List.mem_append.mp h
  · obtain ⟨x, -, rfl⟩ := List.mem_map.mp h
    split
    · exact .inr rfl
    · exact .inl rfl
  · exact .inl (List.eq_of_mem_replicate h)

theorem carets_eq (e : Excerpt) : ∃ count, e.carets = List.replicate (count + 1) '^' := by
  obtain ⟨count, hcount⟩ :=
    Nat.exists_eq_add_of_le' (Nat.le_max_left 1 (e.endColumn - e.startColumn))
  exact ⟨count, by rw [carets, hcount]⟩

end Excerpt

def IsControl (c : Char) : Prop := c.toNat < 32 ∧ c ≠ '\t'

theorem isControl_newline : IsControl '\n' := by unfold IsControl; decide

theorem isControl_escape : IsControl '\x1b' := by unfold IsControl; decide

namespace IsControl

variable {x : Char} (hx : IsControl x)

include hx

theorem not_mem_of_all {cs : List Char} (h : cs.all (fun c => 32 ≤ c.toNat) = true) : x ∉ cs := by
  intro hmem
  have hle := List.all_eq_true.mp h x hmem
  rw [decide_eq_true_eq] at hle
  exact absurd hx.1 (Nat.not_lt.mpr hle)

theorem not_mem_repr (n : Nat) : x ∉ n.repr.toList := by
  refine hx.not_mem_of_all (List.all_eq_true.mpr ?_)
  intro c hc
  rw [Nat.repr_eq_ofList_toDigits, String.toList_ofList] at hc
  have hdigit := Nat.isDigit_of_mem_toDigits (by decide) (by decide) hc
  rw [Char.isDigit, Bool.and_eq_true, decide_eq_true_eq, ge_iff_le] at hdigit
  have hle : (48 : UInt32).toNat ≤ c.val.toNat := UInt32.le_iff_toNat_le.mp hdigit.1
  exact decide_eq_true (Nat.le_trans (by decide) hle)

theorem not_mem_replicate {c : Char} (hc : 32 ≤ c.toNat) (n : Nat) : x ∉ List.replicate n c := by
  intro hmem
  rw [List.eq_of_mem_replicate hmem] at hx
  exact absurd hx.1 (Nat.not_lt.mpr hc)

theorem not_mem_spaces (n : Nat) : x ∉ (spaces n).toList := by
  rw [spaces, String.toList_ofList]
  exact hx.not_mem_replicate (by decide) n

theorem not_mem_levelName (l : Level) : x ∉ l.name.toList := by
  cases l with
  | error | note | help => exact hx.not_mem_of_all (by decide)

theorem not_mem_indent (e : Excerpt) : x ∉ e.indent := by
  intro hmem
  obtain rfl | rfl := Excerpt.mem_indent hmem
  · exact absurd hx.1 (by decide)
  · exact hx.2 rfl

end IsControl

def Diagnostic.texts (d : Diagnostic) : List String :=
  d.message :: (d.code.map Code.letters).toList ++ d.notes ++ d.helps

namespace Report

def rowText (row : Row) : String := String.join (row.map Piece.text)

def lines (f : SourceFile) (d : Diagnostic) : List String := (rows f d).map rowText

theorem toList_writeRow (colored : Bool) (row : Row) :
    (writeRow colored row).toList = row.flatMap (fun p => (p.write colored).toList) ++ ['\n'] := by
  simp [writeRow, String.toList_join, List.flatMap_map]

theorem toList_writeRows (colored : Bool) (rows : List Row) :
    (writeRows colored rows).toList = rows.flatMap fun row => (writeRow colored row).toList := by
  rw [writeRows, String.toList_join, List.flatMap_map]

theorem toList_writeRows_plain (rows : List Row) : (writeRows false rows).toList =
    (rows.map fun row => (rowText row).toList).flatMap (· ++ ['\n']) := by
  rw [toList_writeRows, List.flatMap_map]
  simp only [toList_writeRow, rowText, String.toList_join, List.flatMap_map]
  rfl

theorem toList_render_plain (f : SourceFile) (d : Diagnostic) :
    (render false f d).toList = ((lines f d).map String.toList).flatMap (· ++ ['\n']) := by
  rw [render, toList_writeRows_plain, lines, List.map_map]
  rfl

theorem rowText_headerRow (c : Color) (name message : String) :
    rowText (headerRow c name message) = name ++ ": " ++ message := by
  apply String.toList_injective
  simp [rowText, headerRow, painted]

theorem placeRows_eq (width : Nat) (f : SourceFile) {s : Span} (h : s.line ≠ 0) :
    (placeRows width f s).map rowText = [spaces width ++ "--> " ++ f.name ++ ":" ++ s.text] := by
  have hplace : rowText [plain (spaces width), painted .blue "-->",
      plain (" " ++ f.name ++ ":" ++ s.text)] =
      spaces width ++ "--> " ++ f.name ++ ":" ++ s.text := by
    apply String.toList_injective
    simp [rowText, plain, painted]
  rw [placeRows, if_neg h, List.map_singleton, hplace]

theorem excerptRows_eq (width : Nat) (e : Excerpt) :
    (excerptRows width (some e)).map rowText =
      [spaces width ++ " |", e.sourceRow width, e.caretRow width] := by
  have hbar : spaces width ++ " " ++ "|" = spaces width ++ " |" := by
    apply String.toList_injective
    simp
  simp only [excerptRows, plain, painted, List.map_cons, List.map_nil, rowText, String.join_cons,
    String.join_nil, String.append_empty, hbar]

def remarkLine (width : Nat) (level : Level) (text : String) : String :=
  spaces width ++ " = " ++ level.name ++ ": " ++ text

theorem rowText_remarkRow (width : Nat) (level : Level) (text : String) :
    rowText (remarkRow width level text) = remarkLine width level text := by
  apply String.toList_injective
  simp [rowText, remarkRow, remarkLine, plain, painted]

theorem map_rowText_remarks (width : Nat) (level : Level) (texts : List String) :
    (texts.map (remarkRow width level)).map rowText = texts.map (remarkLine width level) := by
  simp only [List.map_map, Function.comp_def, rowText_remarkRow]

theorem sourceRow_gutterWidth (e : Excerpt) :
    e.sourceRow e.gutterWidth = e.number.repr ++ " | " ++ String.ofList e.line := by
  apply String.toList_injective
  simp [Excerpt.sourceRow, Excerpt.gutterWidth, alignRight, spaces]

theorem lines_eq {f : SourceFile} {d : Diagnostic} {e : Excerpt}
    (he : Excerpt.ofSpan? f d.span = some e) :
    lines f d =
      [title d ++ ": " ++ d.message,
        spaces e.gutterWidth ++ "--> " ++ f.name ++ ":" ++ d.span.text,
        spaces e.gutterWidth ++ " |", e.number.repr ++ " | " ++ String.ofList e.line,
        e.caretRow e.gutterWidth] ++
      d.notes.map (remarkLine e.gutterWidth .note) ++
      d.helps.map (remarkLine e.gutterWidth .help) := by
  have hline : d.span.line ≠ 0 := by
    intro hzero
    rw [Excerpt.ofSpan?, hzero] at he
    cases he
  have hwidth : ((some e).map Excerpt.gutterWidth).getD 1 = e.gutterWidth := rfl
  rw [lines, rows, he, hwidth, List.map_append, List.map_append, List.map_append, List.map_cons,
    rowText_headerRow, placeRows_eq _ f hline, excerptRows_eq, sourceRow_gutterWidth,
    map_rowText_remarks, map_rowText_remarks]
  rfl

theorem writeRows_append (colored : Bool) (a b : List Row) :
    writeRows colored (a ++ b) = writeRows colored a ++ writeRows colored b := by
  rw [writeRows, List.map_append, String.join_append]
  rfl

theorem renderAll_eq_writeRows (colored : Bool) (f : SourceFile) (ds : List Diagnostic) :
    renderAll colored f ds = writeRows colored ([[]].intercalate (ds.map (rows f))) := by
  induction ds with
  | nil => rfl
  | cons d ds ih =>
      cases ds with
      | nil =>
          rw [renderAll, List.map_singleton, String.intercalate_singleton, List.map_singleton,
            List.intercalate_singleton]
          rfl
      | cons e ds =>
          have hall : renderAll colored f (d :: e :: ds) =
              render colored f d ++ "\n" ++ renderAll colored f (e :: ds) :=
            String.intercalate_cons_cons
          have hrows : [[]].intercalate ((d :: e :: ds).map (rows f)) =
              rows f d ++ [[]] ++ [[]].intercalate ((e :: ds).map (rows f)) :=
            List.intercalate_cons_cons
          rw [hall, hrows, ih, writeRows_append, writeRows_append]
          rfl

theorem mem_intercalate_rows {f : SourceFile} {ds : List Diagnostic} {row : Row}
    (h : row ∈ [[]].intercalate (ds.map (rows f))) : row = [] ∨ ∃ d ∈ ds, row ∈ rows f d := by
  induction ds with
  | nil => cases h
  | cons d ds ih =>
      cases ds with
      | nil =>
          rw [List.map_singleton, List.intercalate_singleton] at h
          exact .inr ⟨d, List.mem_singleton_self d, h⟩
      | cons e ds =>
          rw [List.map_cons, List.map_cons, List.intercalate_cons_cons, List.mem_append,
            List.mem_append, List.mem_singleton] at h
          obtain (h | h) | h := h
          · exact .inr ⟨d, List.mem_cons_self, h⟩
          · exact .inl h
          · obtain h | ⟨d', hd', h⟩ := ih h
            · exact .inl h
            · exact .inr ⟨d', List.mem_cons_of_mem _ hd', h⟩

/-- A character that none of the pieces of a row has. -/
def Lacks (x : Char) (row : Row) : Prop := ∀ p ∈ row, x ∉ p.text.toList

variable {x : Char} (hx : IsControl x)

include hx

theorem lacks_headerRow {name message : String} (c : Color) (hn : x ∉ name.toList)
    (hm : x ∉ message.toList) : Lacks x (headerRow c name message) := by
  have hcolon : x ∉ ": ".toList := hx.not_mem_of_all (by decide)
  simp only [Lacks, headerRow, painted, List.forall_mem_cons, String.toList_append, List.mem_append]
  exact ⟨hn, not_or_intro hcolon hm, by simp⟩

theorem lacks_title {d : Diagnostic} (h : ∀ s ∈ d.texts, x ∉ s.toList) : x ∉ (title d).toList := by
  have hname := hx.not_mem_levelName d.level
  have hopen : x ∉ "[".toList := hx.not_mem_of_all (by decide)
  have hclose : x ∉ "]".toList := hx.not_mem_of_all (by decide)
  unfold title
  cases hcode : d.code with
  | none => exact hname
  | some code =>
      have hletters := h code.letters (by simp [Diagnostic.texts, hcode])
      have hzeros := hx.not_mem_replicate (c := '0') (by decide) (4 - code.number.repr.length)
      have hdigits := hx.not_mem_repr code.number
      simp only [Code.text, String.toList_append, String.toList_ofList, List.mem_append]
      grind

theorem lacks_placeRows {f : SourceFile} (hname : x ∉ f.name.toList) (width : Nat) (s : Span) :
    ∀ row ∈ placeRows width f s, Lacks x row := by
  have hblank : x ∉ " ".toList := hx.not_mem_of_all (by decide)
  have harrow : x ∉ "-->".toList := hx.not_mem_of_all (by decide)
  have hcolon : x ∉ ":".toList := hx.not_mem_of_all (by decide)
  have hspaces := hx.not_mem_spaces width
  have hline := hx.not_mem_repr s.line
  have hcolumn := hx.not_mem_repr s.column
  unfold placeRows
  split
  · simp
  · simp only [List.forall_mem_cons, Lacks, plain, painted, Span.text, String.toList_append,
      List.mem_append]
    refine ⟨⟨hspaces, harrow, ?_, by simp⟩, by simp⟩
    grind

theorem lacks_excerptRows {e : Excerpt} (hline : x ∉ e.line) (width : Nat) :
    ∀ row ∈ excerptRows width (some e), Lacks x row := by
  have hblank : x ∉ " ".toList := hx.not_mem_of_all (by decide)
  have hbar : x ∉ "|".toList := hx.not_mem_of_all (by decide)
  have hgutter : x ∉ " | ".toList := hx.not_mem_of_all (by decide)
  have hspaces := hx.not_mem_spaces
  have hnumber := hx.not_mem_repr e.number
  have hindent := hx.not_mem_indent e
  have hcarets : x ∉ e.carets := hx.not_mem_replicate (by decide) _
  simp only [excerptRows, List.forall_mem_cons, Lacks, plain, painted, Excerpt.sourceRow,
    Excerpt.caretRow, alignRight, String.toList_append, String.toList_ofList, List.mem_append]
  grind

theorem lacks_remarkRow {text : String} (htext : x ∉ text.toList) (width : Nat) (level : Level) :
    Lacks x (remarkRow width level text) := by
  have hblank : x ∉ " ".toList := hx.not_mem_of_all (by decide)
  have hequal : x ∉ "=".toList := hx.not_mem_of_all (by decide)
  have hcolon : x ∉ ": ".toList := hx.not_mem_of_all (by decide)
  have hspaces := hx.not_mem_spaces width
  have hname := hx.not_mem_levelName level
  simp only [remarkRow, List.forall_mem_cons, Lacks, plain, painted, String.toList_append,
    List.mem_append]
  grind

theorem lacks_rows {f : SourceFile} {d : Diagnostic} (hname : x ∉ f.name.toList)
    (hline : ∀ line, f.line? d.span.line = some line → x ∉ line)
    (htexts : ∀ s ∈ d.texts, x ∉ s.toList) : ∀ row ∈ rows f d, Lacks x row := by
  intro row hrow
  rw [rows, List.cons_append, List.cons_append, List.cons_append, List.mem_cons, List.mem_append,
    List.mem_append, List.mem_append] at hrow
  obtain rfl | ((hrow | hrow) | hrow) | hrow := hrow
  · exact lacks_headerRow hx _ (lacks_title hx htexts) (htexts _ (by simp [Diagnostic.texts]))
  · exact lacks_placeRows hx hname _ _ row hrow
  · cases he : Excerpt.ofSpan? f d.span with
    | none =>
        rw [he] at hrow
        cases hrow
    | some e =>
        obtain ⟨line, hfound, rfl⟩ := Option.map_eq_some_iff.mp he
        rw [he] at hrow
        exact lacks_excerptRows hx (hline line hfound) _ row hrow
  · obtain ⟨note, hnote, rfl⟩ := List.mem_map.mp hrow
    exact lacks_remarkRow hx (htexts note (by simp [Diagnostic.texts, hnote])) _ _
  · obtain ⟨help, hhelp, rfl⟩ := List.mem_map.mp hrow
    exact lacks_remarkRow hx (htexts help (by simp [Diagnostic.texts, hhelp])) _ _

theorem lacks_closingRows {name : String} (count : Nat) (hname : x ∉ name.toList) :
    ∀ row ∈ closingRows count name, Lacks x row := by
  have herror : x ∉ Level.error.name.toList := hx.not_mem_levelName .error
  have haborting : x ∉ "aborting due to ".toList := hx.not_mem_of_all (by decide)
  have hprevious : x ∉ " previous error".toList := hx.not_mem_of_all (by decide)
  have hplural : x ∉ (if count = 1 then "" else "s").toList := by
    split
    · exact hx.not_mem_of_all (by decide)
    · exact hx.not_mem_of_all (by decide)
  have hcould : x ∉ "could not tokenize `".toList := hx.not_mem_of_all (by decide)
  have hquote : x ∉ "`".toList := hx.not_mem_of_all (by decide)
  have hcount := hx.not_mem_repr count
  simp only [closingRows, List.forall_mem_cons]
  refine ⟨lacks_headerRow hx _ herror ?_, by simp [Lacks], lacks_headerRow hx _ herror ?_, by simp⟩
  · simp only [String.toList_append, List.mem_append]
    grind
  · simp only [String.toList_append, List.mem_append]
    grind

end Report

end ScriptScan
