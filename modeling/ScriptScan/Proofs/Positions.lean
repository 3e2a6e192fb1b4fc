import Mathlib.Algebra.Group.Nat.Defs
import ScriptScan.Proofs.Items
import ScriptScan.Proofs.LineTable

namespace ScriptScan

namespace Cursor

/-- The cursor stands after `read`, the part of its text that it has moved over. -/
structure HasRead (k : Cursor) (read : List Char) : Prop where
  source : k.source = read ++ k.rest
  location : k.location = Location.start.advance read

theorem hasRead_ofList (cs : List Char) : (ofList cs).HasRead [] := ⟨rfl, rfl⟩

theorem source_advance (k : Cursor) : k.advance.source = k.source := by
  unfold advance
  split
  · rfl
  · rfl

theorem HasRead.advance {k : Cursor} {read : List Char} (h : k.HasRead read) :
    k.advance.HasRead (read ++ k.rest.take 1) := by
  obtain ⟨source, rest, location⟩ := k
  obtain ⟨hs, hl⟩ := h
  dsimp only at hs hl
  cases rest with
  | nil => exact ⟨by simpa [Cursor.advance] using hs, by simpa [Cursor.advance] using hl⟩
  | cons c rest =>
      refine ⟨by simpa [Cursor.advance] using hs, ?_⟩
      rw [List.take_succ_cons, List.take_zero, Location.advance_append, ← hl]
      rfl

theorem source_advanceBy (k : Cursor) (n : Nat) : (k.advanceBy n).source = k.source := by
  induction n generalizing k with
  | zero => rfl
  | succ n ih => rw [advanceBy, ih, source_advance]

theorem HasRead.advanceBy {k : Cursor} {read : List Char} (h : k.HasRead read) (n : Nat) :
    (k.advanceBy n).HasRead (read ++ k.rest.take n) := by
  induction n generalizing k read with
  | zero => simpa [Cursor.advanceBy] using h
  | succ n ih =>
      have hstep := ih h.advance
      have htake : k.rest.take 1 ++ k.rest.tail.take n = k.rest.take (n + 1) := by
        rw [Nat.add_comm, List.take_add, List.drop_one]
      rwa [rest_advance, List.append_assoc, htake] at hstep

end Cursor

namespace Scanner

def Stands (source : String) (s : Scanner) : Prop :=
  s.cursor.source = source.toList ∧ ∃ read, s.cursor.HasRead read

theorem stands_ofString (log : Log) (source : String) : (ofString log source).Stands source :=
  ⟨rfl, [], Cursor.hasRead_ofList _⟩

theorem Stands.advanceBy {source : String} {s : Scanner} (h : s.Stands source) (n : Nat)
    (log : Log) : Stands source { s with cursor := s.cursor.advanceBy n, log := log } := by
  obtain ⟨hs, read, hr⟩ := h
  exact ⟨(s.cursor.source_advanceBy n).trans hs, _, hr.advanceBy n⟩

theorem Stands.nextToken {source : String} {s : Scanner} (h : s.Stands source) :
    s.nextToken.2.Stands source := by
  fun_induction Scanner.nextToken s with
  | case1 s hr => exact h
  | case2 s c cs hr m cursor hm ih => exact ih (h.advanceBy _ s.log)
  | case3 s c cs hr m cursor t hm => exact h.advanceBy _ s.log
  | case4 s c cs hr m cursor d hm ih => exact ih (h.advanceBy _ _)

theorem Stands.next? {source : String} {s : Scanner} (h : s.Stands source) :
    s.next?.2.Stands source := by
  unfold Scanner.next?
  split
  · exact h
  · exact h.nextToken

inductive Call where
  | nextToken
  | next

def answer (s : Scanner) : Call → Scanner
  | .nextToken => s.nextToken.2
  | .next => s.next?.2

def run (s : Scanner) (calls : List Call) : Scanner := calls.foldl answer s

theorem Stands.answer {source : String} {s : Scanner} (h : s.Stands source) (call : Call) :
    (s.answer call).Stands source := by
  cases call with
  | nextToken => exact h.nextToken
  | next => exact h.next?

theorem Stands.run {source : String} {s : Scanner} (h : s.Stands source) (calls : List Call) :
    (s.run calls).Stands source := by
  induction calls generalizing s with
  | nil => exact h
  | cons call calls ih => exact ih (h.answer call)

theorem Stands.lineColumn {source : String} {s : Scanner} (h : s.Stands source) (name : String) :
    SourceFile.lineColumn ⟨name, source⟩ s.cursor.location.offset =
      (s.cursor.location.line, s.cursor.location.column) := by
  obtain ⟨hs, read, hr⟩ := h
  have hchars : SourceFile.chars ⟨name, source⟩ = read ++ s.cursor.rest :=
    hs.symm.trans hr.source
  rw [hr.location, Location.offset_start_advance, SourceFile.lineColumn_byteSize hchars]

end Scanner

theorem lineColumn_of_mem_itemsFrom (name : String) {source : String} {i : Item}
    (h : i ∈ itemsFrom .start source.toList) :
    SourceFile.lineColumn ⟨name, source⟩ i.span.start = (i.span.line, i.span.column) := by
  obtain ⟨pre, c, rest, hs, hi⟩ := mem_itemsFrom_iff.mp h
  have hchars : SourceFile.chars ⟨name, source⟩ = pre ++ c :: rest := hs.append_eq.symm
  rw [Item.span_ofMunch? hi, Munch.span_start_advance, SourceFile.lineColumn_byteSize hchars]
  rfl

theorem lineColumn_atEnd (name source : String) :
    let t := Token.atEnd (Location.start.advance source.toList)
    SourceFile.lineColumn ⟨name, source⟩ t.span.start = (t.span.line, t.span.column) := by
  have hchars : SourceFile.chars ⟨name, source⟩ = source.toList ++ [] := (List.append_nil _).symm
  have hstart : (Token.atEnd (Location.start.advance source.toList)).span.start =
      Text.byteSize source.toList := Location.offset_start_advance _
  dsimp only
  rw [hstart, SourceFile.lineColumn_byteSize hchars]
  rfl

theorem counters_le (cs : List Char) :
    (Location.start.advance cs).line ≤ cs.length + 1 ∧
      (Location.start.advance cs).column ≤ cs.length + 1 := by
  have hline := Location.line_advance .start cs
  have hcount : cs.count '\n' ≤ cs.length := List.count_le_length
  have hcolumn := Location.column_advance_le .start cs (Nat.le_refl 1)
  have hstart : Location.start.line = 1 ∧ Location.start.column = 1 := ⟨rfl, rfl⟩
  omega

/-- The places of all tokens and diagnostics, and of a scanner between any two calls, are the ones
the line table gives. The bound on the text is what keeps the counters within 32 bits, wherever
in the text they are read. -/
theorem positions_agree_with_line_table (name source : String) (h : source.length < 2 ^ 32 - 1) :
    let file : SourceFile := ⟨name, source⟩
    (∀ t ∈ (scan source).tokens, (t.span.line, t.span.column) = file.lineColumn t.span.start) ∧
    (∀ d ∈ (scan source).diagnostics,
      (d.span.line, d.span.column) = file.lineColumn d.span.start) ∧
    (∃ t, (scan source).tokens = (scan source).words ++ [t] ∧ t.kind = .eof ∧
      t.span.line = file.lineCount) ∧
    (∀ (log : Log) (calls : List Scanner.Call),
      let p := ((Scanner.ofString log source).run calls).cursor.location
      (p.line, p.column) = file.lineColumn p.offset) ∧
    ∀ pre, pre <+: source.toList →
      (Location.start.advance pre).line < 2 ^ 32 ∧
        (Location.start.advance pre).column < 2 ^ 32 := by
  dsimp only
  refine ⟨?_, ?_, ?_, ?_, ?_⟩
  · intro t ht
    rw [tokens_scan, List.mem_append, List.mem_singleton] at ht
    obtain ht | rfl := ht
    · exact (lineColumn_of_mem_itemsFrom name (mem_words_scan.mp ht)).symm
    · exact (lineColumn_atEnd name source).symm
  · intro d hd
    exact (lineColumn_of_mem_itemsFrom name (mem_diagnostics_scan.mp hd)).symm
  · refine ⟨_, tokens_scan source, rfl, ?_⟩
    rw [SourceFile.lineCount_eq, Nat.add_comm]
    exact Location.line_advance .start source.toList
  · intro log calls
    exact (((Scanner.stands_ofString log source).run calls).lineColumn name).symm
  · intro pre hpre
    have hlength := hpre.length_le
    have hcounters := counters_le pre
    rw [String.length_toList] at hlength
    omega

/-- A text with a line feed inside a string, characters of two bytes, and a mistake. -/
theorem positions_agree_across_string_lines :
    "\"é\n\" é\n+".length < 2 ^ 32 - 1 ∧
      (∀ t ∈ (scan "\"é\n\" é\n+").tokens, (t.span.line, t.span.column) =
        SourceFile.lineColumn ⟨"page", "\"é\n\" é\n+"⟩ t.span.start) ∧
      ∀ d ∈ (scan "\"é\n\" é\n+").diagnostics, (d.span.line, d.span.column) =
        SourceFile.lineColumn ⟨"page", "\"é\n\" é\n+"⟩ d.span.start := by
  have h : "\"é\n\" é\n+".length < 2 ^ 32 - 1 := by decide
  obtain ⟨htokens, hdiagnostics, -⟩ := positions_agree_with_line_table "page" _ h
  exact ⟨h, htokens, hdiagnostics⟩

end ScriptScan
