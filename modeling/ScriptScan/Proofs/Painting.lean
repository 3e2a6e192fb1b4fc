import ScriptScan.Proofs.Lines
import ScriptScan.Proofs.Rows

namespace ScriptScan.Report

def isParameter (c : Char) : Bool := c.isDigit || c = ';'

def afterSequence? : List Char → Option (List Char)
  | '\x1b' :: '[' :: cs =>
      match cs.dropWhile isParameter with
      | 'm' :: rest => some rest
      | _ => none
  | _ => none

theorem length_lt_of_afterSequence? {cs rest : List Char} (h : afterSequence? cs = some rest) :
    rest.length < cs.length := by
  unfold afterSequence? at h
  split at h
  · rename_i cs
    split at h
    · rename_i rest' hdrop
      cases h
      have hle := (List.dropWhile_suffix isParameter (l := cs)).length_le
      rw [hdrop, List.length_cons] at hle
      simp only [List.length_cons]
      omega
    · cases h
  · cases h

def withoutSequences : List Char → List Char
  | [] => []
  | c :: cs =>
      match _h : afterSequence? (c :: cs) with
      | some rest => withoutSequences rest
      | none => c :: withoutSequences cs
termination_by cs => cs.length
decreasing_by
  · exact length_lt_of_afterSequence? _h
  · exact Nat.lt_succ_self _

theorem withoutSequences_cons {c : Char} (hc : c ≠ '\x1b') (cs : List Char) :
    withoutSequences (c :: cs) = c :: withoutSequences cs := by
  have hnone : afterSequence? (c :: cs) = none := by
    unfold afterSequence?
    split
    · rename_i heq
      exact absurd (List.cons.inj heq).1 hc
    · rfl
  rw [withoutSequences]
  split
  · rename_i hsome
    rw [hnone] at hsome
    cases hsome
  · rfl

theorem withoutSequences_append {cs : List Char} (h : '\x1b' ∉ cs) (rest : List Char) :
    withoutSequences (cs ++ rest) = cs ++ withoutSequences rest := by
  induction cs with
  | nil => rfl
  | cons c cs ih =>
      have hc : c ≠ '\x1b' := fun he => h (he ▸ List.mem_cons_self)
      have hcs : '\x1b' ∉ cs := fun hmem => h (List.mem_cons_of_mem _ hmem)
      rw [List.cons_append, withoutSequences_cons hc, ih hcs, List.cons_append]

theorem withoutSequences_sequence {parameters : List Char}
    (h : ∀ c ∈ parameters, isParameter c = true) (rest : List Char) :
    withoutSequences ('\x1b' :: '[' :: (parameters ++ 'm' :: rest)) = withoutSequences rest := by
  have hdrop : (parameters ++ 'm' :: rest).dropWhile isParameter = 'm' :: rest := by
    rw [List.dropWhile_append_of_pos h]
    rfl
  have hsome : afterSequence? ('\x1b' :: '[' :: (parameters ++ 'm' :: rest)) = some rest := by
    simp only [afterSequence?, hdrop]
  rw [withoutSequences]
  split
  · rename_i hsome'
    rw [hsome, Option.some_inj] at hsome'
    rw [hsome']
  · rename_i hnone
    rw [hsome] at hnone
    cases hnone

theorem isParameter_sgr (c : Color) : ∀ d ∈ c.sgr.toList, isParameter d = true := by
  rw [← List.all_eq_true]
  cases c with
  | red | green | blue | cyan | standard => decide

theorem withoutSequences_write (colored : Bool) {p : Piece} (hp : '\x1b' ∉ p.text.toList)
    (rest : List Char) :
    withoutSequences ((p.write colored).toList ++ rest) =
      p.text.toList ++ withoutSequences rest := by
  obtain ⟨color, text⟩ := p
  cases colored with
  | false => exact withoutSequences_append hp rest
  | true =>
      cases color with
      | none => exact withoutSequences_append hp rest
      | some c =>
          have hopen : ∀ d ∈ '1' :: ';' :: c.sgr.toList, isParameter d = true := by
            simp only [List.forall_mem_cons]
            exact ⟨rfl, rfl, isParameter_sgr c⟩
          have hclose : ∀ d ∈ ['0'], isParameter d = true := List.forall_mem_singleton.mpr rfl
          have hsplit : ((Piece.write true ⟨some c, text⟩).toList ++ rest) =
              '\x1b' :: '[' :: (('1' :: ';' :: c.sgr.toList) ++ 'm' ::
                (text.toList ++ '\x1b' :: '[' :: (['0'] ++ 'm' :: rest))) := by
            simp [Piece.write]
          rw [hsplit, withoutSequences_sequence hopen, withoutSequences_append hp,
            withoutSequences_sequence hclose]

theorem withoutSequences_pieces (colored : Bool) {row : Row} (h : Lacks '\x1b' row)
    (rest : List Char) :
    withoutSequences (row.flatMap (fun p => (p.write colored).toList) ++ rest) =
      row.flatMap (·.text.toList) ++ withoutSequences rest := by
  induction row with
  | nil => rfl
  | cons p row ih =>
      have hp : '\x1b' ∉ p.text.toList := h p List.mem_cons_self
      have hrow : Lacks '\x1b' row := fun q hq => h q (List.mem_cons_of_mem _ hq)
      rw [List.flatMap_cons, List.append_assoc, withoutSequences_write colored hp, ih hrow,
        List.flatMap_cons, List.append_assoc]

theorem withoutSequences_writeRows (colored : Bool) {rows : List Row}
    (h : ∀ row ∈ rows, Lacks '\x1b' row) :
    withoutSequences (writeRows colored rows).toList = (writeRows false rows).toList := by
  rw [toList_writeRows, toList_writeRows]
  induction rows with
  | nil => rw [List.flatMap_nil, List.flatMap_nil, withoutSequences]
  | cons row rows ih =>
      have hrow : Lacks '\x1b' row := h row List.mem_cons_self
      have hrows : ∀ r ∈ rows, Lacks '\x1b' r := fun r hr => h r (List.mem_cons_of_mem _ hr)
      rw [List.flatMap_cons, List.flatMap_cons, toList_writeRow, toList_writeRow, List.append_assoc,
        withoutSequences_pieces colored hrow, List.singleton_append,
        withoutSequences_cons (by decide), ih hrows, List.append_assoc]
      rfl

theorem escape_mem_writeRows (c : Color) (name message : String) (rows : List Row) :
    '\x1b' ∈ (writeRows true (headerRow c name message :: rows)).toList := by
  simp [toList_writeRows, toList_writeRow, headerRow, painted, Piece.write]

/-- Colours add escape sequences only. Once these are deleted from what is rendered, with colours
or without, the plain rendering is left, whatever the diagnostics, their places, the source and the
names are, as long as no escape character is among their texts. -/
theorem color_adds_only_sequences (choice : ColorChoice) (terminal : Bool) (f : SourceFile)
    (ds : List Diagnostic) (count : Nat) (name : String) (hfile : '\x1b' ∉ f.name.toList)
    (hcontent : '\x1b' ∉ f.content.toList) (hds : ∀ d ∈ ds, ∀ s ∈ d.texts, '\x1b' ∉ s.toList)
    (hname : '\x1b' ∉ name.toList) :
    let colored := choice.enabled terminal
    (∀ d ∈ ds, withoutSequences (render colored f d).toList = (render false f d).toList) ∧
      withoutSequences (renderAll colored f ds).toList = (renderAll false f ds).toList ∧
      withoutSequences (renderClosing colored count name).toList =
        (renderClosing false count name).toList ∧
      (colored = true → (∀ d ∈ ds, '\x1b' ∈ (render colored f d).toList) ∧
        '\x1b' ∈ (renderClosing colored count name).toList) := by
  have hrows : ∀ d ∈ ds, ∀ row ∈ rows f d, Lacks '\x1b' row := by
    intro d hd
    refine lacks_rows isControl_escape hfile ?_ (hds d hd)
    intro line hline hmem
    exact hcontent (SourceFile.mem_of_line? hline hmem).1
  dsimp only
  refine ⟨?_, ?_, ?_, ?_⟩
  · intro d hd
    exact withoutSequences_writeRows _ (hrows d hd)
  · rw [renderAll_eq_writeRows, renderAll_eq_writeRows]
    refine withoutSequences_writeRows _ ?_
    intro row hrow
    obtain rfl | ⟨d, hd, hrow⟩ := mem_intercalate_rows hrow
    · intro p hp
      cases hp
    · exact hrows d hd row hrow
  · exact withoutSequences_writeRows _ (lacks_closingRows isControl_escape count hname)
  · intro hcolored
    rw [hcolored]
    exact ⟨fun d _ => escape_mem_writeRows _ _ _ _, escape_mem_writeRows _ _ _ _⟩

/-- Texts that look like the inside of sequences, a place before its own start, and no place. -/
theorem color_adds_only_sequences_to_brackets :
    let f : SourceFile := ⟨"[0m", "[1;31m\n\t3;m"⟩
    let ds : List Diagnostic := [⟨.note, "[1m", some ⟨"[", 7⟩, ⟨9, 2, 2, 5⟩, [";m", "[m"], ["0m"]⟩,
      ⟨.error, "m", none, Span.nowhere, [], []⟩]
    ('\x1b' ∉ f.name.toList ∧ '\x1b' ∉ f.content.toList ∧
      (∀ d ∈ ds, ∀ s ∈ d.texts, '\x1b' ∉ s.toList) ∧ '\x1b' ∉ "[32m".toList) ∧
    withoutSequences (renderAll true f ds).toList = (renderAll false f ds).toList ∧
    withoutSequences (renderClosing true 2 "[32m").toList = (renderClosing false 2 "[32m").toList ∧
    renderClosing true 2 "[32m" ≠ renderClosing false 2 "[32m" := by
  intro f ds
  have hfile : '\x1b' ∉ f.name.toList := by decide
  have hcontent : '\x1b' ∉ f.content.toList := by decide
  have hds : ∀ d ∈ ds, ∀ s ∈ d.texts, '\x1b' ∉ s.toList := by decide
  have hname : '\x1b' ∉ "[32m".toList := by decide
  obtain ⟨-, hall, hclosing, -⟩ :=
    color_adds_only_sequences .always false f ds 2 "[32m" hfile hcontent hds hname
  exact ⟨⟨hfile, hcontent, hds, hname⟩, hall, hclosing, by decide⟩

end ScriptScan.Report
