import Mathlib.Data.List.Induction
import ScriptScan.Proofs.Bytes
import ScriptScan.SourceFile
import ScriptScan.Span

namespace ScriptScan

open Text

namespace Location

theorem advance_cons (p : Location) (c : Char) (cs : List Char) :
    p.advance (c :: cs) = (p.step c).advance cs := rfl

theorem line_step_newline (p : Location) : (p.step '\n').line = p.line + 1 := rfl

theorem line_step_of_ne (p : Location) {c : Char} (h : c ≠ '\n') : (p.step c).line = p.line := by
  rw [step, if_neg h]

theorem column_step_newline (p : Location) : (p.step '\n').column = 1 := rfl

theorem column_step_of_ne (p : Location) {c : Char} (h : c ≠ '\n') :
    (p.step c).column = p.column + 1 := by
  rw [step, if_neg h]

theorem line_advance (p : Location) (cs : List Char) :
    (p.advance cs).line = p.line + cs.count '\n' := by
  induction cs generalizing p with
  | nil => rfl
  | cons c cs ih =>
      rw [advance_cons, ih]
      by_cases hc : c = '\n'
      · subst c
        rw [List.count_cons_self, line_step_newline]
        omega
      · rw [List.count_cons_of_ne hc, line_step_of_ne p hc]

theorem column_advance_of_not_mem (p : Location) {cs : List Char} (h : '\n' ∉ cs) :
    (p.advance cs).column = p.column + cs.length := by
  induction cs generalizing p with
  | nil => rfl
  | cons c cs ih =>
      have hc : c ≠ '\n' := fun he => h (he ▸ List.mem_cons_self)
      have hcs : '\n' ∉ cs := fun hm => h (List.mem_cons_of_mem _ hm)
      rw [advance_cons, ih _ hcs, column_step_of_ne p hc, List.length_cons]
      omega

theorem column_advance_append_newline (p : Location) (cs : List Char) :
    (p.advance (cs ++ ['\n'])).column = 1 := by
  rw [advance_append]
  rfl

theorem column_advance_le (p : Location) (cs : List Char) (h : 1 ≤ p.column) :
    (p.advance cs).column ≤ p.column + cs.length := by
  induction cs generalizing p with
  | nil => exact Nat.le_refl _
  | cons c cs ih =>
      rw [advance_cons, List.length_cons]
      by_cases hc : c = '\n'
      · subst c
        have hle := ih (p.step '\n') (Nat.le_refl 1)
        rw [column_step_newline] at hle
        omega
      · have hstep := column_step_of_ne p hc
        have hle := ih (p.step c) (by omega)
        omega

end Location

/-- A text that ends where a line starts: it is empty, or its last character is a line feed. -/
def EndsLine (cs : List Char) : Prop := cs = [] ∨ ∃ body, cs = body ++ ['\n']

theorem EndsLine.column_advance {cs : List Char} (h : EndsLine cs) :
    (Location.start.advance cs).column = 1 := by
  obtain rfl | ⟨body, rfl⟩ := h
  · rfl
  · exact Location.column_advance_append_newline _ body

theorem exists_endsLine_append (cs : List Char) :
    ∃ whole last, cs = whole ++ last ∧ EndsLine whole ∧ '\n' ∉ last := by
  induction cs using List.reverseRecOn with
  | nil => exact ⟨[], [], rfl, .inl rfl, by simp⟩
  | append_singleton cs c ih =>
      by_cases hc : c = '\n'
      · subst c
        exact ⟨cs ++ ['\n'], [], by simp, .inr ⟨cs, rfl⟩, by simp⟩
      · obtain ⟨whole, last, hcs, hwhole, hlast⟩ := ih
        refine ⟨whole, last ++ [c], by simp [hcs], hwhole, ?_⟩
        simp [hlast, Ne.symm hc]

namespace SourceFile

theorem startsAfter_append (n : Nat) (a b : List Char) :
    startsAfter n (a ++ b) = startsAfter n a ++ startsAfter (n + byteSize a) b := by
  induction a generalizing n with
  | nil => rfl
  | cons c a ih =>
      have hsize : n + byteSize (c :: a) = n + c.utf8Size + byteSize a := by
        rw [byteSize, Nat.add_assoc]
      rw [List.cons_append, startsAfter, startsAfter, ih, hsize]
      by_cases hc : c = '\n'
      · simp [hc]
      · simp [hc]

theorem length_startsAfter (n : Nat) (cs : List Char) :
    (startsAfter n cs).length = cs.count '\n' := by
  induction cs generalizing n with
  | nil => rfl
  | cons c cs ih =>
      rw [startsAfter]
      by_cases hc : c = '\n'
      · subst c
        rw [if_pos rfl, List.length_cons, List.count_cons_self, ih]
      · rw [if_neg hc, List.count_cons_of_ne hc, ih]

theorem mem_startsAfter_bounds {n x : Nat} {cs : List Char} (h : x ∈ startsAfter n cs) :
    n ≤ x ∧ x ≤ n + byteSize cs := by
  induction cs generalizing n with
  | nil => cases h
  | cons c cs ih =>
      rw [startsAfter] at h
      rw [byteSize]
      by_cases hc : c = '\n'
      · rw [if_pos hc] at h
        obtain rfl | h := List.mem_cons.mp h
        · omega
        · have hx := ih h
          omega
      · rw [if_neg hc] at h
        have hx := ih h
        omega

theorem le_of_mem_startsAfter_cons {n x : Nat} {c : Char} {cs : List Char}
    (h : x ∈ startsAfter n (c :: cs)) : n + c.utf8Size ≤ x := by
  rw [startsAfter] at h
  by_cases hc : c = '\n'
  · rw [if_pos hc] at h
    obtain rfl | h := List.mem_cons.mp h
    · exact Nat.le_refl _
    · exact (mem_startsAfter_bounds h).1
  · rw [if_neg hc] at h
    exact (mem_startsAfter_bounds h).1

theorem lineCount_eq (f : SourceFile) : f.lineCount = f.chars.count '\n' + 1 := by
  rw [lineCount, lineStarts, List.length_cons, length_startsAfter]

/-- Between the end of `pre` and the end of the next character, the line is the number of line
feeds in `pre`. -/
theorem lineIndex_eq {f : SourceFile} {pre rest : List Char} {offset : Nat}
    (h : f.chars = pre ++ rest) (hle : byteSize pre ≤ offset)
    (hlt : ∀ c ∈ rest.head?, offset < byteSize pre + c.utf8Size) :
    f.lineIndex offset = pre.count '\n' := by
  have hpre : (startsAfter 0 pre).countP (· ≤ offset) = pre.count '\n' := by
    rw [← length_startsAfter 0 pre, List.countP_eq_length]
    intro x hx
    have hx := (mem_startsAfter_bounds hx).2
    exact decide_eq_true (by omega)
  have hrest : (startsAfter (byteSize pre) rest).countP (· ≤ offset) = 0 := by
    rw [List.countP_eq_zero]
    intro x hx
    cases rest with
    | nil => cases hx
    | cons c rest =>
        have hx := le_of_mem_startsAfter_cons hx
        have hc := hlt c rfl
        simp only [decide_eq_true_eq]
        omega
  rw [lineIndex, lineStarts, h, startsAfter_append, List.countP_cons, List.countP_append,
    Nat.zero_add, hpre, hrest]
  simp

theorem getD_lineStarts {f : SourceFile} {whole rest : List Char} (h : f.chars = whole ++ rest)
    (hwhole : EndsLine whole) : f.lineStarts.getD (whole.count '\n') 0 = byteSize whole := by
  rw [lineStarts, h, startsAfter_append]
  obtain rfl | ⟨body, rfl⟩ := hwhole
  · rfl
  · have hcount : (body ++ ['\n']).count '\n' = (startsAfter 0 body).length + 1 := by
      rw [List.count_append, length_startsAfter]
      rfl
    have hlast : startsAfter (0 + byteSize body) ['\n'] = [byteSize (body ++ ['\n'])] := by
      rw [byteSize_append, Nat.zero_add]
      rfl
    rw [hcount, startsAfter_append, hlast, List.getD_cons_succ]
    simp

theorem lineColumn_byteSize {f : SourceFile} {pre rest : List Char} (h : f.chars = pre ++ rest) :
    f.lineColumn (byteSize pre) =
      ((Location.start.advance pre).line, (Location.start.advance pre).column) := by
  have hline : f.lineIndex (byteSize pre) = pre.count '\n' :=
    lineIndex_eq h (Nat.le_refl _) fun c _ => Nat.lt_add_of_pos_right c.utf8Size_pos
  obtain ⟨whole, last, rfl, hwhole, hlast⟩ := exists_endsLine_append pre
  have hcount : (whole ++ last).count '\n' = whole.count '\n' := by
    rw [List.count_append, List.count_eq_zero_of_not_mem hlast, Nat.add_zero]
  have hstart : f.lineStarts.getD (whole.count '\n') 0 = byteSize whole :=
    getD_lineStarts (h.trans (List.append_assoc _ _ _)) hwhole
  have hpiece : slice? f.chars (byteSize whole) (byteSize (whole ++ last)) = some last := by
    rw [h]
    exact slice?_append whole last rest
  have hcolumn : (Location.start.advance (whole ++ last)).column = last.length + 1 := by
    rw [Location.advance_append, Location.column_advance_of_not_mem _ hlast, hwhole.column_advance,
      Nat.add_comm]
  rw [lineColumn, hline, hcount]
  simp only [hstart, hpiece]
  rw [hcolumn, Location.line_advance, hcount, Nat.add_comm]
  rfl

end SourceFile

end ScriptScan
