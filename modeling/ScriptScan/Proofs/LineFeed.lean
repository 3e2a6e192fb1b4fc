import ScriptScan.Proofs.Inert
import ScriptScan.Proofs.Items
import ScriptScan.Proofs.LineTable

namespace ScriptScan

open Text

attribute [ext] Location

def Location.shift (bytes lines : Nat) (p : Location) : Location :=
  ⟨p.offset + bytes, p.line + lines, p.column⟩

def Span.shift (bytes lines : Nat) (s : Span) : Span :=
  ⟨s.start + bytes, s.stop + bytes, s.line + lines, s.column⟩

def Token.shift (bytes lines : Nat) (t : Token) : Token :=
  { t with span := t.span.shift bytes lines }

def Diagnostic.shift (bytes lines : Nat) (d : Diagnostic) : Diagnostic :=
  { d with span := d.span.shift bytes lines }

def Item.shift (bytes lines : Nat) : Item → Item
  | token t => token (t.shift bytes lines)
  | fault d => fault (d.shift bytes lines)

section Shift

variable (bytes lines : Nat)

theorem Location.step_shift (p : Location) (c : Char) :
    (p.shift bytes lines).step c = (p.step c).shift bytes lines := by
  by_cases hc : c = '\n'
  · subst c
    apply Location.ext
    · simp only [offset_step, shift]
      omega
    · simp only [line_step_newline, shift]
      omega
    · rfl
  · apply Location.ext
    · simp only [offset_step, shift]
      omega
    · simp only [line_step_of_ne _ hc, shift]
    · simp only [column_step_of_ne _ hc, shift]

theorem Location.advance_shift (p : Location) (cs : List Char) :
    (p.shift bytes lines).advance cs = (p.advance cs).shift bytes lines := by
  induction cs generalizing p with
  | nil => rfl
  | cons c cs ih => rw [advance_cons, step_shift, ih, advance_cons]

theorem Munch.stop_shift (m : Munch) (p : Location) (c : Char) :
    m.stop (p.shift bytes lines) c = (m.stop p c).shift bytes lines := by
  rw [stop_eq_advance, stop_eq_advance, Location.advance_shift]

theorem Munch.span_shift (m : Munch) (p : Location) (c : Char) :
    m.span (p.shift bytes lines) c = (m.span p c).shift bytes lines := by
  rw [span, stop_shift]
  rfl

theorem Item.ofMunch?_shift (m : Munch) (p : Location) (c : Char) :
    ofMunch? m (p.shift bytes lines) c = (ofMunch? m p c).map (Item.shift bytes lines) := by
  cases ho : m.outcome with
  | trivia => simp [ofMunch?, ho]
  | token kind =>
      rw [ofMunch?_token ho, ofMunch?_token ho, Munch.span_shift]
      rfl
  | fault cause =>
      rw [ofMunch?_fault ho, ofMunch?_fault ho, Munch.span_shift]
      rfl

/-- Where a text stands decides about the places of its items, and about nothing else. -/
theorem itemsFrom_shift (p : Location) (cs : List Char) :
    itemsFrom (p.shift bytes lines) cs = (itemsFrom p cs).map (Item.shift bytes lines) := by
  fun_induction itemsFrom p cs with
  | case1 p => rw [itemsFrom_nil, List.map_nil]
  | case2 p c cs m ih =>
      rw [itemsFrom_cons, Munch.stop_shift, ih, Item.ofMunch?_shift, List.map_append]
      congr 1
      cases Item.ofMunch? m p c with
      | none => rfl
      | some i => rfl

end Shift

theorem itemsFrom_cons_of_isBlank (p : Location) {c : Char} (hc : Munch.isBlank c = true)
    (cs : List Char) :
    itemsFrom p (c :: cs) = itemsFrom ((p.step c).advance (cs.takeWhile Munch.isBlank))
      (cs.drop (cs.takeWhile Munch.isBlank).length) := by
  have hm : Munch.ofChars c cs = ⟨cs.takeWhile Munch.isBlank, .trivia⟩ :=
    (Munch.Form.blanks hc).ofChars_eq
  rw [itemsFrom_cons, hm]
  rfl

theorem itemsFrom_drop_blanks (p : Location) (cs : List Char) :
    itemsFrom (p.advance (cs.takeWhile Munch.isBlank))
      (cs.drop (cs.takeWhile Munch.isBlank).length) = itemsFrom p cs := by
  cases cs with
  | nil => rfl
  | cons c cs =>
      by_cases hc : Munch.isBlank c = true
      · rw [itemsFrom_cons_of_isBlank p hc, List.takeWhile_cons_of_pos hc]
        rfl
      · rw [List.takeWhile_cons_of_neg hc]
        rfl

theorem itemsFrom_blank (p : Location) {c : Char} (hc : Munch.isBlank c = true) (cs : List Char) :
    itemsFrom p (c :: cs) = itemsFrom (p.step c) cs := by
  rw [itemsFrom_cons_of_isBlank p hc, itemsFrom_drop_blanks]

def AllClosed (items : List Item) : Prop :=
  ∀ d, Item.fault d ∈ items →
    d.code ≠ some .unterminatedString ∧ d.code ≠ some .unterminatedComment

theorem AllClosed.complete {p : Location} {c : Char} {m : Munch} {items : List Item}
    (h : AllClosed ((Item.ofMunch? m p c).toList ++ items)) : m.Complete := by
  have hcode : ∀ cause, m.outcome = .fault cause →
      cause.code ≠ .unterminatedString ∧ cause.code ≠ .unterminatedComment := by
    intro cause ho
    rw [Item.ofMunch?_fault ho] at h
    simpa [Fault.diagnostic] using h (cause.diagnostic (m.span p c)) (by simp)
  refine ⟨?_, ?_⟩
  · intro ho
    exact (hcode _ ho).1 rfl
  · intro ho
    exact (hcode _ ho).2 rfl

theorem inert_newline (cs : List Char) : Inert ('\n' :: cs) := by
  rintro c ⟨rfl⟩
  decide

theorem stops_newline (cs : List Char) : Stops (· ≠ '\n') ('\n' :: cs) := by
  rintro c ⟨rfl⟩
  rfl

/-- The run of the scanner over a text that has no open end goes on after a line feed as if from
the start of a text. -/
theorem itemsFrom_append_newline (p : Location) (a b : List Char) (h : AllClosed (itemsFrom p a)) :
    itemsFrom p (a ++ '\n' :: b) = itemsFrom p a ++ itemsFrom (p.advance (a ++ ['\n'])) b := by
  -- The step takes off one blank or one stretch, so the induction is on the length.
  induction hn : a.length using Nat.strong_induction_on generalizing p a with
  | _ n ih =>
    cases a with
    | nil =>
        rw [List.nil_append, itemsFrom_blank p (by decide), itemsFrom_nil]
        rfl
    | cons c cs =>
        rw [List.length_cons] at hn
        by_cases hc : Munch.isBlank c = true
        · rw [itemsFrom_blank p hc] at h ⊢
          rw [List.cons_append, itemsFrom_blank p hc]
          exact ih cs.length (by omega) _ cs h rfl
        · rw [itemsFrom_cons] at h ⊢
          have hform := (Munch.form_ofChars c cs).append_inert (by simpa using hc) h.complete
            (inert_newline b) fun _ => stops_newline b
          have hle := (Munch.form_ofChars c cs).more_isPrefix.length_le
          have htail : AllClosed (itemsFrom ((Munch.ofChars c cs).stop p c)
              (cs.drop (Munch.ofChars c cs).more.length)) :=
            fun d hd => h d (List.mem_append_right _ hd)
          have hrest := ih _ (by rw [List.length_drop]; omega) _ _ htail rfl
          rw [List.cons_append, itemsFrom_cons, hform.ofChars_eq, List.drop_append_of_le_length hle,
            hrest, List.append_assoc, Munch.stop_eq_advance, ← Location.advance_append]
          congr 3
          rw [List.cons_append, ← List.append_assoc, Munch.more_append_drop]
          rfl

theorem Location.start_advance_newline (cs : List Char) :
    Location.start.advance (cs ++ ['\n']) =
      Location.start.shift (byteSize cs + 1) (cs.count '\n' + 1) := by
  apply Location.ext
  · rw [offset_start_advance, byteSize_append]
    exact (Nat.zero_add _).symm
  · rw [line_advance, List.count_append]
    rfl
  · exact column_advance_append_newline .start cs

theorem Location.start_advance_append_newline (a b : List Char) :
    Location.start.advance (a ++ '\n' :: b) =
      (Location.start.advance b).shift (byteSize a + 1) (a.count '\n' + 1) := by
  rw [← advance_shift, ← start_advance_newline, ← advance_append, List.append_assoc]
  rfl

theorem filterMap_shift {α : Type} {select : Item → Option α} {move : α → α} {bytes lines : Nat}
    (h : ∀ i, select (i.shift bytes lines) = (select i).map move) (items : List Item) :
    (items.map (Item.shift bytes lines)).filterMap select = (items.filterMap select).map move := by
  rw [List.filterMap_map, List.map_filterMap]
  congr 1
  funext i
  exact h i

theorem Item.token?_shift (bytes lines : Nat) (i : Item) :
    (i.shift bytes lines).token? = i.token?.map (Token.shift bytes lines) := by
  cases i with
  | token t => rfl
  | fault d => rfl

theorem Item.diagnostic?_shift (bytes lines : Nat) (i : Item) :
    (i.shift bytes lines).diagnostic? = i.diagnostic?.map (Diagnostic.shift bytes lines) := by
  cases i with
  | token t => rfl
  | fault d => rfl

/-- Scanning two texts joined by a line feed is scanning each of them, the second moved behind the
first, unless a string or a block comment of the first lacks its end. -/
theorem scan_append_newline (first second : String)
    (h : ∀ d ∈ (scan first).diagnostics,
      d.code ≠ some .unterminatedString ∧ d.code ≠ some .unterminatedComment) :
    let bytes := first.utf8ByteSize + 1
    let lines := first.toList.count '\n' + 1
    (scan (first ++ "\n" ++ second)).tokens =
        (scan first).words ++ (scan second).tokens.map (Token.shift bytes lines) ∧
      (scan (first ++ "\n" ++ second)).diagnostics =
        (scan first).diagnostics ++
          (scan second).diagnostics.map (Diagnostic.shift bytes lines) := by
  have hchars : (first ++ "\n" ++ second).toList = first.toList ++ '\n' :: second.toList := by
    simp
  have hclosed : AllClosed (itemsFrom .start first.toList) :=
    fun d hd => h d (mem_diagnostics_scan.mpr hd)
  have hitems := itemsFrom_append_newline .start _ second.toList hclosed
  rw [Location.start_advance_newline, itemsFrom_shift] at hitems
  dsimp only
  rw [← byteSize_toList]
  refine ⟨?_, ?_⟩
  · rw [words_scan]
    simp only [scan, hchars]
    rw [hitems, List.filterMap_append, filterMap_shift (Item.token?_shift _ _), List.map_append,
      List.append_assoc, Location.start_advance_append_newline]
    rfl
  · simp only [scan, hchars]
    rw [hitems, List.filterMap_append, filterMap_shift (Item.diagnostic?_shift _ _)]

/-- A radix marker at the end of a line finds no digits, whatever the next line starts with. -/
theorem scan_append_newline_after_marker :
    (∀ d ∈ (scan "0x").diagnostics,
      d.code ≠ some .unterminatedString ∧ d.code ≠ some .unterminatedComment) ∧
    (scan ("0x" ++ "\n" ++ "1")).tokens =
      (scan "0x").words ++ (scan "1").tokens.map (Token.shift 3 1) ∧
    (scan ("0x" ++ "\n" ++ "1")).diagnostics =
      (scan "0x").diagnostics ++ (scan "1").diagnostics.map (Diagnostic.shift 3 1) := by
  have hm : Munch.ofChars '0' ['x'] = ⟨['x'], .fault (.missingDigits .hexadecimal 'x')⟩ := by
    decide
  have hitems : itemsFrom .start "0x".toList =
      [.fault ((Fault.missingDigits .hexadecimal 'x').diagnostic ⟨0, 2, 1, 1⟩)] := by
    rw [show "0x".toList = ['0', 'x'] from rfl, itemsFrom_cons, hm]
    exact congrArg (_ :: ·) (itemsFrom_nil _)
  have h : ∀ d ∈ (scan "0x").diagnostics,
      d.code ≠ some .unterminatedString ∧ d.code ≠ some .unterminatedComment := by
    intro d hd
    rw [mem_diagnostics_scan, hitems, List.mem_singleton] at hd
    cases hd
    decide
  exact ⟨h, scan_append_newline "0x" "1" h⟩

end ScriptScan
