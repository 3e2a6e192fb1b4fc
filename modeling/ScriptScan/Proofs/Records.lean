import ScriptScan.Listing
import ScriptScan.Proofs.Escapes
import ScriptScan.Proofs.Items
import ScriptScan.Proofs.Lines
import ScriptScan.Proofs.Printing

namespace ScriptScan

open Text

namespace Listing

def isWordChar (c : Char) : Bool := c.isAlphanum || c = '_' || c = '.'

def IsWord (s : String) : Prop := ∀ c ∈ s.toList, isWordChar c = true

theorem IsWord.not_mem {s : String} (h : IsWord s) {c : Char} (hc : isWordChar c = false) :
    c ∉ s.toList :=
  not_mem_of_class hc h

theorem IsWord.append {s t : String} (hs : IsWord s) (ht : IsWord t) : IsWord (s ++ t) := by
  rw [IsWord, String.toList_append, List.forall_mem_append]
  exact ⟨hs, ht⟩

theorem isWord_of_all {s : String} (h : s.toList.all isWordChar = true) : IsWord s :=
  List.all_eq_true.mp h

theorem isWord_of_isRun {s : String} (h : IsRun Char.isDigit s.toList) : IsWord s := by
  intro c hc
  simp [isWordChar, Char.isAlphanum, h.2 c hc]

theorem isWord_kind (k : TokenKind) : IsWord k.name := by
  cases k with
  | symbol s =>
      refine isWord_of_all ?_
      cases s <;> decide +kernel
  | number value format => exact isWord_of_all (s := "number") (by decide +kernel)
  | string text => exact isWord_of_all (s := "string") (by decide +kernel)
  | eof => exact isWord_of_all (s := "eof") (by decide +kernel)

theorem isWord_format (f : NumberFormat) : IsWord f.name := by
  refine isWord_of_all ?_
  cases f with
  | decimal | exponential => decide +kernel
  | radix r =>
      cases r with
      | binary | octal | hexadecimal => decide +kernel

theorem isWord_repr (n : Nat) : IsWord n.repr := isWord_of_isRun (Digits.isRun_repr n)

theorem isWord_decimal (d : Decimal) : IsWord d.text := by
  have hzero : IsWord "0" := isWord_repr 0
  have hpoint : IsWord "." := isWord_of_all (by decide +kernel)
  have hplaces := fun n width => isWord_of_isRun (Decimal.isRun_padZeros width n)
  unfold Decimal.text
  split
  · exact hzero
  · split
    · exact isWord_repr _
    · exact ((isWord_repr _).append hpoint).append (hplaces _ _)

theorem isWord_value (v : NumberValue) : IsWord v.text := by
  cases v with
  | float x => exact isWord_decimal _
  | integer n => exact (isWord_repr n).append (isWord_of_all (by decide +kernel))

namespace Record

/-- A record whose columns can be told apart. -/
structure Legible (r : Record) : Prop where
  kind : IsWord r.kind
  value : ∀ n ∈ r.number, IsWord n.value
  format : ∀ n ∈ r.number, IsWord n.format

theorem legible_ofToken (t : Token) : (ofToken t).Legible := by
  have hnumber : ∀ n ∈ numberOf? t.kind, IsWord n.value ∧ IsWord n.format := by
    unfold numberOf?
    split
    · rintro _ ⟨⟩
      exact ⟨isWord_value _, isWord_format _⟩
    · rintro _ ⟨⟩
  exact ⟨isWord_kind _, fun n hn => (hnumber n hn).1, fun n hn => (hnumber n hn).2⟩

def readNumber? : List Char → Option (Option Number)
  | [] => some none
  | ' ' :: ' ' :: cs => do
      let (value, '(' :: cs) ← cutAt? ' ' cs | none
      let (format, []) ← cutAt? ')' cs | none
      return some ⟨String.ofList value, String.ofList format⟩
  | _ => none

def ofLine? (cs : List Char) : Option Record := do
  let (line, cs) ← cutAt? ':' cs
  let (column, ' ' :: cs) ← cutAt? ' ' cs | none
  let (kind, ' ' :: '"' :: cs) ← cutAt? ' ' cs | none
  let (lexeme, cs) ← readQuoted? cs
  return ⟨String.ofList kind, String.ofList lexeme, ← Digits.toNat? 10 line,
    ← Digits.toNat? 10 column, ← readNumber? cs⟩

theorem toList_text (r : Record) : r.text.toList = r.line.repr.toList ++ ':' ::
    (r.column.repr.toList ++ ' ' :: ' ' :: (r.kind.toList ++ ' ' :: ' ' :: '"' ::
      (r.lexeme.toList.flatMap escapeInner ++ '"' :: (numberText r.number).toList))) := by
  simp [text, quoted]

theorem toList_numberText (n : Number) : (numberText (some n)).toList =
    ' ' :: ' ' :: (n.value.toList ++ ' ' :: '(' :: (n.format.toList ++ [')'])) := by
  simp [numberText]

variable {r : Record}

theorem Legible.readNumber?_eq (h : r.Legible) :
    readNumber? (numberText r.number).toList = some r.number := by
  cases hn : r.number with
  | none => rfl
  | some n =>
      have hvalue : ' ' ∉ n.value.toList := (h.value n hn).not_mem rfl
      have hformat : ')' ∉ n.format.toList := (h.format n hn).not_mem rfl
      rw [toList_numberText, readNumber?, cutAt?_append hvalue]
      simp [cutAt?_append hformat]

theorem Legible.ofLine?_text (h : r.Legible) : ofLine? r.text.toList = some r := by
  have hline : ':' ∉ r.line.repr.toList := (isWord_repr _).not_mem rfl
  have hcolumn : ' ' ∉ r.column.repr.toList := (isWord_repr _).not_mem rfl
  have hkind : ' ' ∉ r.kind.toList := h.kind.not_mem rfl
  rw [toList_text, ofLine?]
  simp only [cutAt?_append hline, cutAt?_append hcolumn, cutAt?_append hkind, readQuoted?_append,
    Digits.toNat?_repr, h.readNumber?_eq, String.ofList_toList, Option.bind_eq_bind,
    Option.bind_some, Option.pure_def]

theorem Legible.newline_not_mem_numberText (h : r.Legible) :
    '\n' ∉ (numberText r.number).toList := by
  cases hn : r.number with
  | none => exact List.not_mem_nil
  | some n =>
      have hvalue : '\n' ∉ n.value.toList := (h.value n hn).not_mem rfl
      have hformat : '\n' ∉ n.format.toList := (h.format n hn).not_mem rfl
      simp [toList_numberText, hvalue, hformat]

theorem Legible.newline_not_mem_text (h : r.Legible) : '\n' ∉ r.text.toList := by
  have hline : '\n' ∉ r.line.repr.toList := (isWord_repr _).not_mem rfl
  have hcolumn : '\n' ∉ r.column.repr.toList := (isWord_repr _).not_mem rfl
  have hkind : '\n' ∉ r.kind.toList := h.kind.not_mem rfl
  have hlexeme := newline_not_mem_quoted r.lexeme
  have hnumber := h.newline_not_mem_numberText
  simp only [text, String.toList_append, List.mem_append, not_or]
  exact ⟨⟨⟨⟨⟨⟨⟨hline, by decide⟩, hcolumn⟩, by decide⟩, hkind⟩, by decide⟩, hlexeme⟩, hnumber⟩

end Record

theorem splitOn_textOf {rs : List Record} (h : ∀ r ∈ rs, r.Legible) :
    (textOf rs).toList.splitOn '\n' = rs.map (fun r => r.text.toList) ++ [[]] := by
  have hlines : (textOf rs).toList = (rs.map fun r => r.text.toList).flatMap (· ++ ['\n']) := by
    rw [textOf, String.toList_join, List.flatMap_map, List.flatMap_map]
    simp only [String.toList_append]
    rfl
  rw [hlines]
  apply splitOn_lines
  rw [List.forall_mem_map]
  exact fun r hr => (h r hr).newline_not_mem_text

theorem map_ofLine?_text {rs : List Record} (h : ∀ r ∈ rs, r.Legible) :
    (rs.map fun r => r.text.toList).map Record.ofLine? = rs.map some := by
  rw [List.map_map]
  exact List.map_congr_left fun r hr => (h r hr).ofLine?_text

theorem textOf_inj {rs rs' : List Record} (h : ∀ r ∈ rs, r.Legible) (h' : ∀ r ∈ rs', r.Legible)
    (htext : textOf rs = textOf rs') : rs = rs' := by
  have hsplit := splitOn_textOf h
  rw [htext, splitOn_textOf h'] at hsplit
  have hread := congrArg (List.map Record.ofLine?) (List.append_cancel_right hsplit)
  rw [map_ofLine?_text h, map_ofLine?_text h'] at hread
  exact List.map_injective_iff.mpr (Option.some_injective Record) hread.symm

theorem legible_records (showEof : Bool) (tokens : List Token) :
    ∀ r ∈ records showEof tokens, r.Legible := by
  rw [records, List.forall_mem_map]
  exact fun t _ => Record.legible_ofToken t

theorem records_scan (source : String) (showEof : Bool) :
    records showEof (scan source).tokens =
      (if showEof then (scan source).tokens else (scan source).words).map Record.ofToken := by
  cases showEof with
  | true => simp [records]
  | false => rfl

end Listing

end ScriptScan
