import Mathlib.Data.List.TakeWhile
import ScriptScan.Proofs.Form

namespace ScriptScan

namespace Text

def Stops (p : Char → Bool) (t : List Char) : Prop := ∀ c ∈ t.head?, p c = false

theorem Stops.takeWhile_eq_nil {p : Char → Bool} {t : List Char} (h : Stops p t) :
    t.takeWhile p = [] := by
  cases t with
  | nil => rfl
  | cons c t => exact List.takeWhile_cons_of_neg (by simp [h c rfl])

theorem Stops.dropWhile_eq_self {p : Char → Bool} {t : List Char} (h : Stops p t) :
    t.dropWhile p = t := by
  cases t with
  | nil => rfl
  | cons c t => exact List.dropWhile_cons_of_neg (by simp [h c rfl])

theorem Stops.takeWhile_append {p : Char → Bool} {t : List Char} (h : Stops p t) (cs : List Char) :
    (cs ++ t).takeWhile p = cs.takeWhile p := by
  rw [List.takeWhile_append, h.takeWhile_eq_nil, List.append_nil]
  split
  · rename_i hlen
    exact ((List.takeWhile_prefix p).eq_of_length hlen).symm
  · rfl

theorem Stops.dropWhile_append {p : Char → Bool} {t : List Char} (h : Stops p t) (cs : List Char) :
    (cs ++ t).dropWhile p = cs.dropWhile p ++ t := by
  rw [List.dropWhile_append, h.dropWhile_eq_self]
  split
  · rename_i hnil
    rw [List.isEmpty_iff.mp hnil, List.nil_append]
  · rfl

/-- Text that starts with none of the characters that can go on a number or a symbol. -/
def Inert (t : List Char) : Prop :=
  ∀ c ∈ t.head?, c.isAlphanum = false ∧ c ≠ '.' ∧ c ≠ '-' ∧ c ≠ '='

theorem Inert.stops_isAlphanum {t : List Char} (h : Inert t) : Stops Char.isAlphanum t :=
  fun c hc => (h c hc).1

theorem isAlphanum_eq_false_iff (c : Char) : c.isAlphanum = false ↔
    (c.isUpper = false ∧ c.isLower = false) ∧ c.isDigit = false := by
  have halpha : c.isAlphanum = (c.isUpper || c.isLower || c.isDigit) := rfl
  rw [halpha, Bool.or_eq_false_iff, Bool.or_eq_false_iff]

theorem Inert.stops_isDigit {t : List Char} (h : Inert t) : Stops Char.isDigit t :=
  fun c hc => ((isAlphanum_eq_false_iff c).mp (h c hc).1).2

theorem Inert.stops_isOf {t : List Char} (h : Inert t) (r : Radix) :
    Stops (Digits.isOf r.base) t := by
  intro c hc
  obtain ⟨⟨hu, hl⟩, hd⟩ := (isAlphanum_eq_false_iff c).mp (h c hc).1
  have hbase : r.base ≤ 36 := by cases r <;> decide
  simp only [Digits.isOf, Digits.value, hd, hl, hu, Bool.false_eq_true, if_false,
    decide_eq_false_iff_not]
  omega

theorem Inert.head?_append_ne {t : List Char} (h : Inert t) {x : Char}
    (hx : x.isAlphanum = true ∨ x = '.' ∨ x = '-' ∨ x = '=') {cs : List Char}
    (hcs : cs.head? ≠ some x) : (cs ++ t).head? ≠ some x := by
  cases cs with
  | cons c cs => exact hcs
  | nil =>
      intro ht
      obtain ⟨ha, hdot, hminus, hequal⟩ := h x ht
      obtain hx | hx | hx | hx := hx
      · rw [ha] at hx
        cases hx
      · exact hdot hx
      · exact hminus hx
      · exact hequal hx

theorem Inert.head?_append_beq_n {t : List Char} (h : Inert t) (cs : List Char) :
    ((cs ++ t).head? == some 'n') = (cs.head? == some 'n') := by
  cases cs with
  | cons c cs => rfl
  | nil =>
      have hn : ([] ++ t).head? ≠ some 'n' := h.head?_append_ne (.inl (by decide)) (by simp)
      simpa using hn

end Text

open Text

theorem Radix.ofMarker?_eq_none {c : Char} (h : c.isAlphanum = false) : ofMarker? c = none := by
  have hupper : ¬ (c.val ≥ 'A'.val ∧ c.val ≤ 'Z'.val) := by
    intro hc
    have hu : c.isUpper = true := decide_eq_true hc
    rw [((isAlphanum_eq_false_iff c).mp h).1.1] at hu
    cases hu
  have hlower : c.toLower = c := dif_neg hupper
  rw [ofMarker?, hlower]
  split
  · simp at h
  · simp at h
  · simp at h
  · rfl

namespace Numeral

namespace Plain

theorem isExponentMarker_eq_false {c : Char} (h : c.isAlphanum = false) :
    isExponentMarker c = false := by
  rw [← Bool.not_eq_true, isExponentMarker_iff]
  rintro (rfl | rfl)
  · cases h
  · cases h

theorem readFraction?_append_inert {t : List Char} (ht : Inert t) (cs : List Char) :
    readFraction? (cs ++ t) = readFraction? cs := by
  cases cs with
  | nil =>
      cases t with
      | nil => rfl
      | cons x t => exact readFraction?_cons_of_ne (ht x rfl).2.1 t
  | cons c cs =>
      by_cases hc : c = '.'
      · subst c
        cases cs with
        | nil =>
            cases t with
            | nil => rfl
            | cons x t => simp [readFraction?, ht.stops_isDigit x rfl]
        | cons d cs =>
            have hrun := ht.stops_isDigit.takeWhile_append (d :: cs)
            simp only [List.cons_append, readFraction?] at hrun ⊢
            rw [hrun]
      · rw [List.cons_append, readFraction?_cons_of_ne hc, readFraction?_cons_of_ne hc]

theorem readExponent?_append_inert {t : List Char} (ht : Inert t) (cs : List Char) :
    readExponent? (cs ++ t) = readExponent? cs := by
  cases cs with
  | nil =>
      cases t with
      | nil => rfl
      | cons x t => exact readExponent?_cons_of_not (isExponentMarker_eq_false (ht x rfl).1) t
  | cons m cs =>
      cases cs with
      | nil =>
          cases t with
          | nil => rfl
          | cons x t =>
              have hx := ht.stops_isDigit x rfl
              rw [List.cons_append, List.nil_append, readExponent?_unsigned m (ht x rfl).2.2.1]
              simp [readExponent?, hx]
      | cons d cs =>
          by_cases hd : d = '-'
          · subst d
            cases cs with
            | nil =>
                cases t with
                | nil => rfl
                | cons x t => simp [readExponent?, ht.stops_isDigit x rfl]
            | cons d cs =>
                have hrun := ht.stops_isDigit.takeWhile_append (d :: cs)
                simp only [List.cons_append, readExponent?] at hrun ⊢
                rw [hrun]
          · have hrun := ht.stops_isDigit.takeWhile_append (d :: cs)
            rw [List.cons_append] at hrun
            rw [List.cons_append, List.cons_append, readExponent?_unsigned m hd, hrun,
              readExponent?_unsigned m hd]

theorem read_append_inert {t : List Char} (ht : Inert t) (cs : List Char) :
    read (cs ++ t) = read cs := by
  have hafter : ∀ (part rest : List Char), part <+: rest →
      (rest ++ t).drop part.length = rest.drop part.length ++ t := by
    intro part rest h
    exact List.drop_append_of_le_length h.length_le
  simp only [read]
  rw [ht.stops_isDigit.takeWhile_append, ht.stops_isDigit.dropWhile_append,
    readFraction?_append_inert ht, hafter _ _ (fractionChars_isPrefix _),
    readExponent?_append_inert ht, hafter _ _ (exponentChars_isPrefix _),
    ht.head?_append_beq_n]

end Plain

theorem Marked.read_append_inert {t : List Char} (ht : Inert t) (r : Radix) (marker : Char)
    (cs : List Char) : read r marker (cs ++ t) = read r marker cs := by
  simp only [read]
  rw [(ht.stops_isOf r).takeWhile_append, (ht.stops_isOf r).dropWhile_append,
    ht.head?_append_beq_n]

end Numeral

namespace Munch

open Numeral

theorem NoComment.append_inert {c : Char} {cs t : List Char} (h : NoComment c cs) (ht : Inert t) :
    NoComment c (cs ++ t) :=
  fun hc => ht.head?_append_ne (by simp) (h hc)

theorem NoMarker.append_inert {c : Char} {cs t : List Char} (h : NoMarker c cs) (ht : Inert t) :
    NoMarker c (cs ++ t) := by
  intro hc marker hm
  cases cs with
  | nil => exact Radix.ofMarker?_eq_none (ht marker hm).1
  | cons d cs => exact h hc marker hm

/-- A stretch is complete when it is neither a string nor a comment that lacks its end. -/
def Complete (m : Munch) : Prop :=
  m.outcome ≠ .fault .unterminatedString ∧ m.outcome ≠ .fault .unterminatedComment

/-- A complete stretch other than blanks stays as it is when inert text follows. A comment may run
up to the end of its line, so what follows trivia has to be the next line. -/
theorem Form.append_inert {c : Char} {cs t : List Char} {m : Munch} (h : m.Form c cs)
    (hb : isBlank c = false) (hm : m.Complete) (ht : Inert t)
    (hline : m.outcome = .trivia → Stops (· ≠ '\n') t) : m.Form c (cs ++ t) := by
  cases h with
  | blanks hc =>
      rw [hb] at hc
      cases hc
  | lineComment cs =>
      rw [← (hline rfl).takeWhile_append cs]
      exact .lineComment _
  | blockComment h => exact .blockComment (blockComment?_extend h t)
  | openComment h => exact absurd rfl hm.2
  | string h => exact .string (quotedBody?_extend h t)
  | openString h => exact absurd rfl hm.1
  | @marked marker cs r hr hd =>
      rw [← Marked.read_append_inert ht r marker cs] at hd ⊢
      exact .marked hr hd
  | @missingDigits marker cs r hr hd =>
      rw [← Marked.read_append_inert ht r marker cs] at hd
      rw [← ht.stops_isAlphanum.takeWhile_append cs]
      exact .missingDigits hr hd
  | plain hc hn =>
      rw [← Plain.read_append_inert ht (c :: cs)]
      exact .plain hc (hn.append_inert ht)
  | symbol hs hn he =>
      refine .symbol hs (hn.append_inert ht) ?_
      obtain he | he := he
      · exact .inl he
      · exact .inr (ht.head?_append_ne (by simp) he)
  | symbolEqual hs he => exact .symbolEqual hs he
  | unknown hb hq hd hs => exact .unknown hb hq hd hs

end Munch

end ScriptScan
