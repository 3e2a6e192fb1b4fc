import Mathlib.Data.List.TakeWhile
import ScriptScan.Number.Numeral

namespace ScriptScan

def Text.IsRun (p : Char → Bool) (cs : List Char) : Prop := cs ≠ [] ∧ ∀ c ∈ cs, p c = true

theorem Text.isRun_takeWhile {p : Char → Bool} {c : Char} (cs : List Char) (hc : p c = true) :
    Text.IsRun p ((c :: cs).takeWhile p) := by
  refine ⟨by simp [hc], ?_⟩
  exact List.all_eq_true.mp List.all_takeWhile

namespace Numeral

def Exponent.Proper (e : Exponent) : Prop :=
  Plain.isExponentMarker e.marker = true ∧ Text.IsRun Char.isDigit e.digits

namespace Plain

/-- The parts are those of a decimal literal: whatever is there has digits, and digits only. -/
structure Proper (p : Plain) : Prop where
  whole : Text.IsRun Char.isDigit p.whole
  fraction : ∀ ds ∈ p.fraction, Text.IsRun Char.isDigit ds
  exponent : ∀ e ∈ p.exponent, e.Proper

theorem readFraction?_sound {cs ds : List Char} (h : readFraction? cs = some ds) :
    Text.IsRun Char.isDigit ds ∧ '.' :: ds <+: cs := by
  unfold readFraction? at h
  split at h
  · rename_i d cs
    split at h
    · rename_i hd
      cases h
      exact ⟨Text.isRun_takeWhile cs hd, (List.prefix_cons_inj '.').mpr (List.takeWhile_prefix _)⟩
    · cases h
  · cases h

theorem isExponentMarker_iff {c : Char} : isExponentMarker c = true ↔ c = 'e' ∨ c = 'E' := by
  simp [isExponentMarker]

theorem readExponent?_sound {cs : List Char} {e : Exponent} (h : readExponent? cs = some e) :
    e.Proper ∧ e.chars <+: cs := by
  unfold readExponent? at h
  split at h
  · rename_i m d cs
    split at h
    · rename_i hm
      obtain ⟨hm, hd⟩ := Bool.and_eq_true_iff.mp hm
      cases h
      refine ⟨⟨hm, Text.isRun_takeWhile cs hd⟩, ?_⟩
      simpa [Exponent.chars] using List.takeWhile_prefix (l := d :: cs) Char.isDigit
    · cases h
  · rename_i m d cs _
    split at h
    · rename_i hm
      obtain ⟨hm, hd⟩ := Bool.and_eq_true_iff.mp hm
      cases h
      refine ⟨⟨hm, Text.isRun_takeWhile cs hd⟩, ?_⟩
      simpa [Exponent.chars] using List.takeWhile_prefix (l := d :: cs) Char.isDigit
    · cases h
  · cases h

theorem fractionChars_isPrefix (cs : List Char) : fractionChars (readFraction? cs) <+: cs := by
  cases h : readFraction? cs with
  | none => exact List.nil_prefix
  | some ds => exact (readFraction?_sound h).2

theorem exponentChars_isPrefix (cs : List Char) : exponentChars (readExponent? cs) <+: cs := by
  cases h : readExponent? cs with
  | none => exact List.nil_prefix
  | some e => exact (readExponent?_sound h).2

end Plain

theorem suffixChars_isPrefix (cs : List Char) : suffixChars (cs.head? == some 'n') <+: cs := by
  cases cs with
  | nil => exact List.nil_prefix
  | cons c cs =>
      by_cases h : c = 'n'
      · subst h
        exact ⟨cs, rfl⟩
      · simp [suffixChars, h]

namespace Plain

theorem proper_read {c : Char} (cs : List Char) (hc : c.isDigit = true) :
    (read (c :: cs)).Proper := by
  constructor
  · exact Text.isRun_takeWhile cs hc
  · intro ds h
    exact (readFraction?_sound h).1
  · intro e h
    exact (readExponent?_sound h).1

theorem chars_read_isPrefix (cs : List Char) : (read cs).chars <+: cs := by
  have hf := List.prefix_iff_eq_append.mp (fractionChars_isPrefix (cs.dropWhile Char.isDigit))
  have he := List.prefix_iff_eq_append.mp (exponentChars_isPrefix ((cs.dropWhile Char.isDigit).drop
    (fractionChars (readFraction? (cs.dropWhile Char.isDigit))).length))
  obtain ⟨rest, hs⟩ := suffixChars_isPrefix (((cs.dropWhile Char.isDigit).drop
    (fractionChars (read cs).fraction).length).drop (exponentChars (read cs).exponent).length)
  refine ⟨rest, ?_⟩
  simp only [read] at hs
  simp only [read, chars, body, List.append_assoc]
  rw [hs, he, hf, List.takeWhile_append_dropWhile]

theorem chars_read_cons {c : Char} (cs : List Char) (hc : c.isDigit = true) :
    (read (c :: cs)).chars = c :: (read (c :: cs)).chars.tail := by
  obtain ⟨t, ht⟩ := chars_read_isPrefix (c :: cs)
  have hw := (proper_read cs hc).whole.1
  cases h : (read (c :: cs)).chars with
  | nil => simp_all [chars, body]
  | cons d ds =>
      rw [h] at ht
      cases ht
      rfl

theorem readFraction?_append {ds : List Char} (h : Text.IsRun Char.isDigit ds) (t : List Char) :
    readFraction? ('.' :: ds ++ t) = some (ds ++ t.takeWhile Char.isDigit) := by
  obtain ⟨d, ds, rfl⟩ := List.exists_cons_of_ne_nil h.1
  have hd : d.isDigit = true := h.2 d (by simp)
  rw [List.cons_append, List.cons_append, readFraction?, if_pos hd, ← List.cons_append,
    List.takeWhile_append_of_pos h.2]

theorem readExponent?_unsigned (m : Char) {d : Char} (hd : d ≠ '-') (cs : List Char) :
    readExponent? (m :: d :: cs) =
      if isExponentMarker m && d.isDigit then some ⟨m, false, (d :: cs).takeWhile Char.isDigit⟩
      else none := by
  rw [readExponent?]
  intro _ _ h
  exact absurd h hd

theorem readExponent?_append {e : Exponent} (h : e.Proper) (t : List Char) :
    readExponent? (e.chars ++ t) =
      some { e with digits := e.digits ++ t.takeWhile Char.isDigit } := by
  obtain ⟨m, negative, ds⟩ := e
  obtain ⟨hm, hne, hds⟩ := h
  obtain ⟨d, ds, rfl⟩ := List.exists_cons_of_ne_nil hne
  have hd : d.isDigit = true := hds d (by simp)
  have hrun : (d :: ds ++ t).takeWhile Char.isDigit = d :: ds ++ t.takeWhile Char.isDigit :=
    List.takeWhile_append_of_pos hds
  cases negative with
  | true =>
      simp only [Exponent.chars, if_true, List.cons_append, List.nil_append, readExponent?]
      rw [if_pos (by simp [hm, hd])]
      simpa using hrun
  | false =>
      have hminus : d ≠ '-' := by
        rintro rfl
        simp at hd
      simp only [Exponent.chars, Bool.false_eq_true, if_false, List.cons_append, List.nil_append]
      rw [readExponent?_unsigned m hminus, if_pos (by simp [hm, hd])]
      simpa using hrun

def ending (cs : List Char) : List Char :=
  let e := readExponent? cs
  exponentChars e ++ suffixChars ((cs.drop (exponentChars e).length).head? == some 'n')

def remainder (cs : List Char) : List Char :=
  let f := readFraction? cs
  fractionChars f ++ ending (cs.drop (fractionChars f).length)

theorem chars_read (cs : List Char) :
    (read cs).chars = cs.takeWhile Char.isDigit ++ remainder (cs.dropWhile Char.isDigit) := by
  simp only [read, chars, body, remainder, ending, List.append_assoc]

theorem head_ending {e : Option Exponent} (he : ∀ x ∈ e, x.Proper) (suffixed : Bool) :
    ∀ c ∈ (exponentChars e ++ suffixChars suffixed).head?, c.isDigit = false ∧ c ≠ '.' := by
  cases e with
  | none => cases suffixed <;> simp [exponentChars, suffixChars]
  | some e =>
      have hm : e.marker = 'e' ∨ e.marker = 'E' := isExponentMarker_iff.mp (he e rfl).1
      obtain h | h := hm <;> simp [exponentChars, Exponent.chars, h]

theorem readFraction?_cons_of_ne {c : Char} (h : c ≠ '.') (cs : List Char) :
    readFraction? (c :: cs) = none := by
  unfold readFraction?
  split
  · rename_i heq
    exact absurd (List.cons.inj heq).1 h
  · rfl

theorem readExponent?_cons_of_not {c : Char} (h : isExponentMarker c = false) (cs : List Char) :
    readExponent? (c :: cs) = none := by
  cases he : readExponent? (c :: cs) with
  | none => rfl
  | some e =>
      obtain ⟨⟨hm, -⟩, t, ht⟩ := readExponent?_sound he
      have hc : e.marker = c := (List.cons.inj ht).1
      rw [hc, h] at hm
      cases hm

theorem length_le_ending {e : Option Exponent} (he : ∀ x ∈ e, x.Proper) (suffixed : Bool)
    (t : List Char) :
    (exponentChars e ++ suffixChars suffixed).length ≤
      (ending (exponentChars e ++ suffixChars suffixed ++ t)).length := by
  cases e with
  | none =>
      cases suffixed with
      | false => exact Nat.zero_le _
      | true =>
          have h : readExponent? ('n' :: t) = none := readExponent?_cons_of_not (by decide) t
          simp [exponentChars, suffixChars, ending, h]
  | some e =>
      have h := readExponent?_append (he e rfl) (suffixChars suffixed ++ t)
      cases suffixed with
      | false =>
          simp only [exponentChars, suffixChars, ending, Bool.false_eq_true, if_false,
            List.append_nil, List.nil_append] at h ⊢
          rw [h]
          simp only [Exponent.chars, List.length_append, List.length_cons]
          omega
      | true =>
          simp only [exponentChars, suffixChars, ending, if_true, List.append_assoc] at h ⊢
          rw [h]
          simp [Exponent.chars]

theorem length_le_remainder {f : Option (List Char)} {e : Option Exponent}
    (hf : ∀ ds ∈ f, Text.IsRun Char.isDigit ds) (he : ∀ x ∈ e, x.Proper) (suffixed : Bool)
    (t : List Char) :
    (fractionChars f ++ (exponentChars e ++ suffixChars suffixed)).length ≤
      (remainder (fractionChars f ++ (exponentChars e ++ suffixChars suffixed) ++ t)).length := by
  have hhead := head_ending he suffixed
  have hend := length_le_ending he suffixed t
  generalize exponentChars e ++ suffixChars suffixed = x at hhead hend ⊢
  cases f with
  | none =>
      cases x with
      | nil => exact Nat.zero_le _
      | cons c x =>
          have h := readFraction?_cons_of_ne (hhead c rfl).2 (x ++ t)
          simpa [fractionChars, remainder, h] using hend
  | some ds =>
      have h := readFraction?_append (hf ds rfl) (x ++ t)
      cases x with
      | nil =>
          simp only [fractionChars, remainder, List.append_nil, List.nil_append] at h ⊢
          rw [h]
          simp only [List.length_append, List.length_cons]
          omega
      | cons c x =>
          have hc : c.isDigit = false := (hhead c rfl).1
          have hstop : (c :: x ++ t).takeWhile Char.isDigit = [] :=
            List.takeWhile_cons_of_neg (by simp [hc])
          rw [hstop, List.append_nil] at h
          simp only [remainder, fractionChars, List.append_assoc, List.cons_append] at h ⊢
          rw [h]
          simpa [fractionChars] using hend

theorem Proper.length_le_read {p : Plain} (hp : p.Proper) (t : List Char) :
    p.chars.length ≤ (read (p.chars ++ t)).chars.length := by
  have hchars : p.chars = p.whole ++ (fractionChars p.fraction ++
      (exponentChars p.exponent ++ suffixChars p.suffixed)) := by
    simp only [chars, body, List.append_assoc]
  have hrem := length_le_remainder hp.fraction hp.exponent p.suffixed t
  have hhead : ∀ c ∈ (fractionChars p.fraction ++
      (exponentChars p.exponent ++ suffixChars p.suffixed)).head?, c.isDigit = false := by
    cases p.fraction with
    | none => exact fun c hc => (head_ending hp.exponent p.suffixed c hc).1
    | some ds => simp [fractionChars]
  rw [chars_read, hchars]
  generalize fractionChars p.fraction ++ (exponentChars p.exponent ++ suffixChars p.suffixed) = x
    at hrem hhead ⊢
  rw [List.append_assoc, List.takeWhile_append_of_pos hp.whole.2,
    List.dropWhile_append_of_pos hp.whole.2]
  cases x with
  | nil =>
      simp only [List.append_nil, List.length_append]
      omega
  | cons c x =>
      have hc : c.isDigit = false := hhead c rfl
      rw [List.cons_append, List.takeWhile_cons_of_neg (by simp [hc]),
        List.dropWhile_cons_of_neg (by simp [hc])]
      simpa using hrem

end Plain

namespace Marked

theorem chars_read_isPrefix (r : Radix) (marker : Char) (cs : List Char) :
    (read r marker cs).chars <+: marker :: cs := by
  obtain ⟨rest, hs⟩ := suffixChars_isPrefix (cs.dropWhile (Digits.isOf r.base))
  refine ⟨rest, ?_⟩
  simp only [read, chars, List.cons_append, List.append_assoc]
  rw [hs, List.takeWhile_append_dropWhile]

theorem isOf_base_n (r : Radix) : Digits.isOf r.base 'n' = false := by
  cases r <;> decide

theorem length_le_read {r : Radix} {ds : List Char} (hds : ∀ c ∈ ds, Digits.isOf r.base c = true)
    (marker : Char) (suffixed : Bool) (t : List Char) :
    (marker :: ds ++ suffixChars suffixed).length ≤
      (read r marker (ds ++ suffixChars suffixed ++ t)).chars.length := by
  simp only [read, chars, List.append_assoc, List.takeWhile_append_of_pos hds,
    List.dropWhile_append_of_pos hds]
  cases suffixed with
  | false =>
      simp only [suffixChars, Bool.false_eq_true, if_false, List.length_append, List.length_cons]
      simp only [List.length_nil]
      omega
  | true => simp [suffixChars, isOf_base_n r]

end Marked

end Numeral

end ScriptScan
