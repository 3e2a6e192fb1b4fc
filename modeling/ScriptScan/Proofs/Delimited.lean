import Mathlib.Data.List.TakeWhile
import ScriptScan.Munch

namespace ScriptScan.Munch

def closing : List Char := ['-', '}']

theorem blockComment?_cons {c : Char} {cs : List Char} (h : ¬ closing <+: c :: cs) :
    blockComment? (c :: cs) = (blockComment? cs).map (c :: ·) := by
  rw [blockComment?]
  rintro tail rfl rfl
  exact h ⟨tail, rfl⟩

theorem blockComment?_append {inner : List Char} (h : ¬ closing <:+: inner) (t : List Char) :
    blockComment? (inner ++ closing ++ t) = some (inner ++ closing) := by
  induction inner with
  | nil => rfl
  | cons c inner ih =>
      rw [List.infix_cons_iff, not_or] at h
      have hc : ¬ closing <+: c :: (inner ++ closing ++ t) := by
        intro hp
        obtain ⟨rfl, htail⟩ : '-' = c ∧ ['}'] <+: inner ++ closing ++ t := by
          simpa [closing] using hp
        cases inner with
        | nil => simp [closing] at htail
        | cons d inner => exact h.1 (by simpa [closing] using htail)
      rw [List.cons_append, List.cons_append, blockComment?_cons hc, ih h.2]
      rfl

theorem blockComment?_sound {cs body : List Char} (h : blockComment? cs = some body) :
    ∃ inner, body = inner ++ closing ∧ body <+: cs ∧ ¬ closing <:+: inner := by
  induction cs generalizing body with
  | nil => cases h
  | cons c cs ih =>
      by_cases hc : closing <+: c :: cs
      · obtain ⟨t, ht⟩ := hc
        have hb : blockComment? ([] ++ closing ++ t) = some closing :=
          blockComment?_append (by simp [closing]) t
        rw [List.nil_append, ht, h] at hb
        cases hb
        exact ⟨[], rfl, ⟨t, ht⟩, by simp [closing]⟩
      · rw [blockComment?_cons hc] at h
        obtain ⟨rest, hrest, rfl⟩ := Option.map_eq_some_iff.mp h
        obtain ⟨inner, rfl, hp, hi⟩ := ih hrest
        refine ⟨c :: inner, rfl, (List.prefix_cons_inj c).mpr hp, ?_⟩
        rw [List.infix_cons_iff, not_or]
        refine ⟨?_, hi⟩
        intro hin
        have hinner : inner <+: cs := (List.prefix_append inner closing).trans hp
        exact hc (hin.trans ((List.prefix_cons_inj c).mpr hinner))

theorem blockComment?_extend {cs body : List Char} (h : blockComment? cs = some body)
    (t : List Char) : blockComment? (cs ++ t) = some body := by
  obtain ⟨inner, rfl, ⟨rest, rfl⟩, hi⟩ := blockComment?_sound h
  rw [List.append_assoc]
  exact blockComment?_append hi _

/-- The texts that can stand between quotes: quotes and backslashes only after a backslash. -/
inductive Escaped : List Char → Prop
  | nil : Escaped []
  | plain {c : Char} {cs : List Char} (hq : c ≠ '"') (hb : c ≠ '\\') (h : Escaped cs) :
      Escaped (c :: cs)
  | escape (c : Char) {cs : List Char} (h : Escaped cs) : Escaped ('\\' :: c :: cs)

theorem quotedBody?_plain {c : Char} (hq : c ≠ '"') (hb : c ≠ '\\') (cs : List Char) :
    quotedBody? (c :: cs) = (quotedBody? cs).map (c :: ·) := by
  rw [quotedBody?]
  · exact hq
  · exact fun _ _ h => absurd h hb

theorem quotedBody?_append {body : List Char} (h : Escaped body) (t : List Char) :
    quotedBody? (body ++ '"' :: t) = some body := by
  induction h with
  | nil => rfl
  | plain hq hb h ih => rw [List.cons_append, quotedBody?_plain hq hb, ih]; rfl
  | escape c h ih => rw [List.cons_append, List.cons_append, quotedBody?, ih]; rfl

theorem quotedBody?_sound {cs body : List Char} (h : quotedBody? cs = some body) :
    Escaped body ∧ body ++ ['"'] <+: cs := by
  fun_induction quotedBody? cs generalizing body with
  | case1 => cases h
  | case2 t =>
      cases h
      exact ⟨.nil, t, rfl⟩
  | case3 c cs ih =>
      obtain ⟨rest, hrest, rfl⟩ := Option.map_eq_some_iff.mp h
      obtain ⟨he, hp⟩ := ih hrest
      exact ⟨.escape c he, by simpa using hp⟩
  | case4 c cs hq hb ih =>
      obtain ⟨rest, hrest, rfl⟩ := Option.map_eq_some_iff.mp h
      obtain ⟨he, hp⟩ := ih hrest
      refine ⟨.plain hq ?_ he, (List.prefix_cons_inj c).mpr hp⟩
      -- A backslash here would be the last character, and nothing is found after it.
      rintro rfl
      cases cs with
      | nil => cases hrest
      | cons d cs => exact hb d cs rfl rfl

theorem quotedBody?_extend {cs body : List Char} (h : quotedBody? cs = some body)
    (t : List Char) : quotedBody? (cs ++ t) = some body := by
  obtain ⟨he, rest, rfl⟩ := quotedBody?_sound h
  rw [List.append_assoc, List.append_assoc]
  exact quotedBody?_append he _

end ScriptScan.Munch
