import ScriptScan.Proofs.Grammar

namespace ScriptScan.Grammar

open Numeral Munch

def IsLongest (l : Language Char) (w cs : List Char) : Prop :=
  w ∈ l ∧ w <+: cs ∧ ∀ v ∈ l, v <+: cs → v.length ≤ w.length

theorem IsLongest.unique {l : Language Char} {v w cs : List Char} (hv : IsLongest l v cs)
    (hw : IsLongest l w cs) : v = w := by
  have hlen := Nat.le_antisymm (hw.2.2 v hv.1 hv.2.1) (hv.2.2 w hw.1 hw.2.1)
  exact (List.prefix_of_prefix_length_le hv.2.1 hw.2.1 hlen.le).eq_of_length hlen

theorem ne_nil_of_mem_token {v : List Char} (h : v ∈ token) : v ≠ [] := by
  rintro rfl
  obtain ⟨s, hs⟩ | (h | ⟨r, h⟩) | h := mem_token.mp h
  · obtain ⟨c, ⟨ht, -⟩ | ⟨ht, -⟩⟩ := text_cases s <;> rw [ht] at hs <;> cases hs
  · obtain ⟨p, hp, hw⟩ := mem_decimal.mp h
    exact hp.whole.1 (by simp_all [Plain.chars, Plain.body])
  · obtain ⟨m, ds, suffixed, -, -, hw⟩ := mem_literal_radix.mp h
    cases hw
  · obtain ⟨body, -, hw⟩ := mem_quoted.mp h
    cases hw

theorem exists_cons_of_mem_token {v cs : List Char} {c : Char} (h : v ∈ token)
    (hp : v <+: c :: cs) : ∃ rest, v = c :: rest := by
  obtain ⟨d, rest, rfl⟩ := List.exists_cons_of_ne_nil (ne_nil_of_mem_token h)
  obtain ⟨t, ht⟩ := hp
  cases ht
  exact ⟨rest, rfl⟩

/-- After a leading zero and a radix marker no decimal literal goes on. -/
theorem length_decimal_le_one {m : Char} {r : Radix} (hm : Radix.ofMarker? m = some r)
    {v cs : List Char} (hv : v ∈ decimal) (hp : v <+: '0' :: m :: cs) : v.length ≤ 1 := by
  obtain ⟨p, hp', rfl⟩ := mem_decimal.mp hv
  obtain ⟨t, ht⟩ := hp
  have hlen := hp'.length_le_read t
  have hread : (Plain.read ('0' :: m :: cs)).chars = ['0'] := by
    have hm' : m ∈ ['b', 'B', 'o', 'O', 'x', 'X'] := by
      have := (marker_iff r m).mpr hm
      cases r <;> obtain rfl | rfl := this <;> decide
    rw [Plain.chars_read]
    simp only [List.mem_cons, List.not_mem_nil, or_false] at hm'
    obtain rfl | rfl | rfl | rfl | rfl | rfl := hm' <;>
      simp [Plain.remainder, Plain.ending, Plain.readFraction?_cons_of_ne,
        Plain.readExponent?_cons_of_not, Plain.isExponentMarker, fractionChars, exponentChars,
        suffixChars]
  rwa [ht, hread] at hlen

theorem isLongest_plain {c : Char} {cs : List Char} (hc : c.isDigit = true) (hm : NoMarker c cs) :
    IsLongest token (Plain.read (c :: cs)).chars (c :: cs) := by
  refine ⟨?_, Plain.chars_read_isPrefix _, ?_⟩
  · exact mem_token.mpr (.inr (.inl (.inl (mem_decimal.mpr ⟨_, Plain.proper_read cs hc, rfl⟩))))
  · intro v hv hp
    obtain ⟨v, rfl⟩ := exists_cons_of_mem_token hv hp
    obtain ⟨⟨s, hs⟩, -⟩ | ⟨-, hv | ⟨r, hv⟩⟩ | ⟨rfl, -⟩ := mem_token_cons hv
    · rw [(not_special_of_ofChar? hs).2.2] at hc
      cases hc
    · obtain ⟨p, hp', hw⟩ := mem_decimal.mp hv
      obtain ⟨t, ht⟩ := hp
      rw [← ht, ← hw]
      exact hp'.length_le_read t
    · obtain ⟨m, ds, suffixed, hr, -, hw⟩ := mem_literal_radix.mp hv
      obtain ⟨t, ht⟩ := hp
      rw [← hw] at ht
      cases ht
      rw [hm rfl m rfl] at hr
      cases hr
    · cases hc

theorem isLongest_marked {m : Char} {r : Radix} {cs : List Char} (hr : Radix.ofMarker? m = some r)
    (hd : (Marked.read r m cs).digits ≠ []) :
    IsLongest token ('0' :: (Marked.read r m cs).chars) ('0' :: m :: cs) := by
  have hds : ∀ c ∈ (Marked.read r m cs).digits, Digits.isOf r.base c = true :=
    fun c hc => List.mem_takeWhile_imp hc
  refine ⟨?_, (List.prefix_cons_inj '0').mpr (Marked.chars_read_isPrefix r m cs), ?_⟩
  · refine mem_token.mpr (.inr (.inl (.inr ⟨r, mem_literal_radix.mpr ?_⟩)))
    exact ⟨m, _, _, hr, ⟨hd, hds⟩, rfl⟩
  · intro v hv hp
    obtain ⟨v, rfl⟩ := exists_cons_of_mem_token hv hp
    obtain ⟨⟨s, hs⟩, -⟩ | ⟨-, hv | ⟨r', hv⟩⟩ | ⟨h, -⟩ := mem_token_cons hv
    · cases hs
    · have hlen := length_decimal_le_one hr hv hp
      simp only [List.length_cons] at hlen ⊢
      omega
    · obtain ⟨m', ds, suffixed, hr', hds', hw⟩ := mem_literal_radix.mp hv
      obtain ⟨t, ht⟩ := hp
      rw [← hw] at ht ⊢
      cases ht
      cases hr.symm.trans hr'
      simpa using Marked.length_le_read hds'.2 m suffixed t
    · cases h

theorem isLongest_string {cs body : List Char} (h : quotedBody? cs = some body) :
    IsLongest token ('"' :: (body ++ ['"'])) ('"' :: cs) := by
  obtain ⟨hb, hp⟩ := quotedBody?_sound h
  refine ⟨?_, (List.prefix_cons_inj '"').mpr hp, ?_⟩
  · exact mem_token.mpr (.inr (.inr (mem_quoted.mpr ⟨body, hb, rfl⟩)))
  · intro v hv hp
    obtain ⟨v, rfl⟩ := exists_cons_of_mem_token hv hp
    obtain ⟨⟨s, hs⟩, -⟩ | ⟨hd, -⟩ | ⟨-, hv⟩ := mem_token_cons hv
    · cases hs
    · cases hd
    · obtain ⟨body', hb', hw⟩ := mem_quoted.mp hv
      obtain ⟨t, ht⟩ := hp
      rw [← hw] at ht ⊢
      have hcs : body' ++ '"' :: t = cs := by simpa using ht
      rw [← hcs, quotedBody?_append hb'] at h
      cases h
      exact Nat.le_refl _

theorem length_symbol_le {c : Char} {s : Symbol} (hs : Symbol.ofChar? c = some s)
    {v cs : List Char} (hv : v ∈ token) (hp : v <+: c :: cs) :
    v.length = 1 ∨ v.length = 2 ∧ s.withEqual? ≠ none ∧ cs.head? = some '=' := by
  obtain ⟨v, rfl⟩ := exists_cons_of_mem_token hv hp
  obtain ⟨-, t, hv⟩ | ⟨hd, -⟩ | ⟨rfl, -⟩ := mem_token_cons hv
  · obtain ⟨d, ⟨ht, -⟩ | ⟨ht, hd⟩⟩ := text_cases t
    · rw [ht] at hv
      cases hv
      exact .inl rfl
    · rw [ht] at hv
      cases hv
      rw [hs, Option.bind_some] at hd
      obtain ⟨u, hu⟩ := hp
      cases hu
      refine .inr ⟨rfl, ?_, rfl⟩
      rw [hd]
      exact Option.some_ne_none _
  · rw [(not_special_of_ofChar? hs).2.2] at hd
    cases hd
  · cases hs

theorem isLongest_symbol {c : Char} {s : Symbol} {cs : List Char}
    (hs : Symbol.ofChar? c = some s) (he : s.withEqual? = none ∨ cs.head? ≠ some '=') :
    IsLongest token [c] (c :: cs) := by
  refine ⟨mem_token.mpr (.inl ⟨s, (text_of_ofChar? hs).symm⟩), ⟨cs, rfl⟩, ?_⟩
  intro v hv hp
  obtain h | ⟨-, hs', hcs⟩ := length_symbol_le hs hv hp
  · exact h.le
  · obtain he | he := he
    · exact absurd he hs'
    · exact absurd hcs he

theorem isLongest_symbolEqual {c : Char} {s t : Symbol} (cs : List Char)
    (hs : Symbol.ofChar? c = some s) (ht : s.withEqual? = some t) :
    IsLongest token [c, '='] (c :: '=' :: cs) := by
  refine ⟨mem_token.mpr (.inl ⟨t, (text_of_withEqual? hs ht).symm⟩), ⟨cs, rfl⟩, ?_⟩
  intro v hv hp
  obtain h | ⟨h, -⟩ := length_symbol_le hs hv hp <;> simp [h]

theorem isLongest_of_form {c : Char} {cs : List Char} {m : Munch} (h : m.Form c cs)
    (ho : (∃ kind, m.outcome = .token kind) ∨ ∃ e, m.outcome = .fault (.number e)) :
    IsLongest token (c :: m.more) (c :: cs) := by
  cases h with
  | blanks hc | lineComment cs | blockComment hb | openComment hb | openString hq
  | missingDigits hr hd | unknown hb hq hd hs => obtain ⟨_, ⟨⟩⟩ | ⟨_, ⟨⟩⟩ := ho
  | string hq => exact isLongest_string hq
  | marked hr hd => exact isLongest_marked hr hd
  | plain hc hm =>
      rw [← Plain.chars_read_cons cs hc]
      exact isLongest_plain hc hm
  | symbol hs hn he => exact isLongest_symbol hs he
  | symbolEqual hs ht => exact isLongest_symbolEqual _ hs ht

end ScriptScan.Grammar
