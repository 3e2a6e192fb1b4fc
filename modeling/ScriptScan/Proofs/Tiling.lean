import Mathlib.Data.List.Perm.Basic
import ScriptScan.Proofs.Bytes
import ScriptScan.Proofs.Items

namespace ScriptScan

/-- Blanks and comments, one after the other. What comes after them decides where the last line
comment may end. -/
inductive Skipped (after : List Char) : List Char → Prop
  | nil : Skipped after []
  | blank {c : Char} {cs : List Char} (hc : c ∈ [' ', '\t', '\r', '\n']) (h : Skipped after cs) :
      Skipped after (c :: cs)
  | line {body cs : List Char} (hb : '\n' ∉ body) (he : ∀ c ∈ (cs ++ after).head?, c = '\n')
      (h : Skipped after cs) : Skipped after ('-' :: '-' :: body ++ cs)
  | block {body cs : List Char} (hb : ¬ ['-', '}'] <:+: body) (h : Skipped after cs) :
      Skipped after ('{' :: '-' :: body ++ ['-', '}'] ++ cs)

theorem Skipped.blanks {after bs cs : List Char} (hb : ∀ c ∈ bs, Munch.isBlank c = true)
    (h : Skipped after cs) : Skipped after (bs ++ cs) := by
  induction bs with
  | nil => exact h
  | cons b bs ih =>
      have hc : b ∈ [' ', '\t', '\r', '\n'] := by
        simpa [Munch.isBlank, or_assoc] using hb b (by simp)
      exact .blank hc (ih fun c hc => hb c (by simp [hc]))

namespace Munch

theorem Form.skipped {c : Char} {cs gap after : List Char} {m : Munch} (h : Form c cs m)
    (ht : m.outcome = .trivia) (hcs : m.more ++ (gap ++ after) = cs) (hg : Skipped after gap) :
    Skipped after (c :: m.more ++ gap) := by
  cases h with
  | blanks hc =>
      refine Skipped.blanks ?_ hg
      intro d hd
      obtain rfl | hd := List.mem_cons.mp hd
      · exact hc
      · exact List.mem_takeWhile_imp hd
  | lineComment cs =>
      have hrest : gap ++ after = cs.dropWhile (· ≠ '\n') := by
        have hsplit : cs.takeWhile (· ≠ '\n') ++ (gap ++ after) = cs := (List.cons.inj hcs).2
        exact List.append_cancel_left (hsplit.trans List.takeWhile_append_dropWhile.symm)
      refine Skipped.line ?_ ?_ hg
      · intro hn
        simpa using List.mem_takeWhile_imp hn
      · intro d hd
        have hstop := List.head?_dropWhile_not (· ≠ '\n') cs
        rw [← hrest, hd] at hstop
        simpa using hstop
  | blockComment hb =>
      obtain ⟨inner, rfl, -, hi⟩ := blockComment?_sound hb
      exact Skipped.block hi hg
  | marked hr hd | plain hc hm => exact absurd ht (decoded_ne_trivia _ _)
  | openComment hb | string hq | openString hq | missingDigits hr hd | symbol hs hn he
  | symbolEqual hs ht' | unknown hb hq hd hs => cases ht

end Munch

/-- `w` is the text of an item: a token's lexeme, with its quotes put back if it is a string. A
diagnostic has no text of its own to compare with. -/
def Item.Spells (w : List Char) : Item → Prop
  | .token t =>
      match t.kind with
      | .string _ => w = '"' :: t.lexeme.toList ++ ['"']
      | _ => w = t.lexeme.toList
  | .fault _ => True

theorem Munch.Form.spells {c : Char} {cs : List Char} {m : Munch} (h : Form c cs m)
    {kind : TokenKind} (hk : m.outcome = .token kind) (span : Span) :
    Item.Spells (c :: m.more) (.token ⟨kind, m.lexeme c kind, span⟩) := by
  cases h with
  | string hq =>
      cases hk
      simp [Item.Spells, Munch.lexeme]
  | marked hr hd | plain hc hm =>
      obtain ⟨value, -, rfl⟩ := decoded_eq_token hk
      simp [Item.Spells, Munch.lexeme]
  | symbol hs hn he | symbolEqual hs ht' =>
      cases hk
      simp [Item.Spells, Munch.lexeme]
  | blanks hc | lineComment cs | blockComment hb | openComment hb | openString hq
  | missingDigits hr hd | unknown hb hq hd hs => cases hk

/-- The items lie in a text that starts at byte `n`, in this order, and all text before, between
and after them is skipped. -/
inductive Tiles : Nat → List Item → List Char → Prop
  | last {n : Nat} {gap : List Char} (hg : Skipped [] gap) : Tiles n [] gap
  | item {n : Nat} {i : Item} {items : List Item} {gap w cs : List Char}
      (hg : Skipped (w ++ cs) gap) (hw : w ≠ []) (hstart : i.span.start = n + Text.byteSize gap)
      (hstop : i.span.stop = n + Text.byteSize (gap ++ w)) (hi : i.Spells w)
      (h : Tiles (n + Text.byteSize (gap ++ w)) items cs) : Tiles n (i :: items) (gap ++ w ++ cs)

theorem Tiles.skip {c : Char} {cs rest : List Char} {m : Munch} (hf : m.Form c cs)
    (ht : m.outcome = .trivia) (hcs : m.more ++ rest = cs) {n : Nat} {items : List Item}
    (h : Tiles (n + Text.byteSize (c :: m.more)) items rest) : Tiles n items (c :: cs) := by
  subst hcs
  cases h with
  | last hg =>
      have hg' := hf.skipped ht (by rw [List.append_nil]) hg
      exact .last (by simpa using hg')
  | @item _ i items gap w rest hg hw hstart hstop hi h =>
      have hg' := hf.skipped ht (by rw [List.append_assoc]) hg
      have hgap : c :: (m.more ++ (gap ++ w ++ rest)) = (c :: m.more ++ gap) ++ w ++ rest := by simp
      have hsize : ∀ x, n + Text.byteSize ((c :: m.more ++ gap) ++ x) =
          n + Text.byteSize (c :: m.more) + Text.byteSize (gap ++ x) := by
        intro x
        simp only [Text.byteSize_append]
        omega
      rw [hgap]
      refine .item hg' hw ?_ ?_ hi ?_
      · simpa using hstart.trans (by simpa using (hsize []).symm)
      · rw [hstop, hsize]
      · rwa [hsize]

theorem Item.spells_ofMunch? {c : Char} {cs : List Char} {m : Munch} (hf : m.Form c cs)
    {p : Location} {i : Item} (h : ofMunch? m p c = some i) : i.Spells (c :: m.more) := by
  obtain ⟨kind, ho, rfl⟩ | ⟨cause, -, rfl⟩ := ofMunch?_eq_some h
  · exact hf.spells ho _
  · trivial

theorem tiles_itemsFrom (p : Location) (cs : List Char) : Tiles p.offset (itemsFrom p cs) cs := by
  fun_induction itemsFrom p cs with
  | case1 p => exact .last .nil
  | case2 p c cs m ih =>
      have hf : m.Form c cs := Munch.form_ofChars c cs
      have hcs : m.more ++ cs.drop m.more.length = cs := Munch.more_append_drop c cs
      have hoffset : (m.stop p c).offset = p.offset + Text.byteSize (c :: m.more) := by
        rw [Munch.stop_eq_advance, Location.offset_advance]
      rw [hoffset] at ih
      cases ho : Item.ofMunch? m p c with
      -- A stretch without an item is trivia, which goes to the gap before the next one.
      | none => exact Tiles.skip hf (Item.ofMunch?_eq_none ho) hcs ih
      | some i =>
          have hspan := Item.span_ofMunch? ho
          have hwhole : c :: cs = [] ++ (c :: m.more) ++ cs.drop m.more.length := by
            rw [List.nil_append, List.cons_append, hcs]
          rw [hwhole]
          refine .item .nil (List.cons_ne_nil _ _) ?_ ?_ (Item.spells_ofMunch? hf ho) ih
          · rw [hspan]
            rfl
          · rw [hspan]
            exact hoffset

theorem Tiles.placed {n : Nat} {items : List Item} {cs : List Char} (h : Tiles n items cs) :
    ∀ i ∈ items, ∃ a w b, cs = a ++ w ++ b ∧ w ≠ [] ∧ i.span.start = n + Text.byteSize a ∧
      i.span.stop = n + Text.byteSize (a ++ w) ∧ i.Spells w := by
  induction h with
  | last hg => simp
  | @item n i items gap w cs hg hw hstart hstop hi h ih =>
      intro j hj
      obtain rfl | hj := List.mem_cons.mp hj
      · exact ⟨gap, w, cs, rfl, hw, hstart, hstop, hi⟩
      · obtain ⟨a, v, b, rfl, hv, hstart', hstop', hj⟩ := ih j hj
        refine ⟨gap ++ w ++ a, v, b, by simp, hv, ?_, ?_, hj⟩
        · simp only [hstart', Text.byteSize_append]
          omega
        · simp only [hstop', Text.byteSize_append]
          omega

theorem Tiles.pairwise {n : Nat} {items : List Item} {cs : List Char} (h : Tiles n items cs) :
    items.Pairwise fun i j => i.span.start < j.span.start ∧ i.span.stop ≤ j.span.start := by
  induction h with
  | last hg => exact .nil
  | item hg hw hstart hstop hi h ih =>
      refine .cons ?_ ih
      intro j hj
      obtain ⟨a, w, b, -, -, hj, -⟩ := h.placed j hj
      have hpos := Text.byteSize_pos hw
      rw [Text.byteSize_append] at hstop hj
      omega

def Span.Apart (s t : Span) : Prop := s.stop ≤ t.start ∨ t.stop ≤ s.start

theorem Span.Apart.symm {s t : Span} (h : s.Apart t) : t.Apart s := Or.symm h

theorem map_span_perm (items : List Item) :
    (items.map Item.span).Perm ((items.filterMap Item.token?).map Token.span ++
      (items.filterMap Item.diagnostic?).map Diagnostic.span) := by
  induction items with
  | nil => exact .nil
  | cons i items ih =>
      cases i with
      | token t => exact .cons t.span ih
      | fault d => exact (List.Perm.cons d.span ih).trans List.perm_middle.symm

/-- Tokens, diagnostics and skipped text make up the source without overlap, and the end of the text
comes last. -/
theorem scan_tiles_source (source : String) :
    ∃ items : List Item,
      (scan source).words = items.filterMap Item.token? ∧
      (scan source).diagnostics = items.filterMap Item.diagnostic? ∧
      Tiles 0 items source.toList ∧
      (∀ i ∈ items, ∃ a w b, source.toList = a ++ w ++ b ∧ w ≠ [] ∧
        i.span.start = Text.byteSize a ∧ i.span.stop = Text.byteSize (a ++ w) ∧ i.Spells w) ∧
      ((scan source).words.map Token.span ++
        (scan source).diagnostics.map Diagnostic.span).Pairwise Span.Apart ∧
      (scan source).words.Pairwise (fun t u => t.span.start < u.span.start) ∧
      (scan source).diagnostics.Pairwise (fun d e => d.span.start < e.span.start) ∧
      ∃ final, (scan source).tokens = (scan source).words ++ [final] ∧ final.kind = .eof ∧
        final.lexeme = "" ∧ final.span.start = source.utf8ByteSize ∧
        final.span.stop = source.utf8ByteSize := by
  have htiles : Tiles 0 (itemsFrom .start source.toList) source.toList :=
    tiles_itemsFrom .start source.toList
  have hwords := words_scan source
  have hdiagnostics : (scan source).diagnostics =
      (itemsFrom .start source.toList).filterMap Item.diagnostic? := rfl
  have hsize : (Location.start.advance source.toList).offset = source.utf8ByteSize := by
    rw [Location.offset_start_advance, Text.byteSize_toList]
  refine ⟨_, hwords, hdiagnostics, htiles, ?_, ?_, ?_, ?_,
    _, tokens_scan source, rfl, rfl, hsize, hsize⟩
  · intro i hi
    simpa using htiles.placed i hi
  · have hapart : ((itemsFrom .start source.toList).map Item.span).Pairwise Span.Apart := by
      rw [List.pairwise_map]
      exact htiles.pairwise.imp fun h => Or.inl h.2
    rw [hwords, hdiagnostics]
    exact hapart.perm (map_span_perm _) Span.Apart.symm
  · rw [hwords, List.pairwise_filterMap]
    refine htiles.pairwise.imp ?_
    intro i j hij t ht u hu
    rw [Item.token?_eq_some ht, Item.token?_eq_some hu] at hij
    exact hij.1
  · rw [hdiagnostics, List.pairwise_filterMap]
    refine htiles.pairwise.imp ?_
    intro i j hij d hd e he
    rw [Item.diagnostic?_eq_some hd, Item.diagnostic?_eq_some he] at hij
    exact hij.1

end ScriptScan
