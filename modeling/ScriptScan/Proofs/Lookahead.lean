import Mathlib.Data.List.Nodup
import ScriptScan.Proofs.Tiling

namespace ScriptScan

open Numeral

namespace Text

theorem takeWhile_append_of_lt {p : Char → Bool} {cs : List Char}
    (h : (cs.takeWhile p).length < cs.length) (u : List Char) :
    (cs ++ u).takeWhile p = cs.takeWhile p := by
  rw [List.takeWhile_append, if_neg (Nat.ne_of_lt h)]

theorem dropWhile_append_of_lt {p : Char → Bool} {cs : List Char}
    (h : (cs.takeWhile p).length < cs.length) (u : List Char) :
    (cs ++ u).dropWhile p = cs.dropWhile p ++ u := by
  have hsplit := congrArg List.length (List.takeWhile_append_dropWhile (p := p) (l := cs))
  rw [List.length_append] at hsplit
  rw [List.dropWhile_append, if_neg]
  intro hempty
  rw [List.isEmpty_iff.mp hempty, List.length_nil] at hsplit
  omega

theorem head?_append_of_pos {cs : List Char} (h : 0 < cs.length) (u : List Char) :
    (cs ++ u).head? = cs.head? := by
  cases cs with
  | nil => cases h
  | cons c cs => rfl

end Text

open Text

namespace Numeral

namespace Plain

theorem readFraction?_append_of_room {cs : List Char}
    (h : (fractionChars (readFraction? cs)).length + 2 ≤ cs.length) (u : List Char) :
    readFraction? (cs ++ u) = readFraction? cs := by
  cases cs with
  | nil => simp at h
  | cons c cs =>
    by_cases hc : c = '.'
    · subst c
      cases cs with
      | nil => simp at h
      | cons d cs =>
        by_cases hd : d.isDigit = true
        · simp only [readFraction?, hd, if_true, fractionChars, List.length_cons] at h
          have hlt : ((d :: cs).takeWhile Char.isDigit).length < (d :: cs).length := by
            rw [List.length_cons]
            omega
          have hrun := takeWhile_append_of_lt hlt u
          simp only [List.cons_append, readFraction?, hd, if_true] at hrun ⊢
          rw [hrun]
        · simp [readFraction?, hd]
    · rw [List.cons_append, readFraction?_cons_of_ne hc, readFraction?_cons_of_ne hc]

theorem readExponent?_append_of_room {cs : List Char}
    (h : (exponentChars (readExponent? cs)).length + 3 ≤ cs.length) (u : List Char) :
    readExponent? (cs ++ u) = readExponent? cs := by
  match cs with
  | [] | [_] | [_, _] => simp at h
  | m :: s :: d :: cs =>
    by_cases hs : s = '-'
    · subst s
      by_cases hd : (isExponentMarker m && d.isDigit) = true
      · simp only [readExponent?, hd, if_true, exponentChars, Exponent.chars, List.length_append,
          List.length_cons, List.length_nil] at h
        have hlt : ((d :: cs).takeWhile Char.isDigit).length < (d :: cs).length := by
          rw [List.length_cons]
          omega
        have hrun := takeWhile_append_of_lt hlt u
        simp only [List.cons_append, readExponent?, hd, if_true] at hrun ⊢
        rw [hrun]
      · simp only [List.cons_append, readExponent?, hd, Bool.false_eq_true, if_false]
    · rw [readExponent?_unsigned m hs] at h ⊢
      rw [List.cons_append, List.cons_append, readExponent?_unsigned m hs]
      by_cases hd : (isExponentMarker m && s.isDigit) = true
      · simp only [hd, if_true, exponentChars, Exponent.chars, List.length_append,
          List.length_cons] at h
        have hlt : ((s :: d :: cs).takeWhile Char.isDigit).length < (s :: d :: cs).length := by
          simp only [List.length_cons]
          omega
        have hrun := takeWhile_append_of_lt hlt u
        rw [List.cons_append] at hrun
        rw [hrun]
      · rw [if_neg hd, if_neg hd]

/-- A decimal literal with three characters after it ends where it does: they tell whether a point
or an exponent's marker goes on with digits. -/
theorem read_append_of_room {cs : List Char} (h : (read cs).chars.length + 3 ≤ cs.length)
    (u : List Char) : read (cs ++ u) = read cs := by
  have hsplit :=
    congrArg List.length (List.takeWhile_append_dropWhile (p := Char.isDigit) (l := cs))
  simp only [read, chars, body, List.length_append] at h hsplit
  have hwhole : (cs.takeWhile Char.isDigit).length < cs.length := by omega
  simp only [read]
  rw [takeWhile_append_of_lt hwhole, dropWhile_append_of_lt hwhole]
  generalize cs.dropWhile Char.isDigit = afterWhole at h hsplit ⊢
  have hfraction : (fractionChars (readFraction? afterWhole)).length + 3 ≤ afterWhole.length := by
    omega
  rw [readFraction?_append_of_room (by omega), List.drop_append_of_le_length (by omega)]
  have hdrop := List.length_drop (i := (fractionChars (readFraction? afterWhole)).length)
    (l := afterWhole)
  generalize afterWhole.drop (fractionChars (readFraction? afterWhole)).length = afterFraction
    at h hdrop ⊢
  have hexponent : (exponentChars (readExponent? afterFraction)).length + 3 ≤
      afterFraction.length := by
    omega
  rw [readExponent?_append_of_room hexponent, List.drop_append_of_le_length (by omega),
    head?_append_of_pos (by rw [List.length_drop]; omega)]

end Plain

theorem Marked.read_append_of_room {r : Radix} {marker : Char} {cs : List Char}
    (h : (read r marker cs).digits.length < cs.length) (u : List Char) :
    read r marker (cs ++ u) = read r marker cs := by
  have hdigits : (cs.takeWhile (Digits.isOf r.base)).length < cs.length := h
  have hsplit := congrArg List.length
    (List.takeWhile_append_dropWhile (p := Digits.isOf r.base) (l := cs))
  rw [List.length_append] at hsplit
  simp only [read]
  rw [takeWhile_append_of_lt hdigits, dropWhile_append_of_lt hdigits,
    head?_append_of_pos (by omega)]

end Numeral

namespace Munch

theorem NoComment.append_of_pos {c : Char} {cs : List Char} (h : NoComment c cs)
    (hcs : 0 < cs.length) (u : List Char) : NoComment c (cs ++ u) := by
  intro hc
  rw [head?_append_of_pos hcs]
  exact h hc

theorem NoMarker.append_of_pos {c : Char} {cs : List Char} (h : NoMarker c cs)
    (hcs : 0 < cs.length) (u : List Char) : NoMarker c (cs ++ u) := by
  intro hc
  rw [head?_append_of_pos hcs]
  exact h hc

/-- A stretch with any text after it stays as it is, whatever is appended. Only of a decimal literal
more has to be known, for it may look further than the next character. -/
theorem Form.append_of_lt {c : Char} {cs : List Char} {m : Munch} (h : m.Form c cs)
    (hlt : m.more.length < cs.length) {u : List Char}
    (hread : c.isDigit = true → NoMarker c cs → Plain.read (c :: cs ++ u) = Plain.read (c :: cs)) :
    m.Form c (cs ++ u) := by
  cases h with
  | blanks hc =>
      rw [← takeWhile_append_of_lt hlt u]
      exact .blanks hc
  | lineComment cs =>
      rw [← takeWhile_append_of_lt (Nat.lt_of_succ_lt_succ hlt) u]
      exact .lineComment _
  | blockComment h => exact .blockComment (blockComment?_extend h u)
  | openComment h | openString h => exact absurd hlt (Nat.lt_irrefl _)
  | string h => exact .string (quotedBody?_extend h u)
  | @marked marker cs r hr hd =>
      simp only [Marked.chars, List.length_cons, List.length_append] at hlt
      rw [← Marked.read_append_of_room (u := u) (by omega)] at hd ⊢
      exact .marked hr hd
  | @missingDigits marker cs r hr hd =>
      simp only [List.length_cons] at hlt
      have hrun : (cs.takeWhile Char.isAlphanum).length < cs.length := by omega
      rw [← takeWhile_append_of_lt hrun u]
      rw [← Marked.read_append_of_room (u := u) (by rw [hd, List.length_nil]; omega)] at hd
      exact .missingDigits hr hd
  | plain hc hn =>
      rw [← hread hc hn]
      exact .plain hc (hn.append_of_pos (by omega) u)
  | symbol hs hn he =>
      refine .symbol hs (hn.append_of_pos (by omega) u) ?_
      rw [head?_append_of_pos (by omega)]
      exact he
  | symbolEqual hs ht => exact .symbolEqual hs ht
  | unknown hb hq hd hs => exact .unknown hb hq hd hs

theorem Form.append_of_room {c : Char} {cs : List Char} {m : Munch} (h : m.Form c cs)
    (hroom : m.more.length + 3 ≤ cs.length) (u : List Char) : m.Form c (cs ++ u) := by
  apply h.append_of_lt (by omega)
  intro hc hn
  have hchars := congrArg List.length (Plain.chars_read_cons cs hc)
  rw [← h.ofChars_eq, (Form.plain hc hn).ofChars_eq] at hroom
  dsimp only at hroom
  rw [List.length_cons] at hchars
  exact Plain.read_append_of_room (by rw [List.length_cons]; omega) u

end Munch

namespace Item

def charsAfter (cs : List Char) (i : Item) : Nat := ((dropBytes? cs i.span.stop).getD []).length

theorem charsAfter_append {a b : List Char} {i : Item} (h : i.span.stop = byteSize a) :
    i.charsAfter (a ++ b) = b.length := by
  rw [charsAfter, h, dropBytes?_append, Option.getD_some]

theorem charsAfter_ofMunch? {pre cs : List Char} {c : Char} {i : Item}
    (h : ofMunch? (Munch.ofChars c cs) (Location.start.advance pre) c = some i) :
    i.charsAfter (pre ++ c :: cs) = cs.length - (Munch.ofChars c cs).more.length := by
  have hsplit : pre ++ c :: cs = (pre ++ c :: (Munch.ofChars c cs).more) ++
      cs.drop (Munch.ofChars c cs).more.length := by
    rw [List.append_assoc, List.cons_append, Munch.more_append_drop]
  rw [hsplit, charsAfter_append, List.length_drop]
  rw [span_ofMunch? h, Munch.span_stop_advance]

theorem charsAfter_le_of_mem {pre cs : List Char} {i : Item}
    (h : i ∈ itemsFrom (Location.start.advance pre) cs) : i.charsAfter (pre ++ cs) ≤ cs.length := by
  obtain ⟨a, w, b, rfl, -, -, hstop, -⟩ := (tiles_itemsFrom _ cs).placed i h
  rw [Location.offset_start_advance, ← byteSize_append] at hstop
  rw [← List.append_assoc, charsAfter_append hstop, List.length_append]
  exact Nat.le_add_left _ _

end Item

/-- The runs over a text and over a longer one agree as long as three characters are left, and
after that no item of the shorter text has three characters after it. -/
theorem itemsFrom_append_agree (pre cs u : List Char) :
    ∃ kept rest rest', itemsFrom (Location.start.advance pre) cs = kept ++ rest ∧
      itemsFrom (Location.start.advance pre) (cs ++ u) = kept ++ rest' ∧
      (∀ i ∈ kept, 3 ≤ i.charsAfter (pre ++ cs)) ∧ ∀ i ∈ rest, i.charsAfter (pre ++ cs) < 3 := by
  generalize hp : Location.start.advance pre = p
  fun_induction itemsFrom p cs generalizing pre with
  | case1 p => exact ⟨[], [], itemsFrom p u, rfl, rfl, by simp, by simp⟩
  | case2 p c cs m ih =>
      subst hp
      have hsplit : pre ++ c :: cs = (pre ++ c :: m.more) ++ cs.drop m.more.length := by
        rw [List.append_assoc, List.cons_append, Munch.more_append_drop]
      have hstop : Location.start.advance (pre ++ c :: m.more) =
          m.stop (Location.start.advance pre) c := Location.advance_append _ _ _
      have hfirst : ∀ i ∈ (Item.ofMunch? m (Location.start.advance pre) c).toList,
          i.charsAfter (pre ++ c :: cs) = cs.length - m.more.length :=
        fun i hi => Item.charsAfter_ofMunch? (Option.mem_toList.mp hi)
      by_cases hroom : m.more.length + 3 ≤ cs.length
      · have hform : m.Form c (cs ++ u) := (Munch.form_ofChars c cs).append_of_room hroom u
        obtain ⟨kept, rest, rest', hcs, hcsu, hkept, hrest⟩ := ih _ hstop
        rw [← hsplit] at hkept hrest
        refine ⟨(Item.ofMunch? m (Location.start.advance pre) c).toList ++ kept, rest, rest',
          ?_, ?_, ?_, hrest⟩
        · rw [hcs, List.append_assoc]
        · rw [List.cons_append, itemsFrom_cons, hform.ofChars_eq,
            List.drop_append_of_le_length (by omega), hcsu, List.append_assoc]
        · intro i hi
          obtain hi | hi := List.mem_append.mp hi
          · rw [hfirst i hi]
            omega
          · exact hkept i hi
      · -- This stretch and all behind it end too near the end of the text to be kept.
        refine ⟨[], _, _, rfl, rfl, by simp, ?_⟩
        intro i hi
        obtain hi | hi := List.mem_append.mp hi
        · rw [hfirst i hi]
          omega
        · rw [← hstop] at hi
          have hle := Item.charsAfter_le_of_mem hi
          rw [← hsplit, List.length_drop] at hle
          omega

/-- The tokens of a scan other than the end of the text, and its diagnostics, by where they
start. -/
def Scan.items (s : Scan) : List Item :=
  (s.words.map Item.token ++ s.diagnostics.map Item.fault).mergeSort
    fun i j => i.span.start ≤ j.span.start

theorem items_perm (items : List Item) :
    ((items.filterMap Item.token?).map Item.token ++
      (items.filterMap Item.diagnostic?).map Item.fault).Perm items := by
  induction items with
  | nil => exact .nil
  | cons i items ih =>
      cases i with
      | token t => exact .cons _ ih
      | fault d => exact List.perm_middle.trans (.cons _ ih)

theorem items_scan (source : String) :
    (scan source).items = itemsFrom .start source.toList := by
  have hstrict := (tiles_itemsFrom .start source.toList).pairwise
  have hperm : (scan source).items.Perm (itemsFrom .start source.toList) := by
    rw [Scan.items, words_scan]
    exact (List.mergeSort_perm _ _).trans (items_perm _)
  have hsorted : (scan source).items.Pairwise fun i j => i.span.start ≤ j.span.start := by
    apply (List.pairwise_mergeSort _ _ _).imp of_decide_eq_true
    · intro i j k hij hjk
      simp only [decide_eq_true_eq] at hij hjk ⊢
      omega
    · intro i j
      simp only [Bool.or_eq_true, decide_eq_true_eq]
      omega
  have hnodup : ((itemsFrom .start source.toList).map (·.span.start)).Nodup :=
    List.pairwise_map.mpr (hstrict.imp fun h => Nat.ne_of_lt h.1)
  refine hperm.eq_of_pairwise ?_ hsorted (hstrict.imp fun h => h.1.le)
  intro i j hi hj hij hji
  exact List.inj_on_of_nodup_map hnodup (hperm.mem_iff.mp hi) hj (Nat.le_antisymm hij hji)

/-- The items of a text that have `n` characters of it after them. -/
def itemsBefore (n : Nat) (s : String) : List Item :=
  (scan s).items.filter fun i => n ≤ i.charsAfter s.toList

/-- Three characters of lookahead are enough: the items of a text that have three characters after
them are the first ones of the text, and the first ones of every text that it begins. -/
theorem scan_lookahead_bounded (s u : String) :
    itemsBefore 3 s <+: (scan s).items ∧ itemsBefore 3 s <+: (scan (s ++ u)).items ∧
      (∀ t ∈ (scan s).words, 3 ≤ (Item.token t).charsAfter s.toList → t ∈ (scan (s ++ u)).words) ∧
      ∀ d ∈ (scan s).diagnostics, 3 ≤ (Item.fault d).charsAfter s.toList →
        d ∈ (scan (s ++ u)).diagnostics := by
  obtain ⟨kept, rest, rest', hs, hsu, hkept, hrest⟩ := itemsFrom_append_agree [] s.toList u.toList
  rw [← String.toList_append] at hsu
  change itemsFrom .start _ = _ at hs hsu
  rw [List.nil_append] at hkept hrest
  have hfilter : (kept ++ rest).filter (fun i => 3 ≤ i.charsAfter s.toList) = kept := by
    rw [List.filter_append, List.filter_eq_self.mpr, List.filter_eq_nil_iff.mpr, List.append_nil]
    · intro i hi
      simpa using hrest i hi
    · intro i hi
      simpa using hkept i hi
  have hmem : ∀ i ∈ itemsFrom .start s.toList, 3 ≤ i.charsAfter s.toList →
      i ∈ itemsFrom .start (s ++ u).toList := by
    intro i hi hthree
    rw [hs, List.mem_append] at hi
    rw [hsu, List.mem_append]
    obtain hi | hi := hi
    · exact .inl hi
    · exact absurd hthree (Nat.not_le.mpr (hrest i hi))
  rw [itemsBefore, items_scan, items_scan, hs, hsu, hfilter]
  refine ⟨List.prefix_append _ _, List.prefix_append _ _, ?_, ?_⟩
  · intro t ht hthree
    exact mem_words_scan.mpr (hmem _ (mem_words_scan.mp ht) hthree)
  · intro d hd hthree
    exact mem_diagnostics_scan.mpr (hmem _ (mem_diagnostics_scan.mp hd) hthree)

-- Two characters would not do: the exponent of the longer text takes in all three.
example : (scan "1e-").words ≠ [] ∧ (scan "1e-").words.head? ≠ (scan "1e-5").words.head? := by
  decide +kernel

end ScriptScan
