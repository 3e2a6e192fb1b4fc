import ScriptScan.Proofs.Tiling

namespace ScriptScan

namespace Cursor

theorem location_advanceBy (k : Cursor) (n : Nat) :
    (k.advanceBy n).location = k.location.advance (k.rest.take n) := by
  induction n generalizing k with
  | zero => rfl
  | succ n ih =>
    rw [advanceBy, ih]
    cases hr : k.rest with
    | nil => simp [advance, hr]
    | cons c cs => simp [advance, hr, Location.advance]

variable {k : Cursor} {c : Char} {cs : List Char}

theorem rest_after_munch (hr : k.rest = c :: cs) :
    (k.advanceBy ((Munch.ofChars c cs).more.length + 1)).rest =
      cs.drop (Munch.ofChars c cs).more.length := by
  rw [rest_advanceBy, hr, List.drop_succ_cons]

theorem location_after_munch (hr : k.rest = c :: cs) :
    (k.advanceBy ((Munch.ofChars c cs).more.length + 1)).location =
      (Munch.ofChars c cs).stop k.location c := by
  have htake : cs.take (Munch.ofChars c cs).more.length = (Munch.ofChars c cs).more :=
    (List.prefix_iff_eq_take.mp (Munch.form_ofChars c cs).more_isPrefix).symm
  rw [location_advanceBy, hr, List.take_succ_cons, htake, Munch.stop_eq_advance]

end Cursor

theorem Munch.offset_lt_stop (m : Munch) (p : Location) (c : Char) :
    p.offset < (m.stop p c).offset := by
  have hpos := Text.byteSize_pos (List.cons_ne_nil c m.more)
  rw [Munch.stop_eq_advance, Location.offset_advance]
  omega

theorem Item.isEof_of_ofMunch? {p : Location} {c : Char} {cs : List Char} {t : Token}
    (ht : t ∈ (ofMunch? (Munch.ofChars c cs) p c).toList.filterMap token?) : t.isEof = false := by
  obtain ⟨i, hi, hit⟩ := List.mem_filterMap.mp ht
  rw [token?_eq_some hit, Option.mem_toList] at hi
  have hmem : Item.token t ∈ itemsFrom p (c :: cs) := by
    rw [itemsFrom_cons, List.mem_append]
    exact .inl (Option.mem_toList.mpr hi)
  simpa [Token.isEof, TokenKind.isEof] using kind_ne_eof_of_mem hmem

namespace Scanner

inductive Pull where
  | nextToken
  | next
  | drain

def pull (s : Scanner) : Pull → List Token × Scanner
  | .nextToken => ([s.nextToken.1], s.nextToken.2)
  | .next => (s.next?.1.toList, s.next?.2)
  | .drain => s.drain

def pulls (s : Scanner) : List Pull → List Token × Scanner
  | [] => ([], s)
  | call :: calls =>
      ((s.pull call).1 ++ ((s.pull call).2.pulls calls).1, ((s.pull call).2.pulls calls).2)

def isWord (t : Token) : Bool := !t.isEof

/-- A scanner of `source` that has handed out `returned` and passed the items `found`. It stands
where the other items begin, and what it has reported to `log` are the mistakes among `found`. -/
structure Progress (log : Log) (source : String) (returned : List Token) (found : List Item)
    (s : Scanner) : Prop where
  items : itemsFrom .start source.toList = found ++ itemsFrom s.cursor.location s.cursor.rest
  before : ∀ i ∈ found, i.span.start < s.cursor.location.offset
  final : s.cursor.location.advance s.cursor.rest = Location.start.advance source.toList
  reported : s.log = log.reportAll (found.filterMap Item.diagnostic?)
  words : returned.filter isWord = found.filterMap Item.token?
  ends : ∀ t ∈ returned, t.isEof = true → t = Token.atEnd (Location.start.advance source.toList)
  finished : s.finished = true ↔ ∃ t ∈ returned, t.isEof = true
  atEnd : s.finished = true → s.cursor.rest = []

theorem progress_ofString (log : Log) (source : String) :
    Progress log source [] [] (ofString log source) where
  items := rfl
  before := by simp
  final := rfl
  reported := by simp [ofString, Log.reportAll]
  words := rfl
  ends := by simp
  finished := by simp [ofString]
  atEnd := by simp [ofString]

variable {log : Log} {source : String} {returned : List Token} {found : List Item} {s : Scanner}

theorem Progress.munch (h : Progress log source returned found s) {c : Char} {cs : List Char}
    (hr : s.cursor.rest = c :: cs) {i : Option Item}
    (hi : Item.ofMunch? (Munch.ofChars c cs) s.cursor.location c = i) :
    Progress log source (returned ++ i.toList.filterMap Item.token?) (found ++ i.toList)
      { s with
        cursor := s.cursor.advanceBy ((Munch.ofChars c cs).more.length + 1)
        log := s.log.reportAll (i.toList.filterMap Item.diagnostic?) } := by
  subst hi
  have hrest := Cursor.rest_after_munch hr
  have hlocation := Cursor.location_after_munch hr
  have hpassed := (Munch.ofChars c cs).offset_lt_stop s.cursor.location c
  constructor
  case items =>
    dsimp only
    rw [h.items, hr, itemsFrom_cons, hlocation, hrest, List.append_assoc]
  case before =>
    intro i hi
    dsimp only
    rw [hlocation]
    obtain hi | hi := List.mem_append.mp hi
    · exact (h.before i hi).trans hpassed
    · rw [Item.span_ofMunch? (Option.mem_toList.mp hi)]
      exact hpassed
  case final =>
    dsimp only
    rw [← h.final, hlocation, hrest, hr, Munch.stop_eq_advance, ← Location.advance_append,
      List.cons_append, Munch.more_append_drop]
  case reported =>
    rw [h.reported, List.filterMap_append]
    simp [Log.reportAll]
  case words =>
    rw [List.filter_append, List.filterMap_append, h.words, List.filter_eq_self.mpr]
    intro t ht
    simp [isWord, Item.isEof_of_ofMunch? ht]
  case ends =>
    intro t ht hend
    obtain ht | ht := List.mem_append.mp ht
    · exact h.ends t ht hend
    · rw [Item.isEof_of_ofMunch? ht] at hend
      cases hend
  case finished =>
    refine h.finished.trans ⟨?_, ?_⟩
    · rintro ⟨t, ht, hend⟩
      exact ⟨t, List.mem_append_left _ ht, hend⟩
    · rintro ⟨t, ht, hend⟩
      obtain ht | ht := List.mem_append.mp ht
      · exact ⟨t, ht, hend⟩
      · rw [Item.isEof_of_ofMunch? ht] at hend
        cases hend
  case atEnd =>
    intro hf
    rw [h.atEnd hf] at hr
    cases hr

theorem Progress.finish (h : Progress log source returned found s) (hr : s.cursor.rest = []) :
    Progress log source (returned ++ [Token.atEnd s.cursor.location]) found
      { s with finished := true } := by
  have hlocation : s.cursor.location = Location.start.advance source.toList := by
    have hfinal := h.final
    rw [hr] at hfinal
    exact hfinal
  refine ⟨h.items, h.before, h.final, h.reported, ?_, ?_, ?_, fun _ => hr⟩
  · rw [List.filter_append, h.words]
    exact List.append_nil _
  · intro t ht hend
    obtain ht | ht := List.mem_append.mp ht
    · exact h.ends t ht hend
    · rw [List.mem_singleton.mp ht, hlocation]
  · refine iff_of_true rfl ⟨_, List.mem_append_right _ (List.mem_singleton_self _), rfl⟩

def Pulled (log : Log) (source : String) (returned : List Token) (s : Scanner) : Prop :=
  ∃ found, Progress log source returned found s

theorem Pulled.nextToken (h : Pulled log source returned s) :
    Pulled log source (returned ++ [s.nextToken.1]) s.nextToken.2 := by
  fun_induction Scanner.nextToken s with
  | case1 s hr =>
      obtain ⟨found, h⟩ := h
      exact ⟨found, h.finish hr⟩
  | case2 s c cs hr m cursor hm ih =>
      obtain ⟨found, h⟩ := h
      apply ih
      have hstep := h.munch hr hm
      simp only [Option.toList_none, List.filterMap_nil, List.append_nil, Log.reportAll] at hstep
      exact ⟨found, hstep⟩
  | case3 s c cs hr m cursor t hm =>
      obtain ⟨found, h⟩ := h
      have hstep := h.munch hr hm
      simp only [Option.toList_some, List.filterMap_cons, List.filterMap_nil, Item.token?,
        Item.diagnostic?, List.append_nil, Log.reportAll] at hstep
      exact ⟨_, hstep⟩
  | case4 s c cs hr m cursor d hm ih =>
      obtain ⟨found, h⟩ := h
      apply ih
      have hstep := h.munch hr hm
      simp only [Option.toList_some, List.filterMap_cons, List.filterMap_nil, Item.token?,
        Item.diagnostic?, List.append_nil] at hstep
      exact ⟨_, hstep⟩

theorem Pulled.next? (h : Pulled log source returned s) :
    Pulled log source (returned ++ s.next?.1.toList) s.next?.2 := by
  unfold Scanner.next?
  split
  · rw [Option.toList_none, List.append_nil]
    exact h
  · exact h.nextToken

theorem Pulled.drain : ∀ returned : List Token, Pulled log source returned s →
    Pulled log source (returned ++ s.drain.1) s.drain.2 := by
  fun_induction Scanner.drain s with
  | case1 s hf =>
      intro returned h
      rw [List.append_nil]
      exact h
  | case2 s hf step later ih =>
      intro returned h
      have hlater := ih _ h.nextToken
      rw [List.append_assoc] at hlater
      exact hlater

theorem finished_drain (s : Scanner) : s.drain.2.finished = true := by
  fun_induction Scanner.drain s with
  | case1 s hf => exact hf
  | case2 s hf step later ih => exact ih

theorem Pulled.pull (h : Pulled log source returned s) (call : Pull) :
    Pulled log source (returned ++ (s.pull call).1) (s.pull call).2 := by
  cases call with
  | nextToken => exact h.nextToken
  | next => exact h.next?
  | drain => exact Pulled.drain _ h

theorem Pulled.pulls (h : Pulled log source returned s) (calls : List Pull) :
    Pulled log source (returned ++ (s.pulls calls).1) (s.pulls calls).2 := by
  induction calls generalizing returned s with
  | nil =>
      rw [Scanner.pulls, List.append_nil]
      exact h
  | cons call calls ih =>
      have hlater := ih (h.pull call)
      rw [List.append_assoc] at hlater
      exact hlater

theorem Pulled.words_isPrefix (h : Pulled log source returned s) :
    returned.filter isWord <+: (scan source).words := by
  obtain ⟨found, h⟩ := h
  rw [h.words, words_scan, h.items, List.filterMap_append]
  exact List.prefix_append _ _

theorem Pulled.finished_iff (h : Pulled log source returned s) :
    s.finished = true ↔ ∃ t ∈ returned, t.isEof = true := by
  obtain ⟨found, h⟩ := h
  exact h.finished

theorem Pulled.complete (h : Pulled log source returned s) (hf : s.finished = true) :
    returned.filter isWord = (scan source).words ∧
      s.log = log.reportAll (scan source).diagnostics := by
  obtain ⟨found, h⟩ := h
  have hitems := h.items
  rw [h.atEnd hf, itemsFrom_nil, List.append_nil] at hitems
  constructor
  · rw [h.words, words_scan, hitems]
  · rw [h.reported, ← hitems]
    rfl

theorem Pulled.isEof_nextToken_iff (h : Pulled log source returned s) :
    s.nextToken.1.isEof = true ↔ returned.filter isWord = (scan source).words := by
  have hnext := h.nextToken
  constructor
  · intro hend
    have hf := hnext.finished_iff.mpr ⟨_, List.mem_append_right _ (List.mem_singleton_self _), hend⟩
    have hwords := (hnext.complete hf).1
    rw [List.filter_append] at hwords
    simpa [isWord, hend] using hwords
  · intro hwords
    by_contra hend
    rw [Bool.not_eq_true] at hend
    have hword : [s.nextToken.1].filter isWord = [s.nextToken.1] := by simp [isWord, hend]
    have hle := hnext.words_isPrefix.length_le
    rw [List.filter_append, hwords, hword, List.length_append, List.length_singleton] at hle
    omega

theorem Pulled.tokens_eq (h : Pulled log source returned s) {t : Token} (ht : t ∈ returned)
    (hend : t.isEof = true) : (scan source).tokens = (scan source).words ++ [t] := by
  obtain ⟨found, h⟩ := h
  rw [h.ends t ht hend]
  exact tokens_scan source

theorem Pulled.log_eq (h : Pulled log source returned s) :
    s.log = log.reportAll ((scan source).diagnostics.filter
      fun d => d.span.start < s.cursor.location.offset) := by
  obtain ⟨found, h⟩ := h
  have hdiagnostics : (scan source).diagnostics = found.filterMap Item.diagnostic? ++
      (itemsFrom s.cursor.location s.cursor.rest).filterMap Item.diagnostic? := by
    rw [← List.filterMap_append, ← h.items]
    rfl
  rw [h.reported, hdiagnostics, List.filter_append, List.filter_eq_self.mpr,
    List.filter_eq_nil_iff.mpr, List.append_nil]
  · intro d hd
    obtain ⟨i, hi, hid⟩ := List.mem_filterMap.mp hd
    rw [Item.diagnostic?_eq_some hid] at hi
    obtain ⟨a, w, b, -, -, hstart, -⟩ := (tiles_itemsFrom _ _).placed _ hi
    have hstart' : d.span.start = _ := hstart
    simp only [decide_eq_true_eq]
    omega
  · intro d hd
    obtain ⟨i, hi, hid⟩ := List.mem_filterMap.mp hd
    rw [Item.diagnostic?_eq_some hid] at hi
    exact decide_eq_true (h.before _ hi)

theorem pull_of_finished (hf : s.finished = true) (hr : s.cursor.rest = []) (call : Pull) :
    (s.pull call).2 = s := by
  obtain ⟨cursor, finished, l⟩ := s
  dsimp only at hf hr
  subst hf
  cases call with
  | nextToken =>
      rw [Scanner.pull, Scanner.nextToken]
      split
      · rfl
      · rename_i hcs
        dsimp only at hcs
        rw [hr] at hcs
        cases hcs
  | next => rfl
  | drain =>
      rw [Scanner.pull, Scanner.drain]

theorem pulls_of_finished (hf : s.finished = true) (hr : s.cursor.rest = []) (calls : List Pull) :
    (s.pulls calls).2 = s := by
  induction calls with
  | nil => rfl
  | cons call calls ih => rw [Scanner.pulls, pull_of_finished hf hr, ih]

/-- However a scanner is asked for tokens, it hands out the tokens of the scan in order, and its
reports are those of the scan up to the place where it stands. Once the end has been handed out,
nothing changes any more; and draining what is left completes the scan. -/
theorem pulling_agrees_with_scan (log : Log) (source : String) (calls : List Pull) :
    let returned := ((ofString log source).pulls calls).1
    let s := ((ofString log source).pulls calls).2
    returned.filter isWord <+: (scan source).words ∧
      (s.nextToken.1.isEof = true ↔ returned.filter isWord = (scan source).words) ∧
      (∀ t ∈ returned ++ [s.nextToken.1], t.isEof = true →
        (scan source).tokens = (scan source).words ++ [t]) ∧
      (s.next?.1 = none ↔ ∃ t ∈ returned, t.isEof = true) ∧
      s.log = log.reportAll ((scan source).diagnostics.filter
        fun d => d.span.start < s.cursor.location.offset) ∧
      ((∃ t ∈ returned, t.isEof = true) → ∀ more, (s.pulls more).2 = s) ∧
      returned.filter isWord ++ s.drain.1.filter isWord = (scan source).words ∧
      s.drain.2.log = log.reportAll (scan source).diagnostics := by
  dsimp only
  have h : Pulled log source _ _ := Pulled.pulls ⟨[], progress_ofString log source⟩ calls
  rw [List.nil_append] at h
  generalize ((ofString log source).pulls calls).1 = returned at h ⊢
  generalize ((ofString log source).pulls calls).2 = s at h ⊢
  obtain ⟨hwords, hlog⟩ := (Pulled.drain _ h).complete (finished_drain s)
  refine ⟨h.words_isPrefix, h.isEof_nextToken_iff, ?_, ?_, h.log_eq, ?_, ?_, hlog⟩
  · intro t ht hend
    exact h.nextToken.tokens_eq ht hend
  · rw [← h.finished_iff]
    unfold Scanner.next?
    by_cases hf : s.finished = true
    · simp [hf]
    · simp [hf]
  · intro hend
    have hf := h.finished_iff.mpr hend
    obtain ⟨found, h⟩ := h
    exact pulls_of_finished hf (h.atEnd hf)
  · rw [← hwords, List.filter_append]

/-- A token, a mistake and the end of the text, the end asked for through both ways. -/
theorem pulling_agrees_with_scan_after_end :
    let calls : List Pull := [.nextToken, .next, .nextToken, .next]
    let returned := ((ofString Log.empty "+ ?").pulls calls).1
    let s := ((ofString Log.empty "+ ?").pulls calls).2
    (∃ t ∈ returned, t.isEof = true) ∧ s.next?.1 = none ∧ (∀ more, (s.pulls more).2 = s) ∧
      s.log = Log.empty.reportAll ((scan "+ ?").diagnostics.filter
        fun d => d.span.start < s.cursor.location.offset) := by
  dsimp only
  have hend : ∃ t ∈ ((ofString Log.empty "+ ?").pulls [.nextToken, .next, .nextToken, .next]).1,
      t.isEof = true := by
    decide +kernel
  obtain ⟨-, -, -, hnone, hlog, hfixed, -⟩ :=
    pulling_agrees_with_scan Log.empty "+ ?" [.nextToken, .next, .nextToken, .next]
  exact ⟨hend, hnone.mpr hend, hfixed hend, hlog⟩

end Scanner

end ScriptScan
