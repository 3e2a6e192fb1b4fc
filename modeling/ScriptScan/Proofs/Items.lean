import ScriptScan.Proofs.Form
import ScriptScan.Scanner

namespace ScriptScan

namespace Item

theorem ofMunch?_eq_none {m : Munch} {p : Location} {c : Char} (h : ofMunch? m p c = none) :
    m.outcome = .trivia := by
  unfold ofMunch? at h
  split at h
  · assumption
  · cases h
  · cases h

theorem ofMunch?_token {m : Munch} {kind : TokenKind} (h : m.outcome = .token kind) (p : Location)
    (c : Char) : ofMunch? m p c = some (.token ⟨kind, m.lexeme c kind, m.span p c⟩) := by
  simp [ofMunch?, h]

theorem ofMunch?_fault {m : Munch} {cause : Fault} (h : m.outcome = .fault cause) (p : Location)
    (c : Char) : ofMunch? m p c = some (.fault (cause.diagnostic (m.span p c))) := by
  simp [ofMunch?, h]

theorem ofMunch?_eq_some {m : Munch} {p : Location} {c : Char} {i : Item}
    (h : ofMunch? m p c = some i) :
    (∃ kind, m.outcome = .token kind ∧ i = .token ⟨kind, m.lexeme c kind, m.span p c⟩) ∨
      ∃ cause, m.outcome = .fault cause ∧ i = .fault (cause.diagnostic (m.span p c)) := by
  cases ho : m.outcome with
  | trivia => simp [ofMunch?, ho] at h
  | token kind =>
      rw [ofMunch?_token ho] at h
      exact .inl ⟨kind, rfl, (Option.some.inj h).symm⟩
  | fault cause =>
      rw [ofMunch?_fault ho] at h
      exact .inr ⟨cause, rfl, (Option.some.inj h).symm⟩

theorem span_ofMunch? {m : Munch} {p : Location} {c : Char} {i : Item}
    (h : ofMunch? m p c = some i) : i.span = m.span p c := by
  obtain ⟨kind, -, rfl⟩ | ⟨cause, -, rfl⟩ := ofMunch?_eq_some h
  · rfl
  · rfl

theorem outcome_of_ofMunch?_token {m : Munch} {p : Location} {c : Char} {t : Token}
    (h : ofMunch? m p c = some (.token t)) : m.outcome = .token t.kind := by
  obtain ⟨kind, ho, ht⟩ | ⟨cause, -, ht⟩ := ofMunch?_eq_some h
  · cases ht
    exact ho
  · cases ht

theorem token?_eq_some {i : Item} {t : Token} (h : i.token? = some t) : i = .token t := by
  cases i with
  | token t' =>
      cases h
      rfl
  | fault d => cases h

theorem diagnostic?_eq_some {i : Item} {d : Diagnostic} (h : i.diagnostic? = some d) :
    i = .fault d := by
  cases i with
  | token t => cases h
  | fault d' =>
      cases h
      rfl

end Item

theorem itemsFrom_nil (p : Location) : itemsFrom p [] = [] := by
  rw [itemsFrom]

theorem itemsFrom_cons (p : Location) (c : Char) (cs : List Char) :
    itemsFrom p (c :: cs) = (Item.ofMunch? (Munch.ofChars c cs) p c).toList ++
      itemsFrom ((Munch.ofChars c cs).stop p c) (cs.drop (Munch.ofChars c cs).more.length) := by
  rw [itemsFrom]

theorem itemsFrom_whole (p : Location) {c : Char} {cs : List Char} {o : Outcome}
    (h : Munch.Form c cs ⟨cs, o⟩) : itemsFrom p (c :: cs) = (Item.ofMunch? ⟨cs, o⟩ p c).toList := by
  rw [itemsFrom_cons, h.ofChars_eq, List.drop_length, itemsFrom_nil, List.append_nil]

/-- Scanning `cs` takes up a new stretch of text after `pre`, with `rest` still to read. -/
inductive Starts (cs : List Char) : List Char → List Char → Prop
  | first : Starts cs [] cs
  | next {pre rest : List Char} {c : Char} (h : Starts cs pre (c :: rest)) :
      Starts cs (pre ++ c :: (Munch.ofChars c rest).more)
        (rest.drop (Munch.ofChars c rest).more.length)

theorem Starts.append_eq {cs pre rest : List Char} (h : Starts cs pre rest) : pre ++ rest = cs := by
  induction h with
  | first => rfl
  | @next pre rest c h ih => rw [List.append_assoc, List.cons_append, Munch.more_append_drop, ih]

theorem Starts.trans {a b c pre mid : List Char} (h : Starts a pre b) (h' : Starts b mid c) :
    Starts a (pre ++ mid) c := by
  induction h' with
  | first => simpa using h
  | next h' ih => simpa using ih.next

theorem Location.offset_start_advance (cs : List Char) :
    (Location.start.advance cs).offset = Text.byteSize cs := by
  rw [Location.offset_advance]
  exact Nat.zero_add _

theorem Munch.stop_eq_advance (m : Munch) (p : Location) (c : Char) :
    m.stop p c = p.advance (c :: m.more) := rfl

theorem Munch.span_start_advance (m : Munch) (pre : List Char) (c : Char) :
    (m.span (Location.start.advance pre) c).start = Text.byteSize pre :=
  Location.offset_start_advance pre

theorem Munch.span_stop_advance (m : Munch) (pre : List Char) (c : Char) :
    (m.span (Location.start.advance pre) c).stop = Text.byteSize (pre ++ c :: m.more) := by
  rw [← Location.offset_start_advance, Location.advance_append]
  rfl

theorem Starts.itemsFrom_eq {cs pre rest : List Char} (h : Starts cs pre rest) (p : Location) :
    ∃ earlier, itemsFrom p cs = earlier ++ itemsFrom (p.advance pre) rest := by
  induction h with
  | first => exact ⟨[], rfl⟩
  | @next pre rest c h ih =>
      obtain ⟨earlier, he⟩ := ih
      rw [itemsFrom_cons, Munch.stop_eq_advance, ← Location.advance_append] at he
      exact ⟨_, he.trans (List.append_assoc _ _ _).symm⟩

theorem mem_itemsFrom_iff {p : Location} {cs : List Char} {i : Item} :
    i ∈ itemsFrom p cs ↔ ∃ pre c rest, Starts cs pre (c :: rest) ∧
      Item.ofMunch? (Munch.ofChars c rest) (p.advance pre) c = some i := by
  constructor
  · intro hi
    fun_induction itemsFrom p cs with
    | case1 p => cases hi
    | case2 p c cs m ih =>
        obtain hi | hi := List.mem_append.mp hi
        · exact ⟨[], c, cs, .first, Option.mem_toList.mp hi⟩
        · obtain ⟨pre, d, rest, hs, hd⟩ := ih hi
          refine ⟨_, d, rest, Starts.first.next.trans hs, ?_⟩
          rw [Location.advance_append]
          exact hd
  · rintro ⟨pre, c, rest, hs, hi⟩
    obtain ⟨earlier, he⟩ := hs.itemsFrom_eq p
    rw [itemsFrom_cons, hi] at he
    simp [he]

theorem kind_ne_eof_of_mem {p : Location} {cs : List Char} {t : Token}
    (h : Item.token t ∈ itemsFrom p cs) : t.kind ≠ .eof := by
  obtain ⟨pre, c, rest, -, ht⟩ := mem_itemsFrom_iff.mp h
  intro hk
  have ho := Item.outcome_of_ofMunch?_token ht
  exact (Munch.form_ofChars c rest).kind_ne_eof (ho.trans (congrArg Outcome.token hk))

/-- The tokens of a scan other than the end of the text. -/
def Scan.words (s : Scan) : List Token := s.tokens.filter fun t => !t.isEof

theorem words_scan (source : String) :
    (scan source).words = (itemsFrom .start source.toList).filterMap Item.token? := by
  have hkeep : ∀ t ∈ (itemsFrom .start source.toList).filterMap Item.token?,
      (!t.isEof) = true := by
    intro t ht
    obtain ⟨i, hi, hit⟩ := List.mem_filterMap.mp ht
    rw [Item.token?_eq_some hit] at hi
    simpa [Token.isEof, TokenKind.isEof] using kind_ne_eof_of_mem hi
  have hend :
      [Token.atEnd (Location.start.advance source.toList)].filter (fun t => !t.isEof) = [] := rfl
  rw [Scan.words, scan, List.filter_append, List.filter_eq_self.mpr hkeep, hend, List.append_nil]

theorem tokens_scan (source : String) :
    (scan source).tokens =
      (scan source).words ++ [Token.atEnd (Location.start.advance source.toList)] := by
  rw [words_scan]
  rfl

theorem scan_token {text : String} {c : Char} {cs : List Char} {kind : TokenKind}
    (ht : text.toList = c :: cs) (h : Munch.Form c cs ⟨cs, .token kind⟩) :
    scan text = ⟨[⟨kind, Munch.lexeme ⟨cs, .token kind⟩ c kind,
      Span.between .start (Location.start.advance text.toList)⟩,
      Token.atEnd (Location.start.advance text.toList)], []⟩ := by
  rw [scan, ht, itemsFrom_whole .start h]
  rfl

theorem scan_fault {text : String} {c : Char} {cs : List Char} {cause : Fault}
    (ht : text.toList = c :: cs) (h : Munch.Form c cs ⟨cs, .fault cause⟩) :
    scan text = ⟨[Token.atEnd (Location.start.advance text.toList)],
      [cause.diagnostic (Span.between .start (Location.start.advance text.toList))]⟩ := by
  rw [scan, ht, itemsFrom_whole .start h]
  rfl

theorem mem_words_scan {source : String} {t : Token} :
    t ∈ (scan source).words ↔ Item.token t ∈ itemsFrom .start source.toList := by
  rw [words_scan, List.mem_filterMap]
  constructor
  · rintro ⟨i, hi, hit⟩
    rwa [Item.token?_eq_some hit] at hi
  · intro h
    exact ⟨_, h, rfl⟩

theorem mem_diagnostics_scan {source : String} {d : Diagnostic} :
    d ∈ (scan source).diagnostics ↔ Item.fault d ∈ itemsFrom .start source.toList := by
  simp only [scan, List.mem_filterMap]
  constructor
  · rintro ⟨i, hi, hid⟩
    rwa [Item.diagnostic?_eq_some hid] at hi
  · intro h
    exact ⟨_, h, rfl⟩

end ScriptScan
