import ScriptScan.Proofs.Dispatch
import ScriptScan.Proofs.Range
import ScriptScan.Proofs.SharedLog

namespace ScriptScan

def Diagnostic.Invalid (d : Diagnostic) : Prop := "invalid ".toList <+: d.message.toList

def Numeral.Error.Malformed : Numeral.Error → Prop
  | malformed _ | malformedFloat _ | malformedRadix _ => True
  | outOfRange | notInteger | exponentTooLarge => False

namespace Fault

theorem invalid_prefix_append (rest : String) :
    "invalid ".toList <+: ("invalid " ++ rest).toList := by
  rw [String.toList_append]
  exact List.prefix_append _ _

theorem not_invalid_prefix_append {a : String} (ha : a.toList.head?.any (· ≠ 'i') = true)
    (b : String) : ¬ "invalid ".toList <+: (a ++ b).toList := by
  rintro ⟨t, ht⟩
  have hi : (a ++ b).toList.head? = some 'i' := by
    rw [← ht]
    rfl
  rw [String.toList_append, List.head?_append] at hi
  cases h : a.toList.head? with
  | none =>
      rw [h] at ha
      cases ha
  | some c =>
      rw [h] at ha hi
      cases hi
      cases ha

theorem invalid_prefix_of_malformed {e : Numeral.Error} (he : e.Malformed) :
    "invalid ".toList <+: (number e).message.toList := by
  have hword : "invalid number literal `" = "invalid " ++ "number literal `" := by decide +kernel
  cases e with
  | outOfRange | notInteger | exponentTooLarge => cases he
  | malformed text =>
      have hmessage : (number (.malformed text)).message =
          "invalid number literal `" ++ text ++ "`" := rfl
      rw [hmessage, hword, String.append_assoc, String.append_assoc]
      exact invalid_prefix_append _
  | malformedFloat text =>
      have hmessage : (number (.malformedFloat text)).message =
          "invalid number literal `" ++ text ++ "`: " ++ floatReason text := rfl
      rw [hmessage, hword, String.append_assoc, String.append_assoc, String.append_assoc]
      exact invalid_prefix_append _
  | malformedRadix r =>
      have hmessage : (number (.malformedRadix r)).message =
          "invalid " ++ r.name ++ " literal" := rfl
      rw [hmessage, String.append_assoc]
      exact invalid_prefix_append _

theorem invalid_prefix_iff (f : Fault) : "invalid ".toList <+: f.message.toList ↔
    ∃ e, f = .number e ∧ e.Malformed := by
  constructor
  · intro h
    -- The first letter of every other message is another one.
    cases f with
    | unknownCharacter c =>
        have hmessage : (unknownCharacter c).message =
            "unknown character `" ++ (String.ofList (Text.escapeQuotes c) ++ "`") :=
          String.append_assoc
        rw [hmessage] at h
        exact absurd h (not_invalid_prefix_append (by decide +kernel) _)
    | missingDigits r m =>
        have hmessage : (missingDigits r m).message =
            "expected " ++ r.name ++ " digit after `" ++ String.ofList ['0', m] ++ "`" := rfl
        rw [hmessage, String.append_assoc, String.append_assoc, String.append_assoc] at h
        exact absurd h (not_invalid_prefix_append (by decide +kernel) _)
    | unterminatedString | unterminatedComment => exact absurd h (by decide +kernel)
    | number e =>
        cases e with
        | outOfRange | notInteger | exponentTooLarge => exact absurd h (by decide +kernel)
        | malformed text | malformedFloat text => exact ⟨_, rfl, trivial⟩
        | malformedRadix r => exact ⟨_, rfl, trivial⟩
  · rintro ⟨e, rfl, he⟩
    exact invalid_prefix_of_malformed he

end Fault

namespace Munch

theorem Form.not_invalid {c : Char} {cs : List Char} {m : Munch} (h : m.Form c cs) {f : Fault}
    (hf : m.outcome = .fault f) : ¬ "invalid ".toList <+: f.message.toList := by
  rw [Fault.invalid_prefix_iff]
  rintro ⟨e, rfl, he⟩
  obtain rfl | rfl | rfl := (Grammar.decodes_of_form h hf).error_eq <;> cases he

end Munch

theorem Item.not_invalid_of_ofMunch? {c : Char} {cs : List Char} {p : Location} {d : Diagnostic}
    (h : Item.ofMunch? (Munch.ofChars c cs) p c = some (.fault d)) : ¬ d.Invalid := by
  obtain ⟨kind, -, ⟨⟩⟩ | ⟨cause, ho, ⟨⟩⟩ := Item.ofMunch?_eq_some h
  exact (Munch.form_ofChars c cs).not_invalid ho

namespace ByteCursor

/-- The cursors that dispatches lead to from the beginning of a text. -/
inductive Reached (source : String) : ByteCursor → Prop
  | start : Reached source (ofString source)
  | next {k k' : ByteCursor} {item : Option Item} (h : Reached source k) (he : k.atEnd = false)
      (hd : k.dispatch? = some (item, k')) : Reached source k'

theorem dispatch?_ofChars (consumed : List Char) (c : Char) (cs : List Char) :
    (zipper consumed (c :: cs)).dispatch? =
      some (stepOver consumed c cs (Munch.ofChars c cs)) :=
  dispatch?_zipper consumed (Munch.form_ofChars c cs)

theorem exists_cons_of_atEnd_zipper {consumed rest : List Char}
    (he : (zipper consumed rest).atEnd = false) : ∃ c cs, rest = c :: cs := by
  rw [atEnd_zipper, List.isEmpty_eq_false_iff] at he
  exact List.exists_cons_of_ne_nil he

theorem Reached.exists_zipper {source : String} {k : ByteCursor} (h : Reached source k) :
    ∃ consumed rest, source.toList = consumed ++ rest ∧ k = zipper consumed rest := by
  induction h with
  | start => exact ⟨[], source.toList, rfl, ofString_eq_zipper source⟩
  | @next k k' item h he hd ih =>
      obtain ⟨consumed, rest, hsource, rfl⟩ := ih
      obtain ⟨c, cs, rfl⟩ := exists_cons_of_atEnd_zipper he
      rw [dispatch?_ofChars] at hd
      cases hd
      refine ⟨_, _, ?_, rfl⟩
      rw [hsource, List.append_assoc, List.cons_append, Munch.more_append_drop]

theorem Reached.source_eq {source : String} {k : ByteCursor} (h : Reached source k) :
    k.source = source := by
  obtain ⟨consumed, rest, hsource, rfl⟩ := h.exists_zipper
  rw [source_zipper, ← hsource, String.ofList_toList]

theorem Reached.toList_eq {source : String} {consumed rest : List Char}
    (h : Reached source (zipper consumed rest)) : source.toList = consumed ++ rest := by
  rw [← h.source_eq, source_zipper, String.toList_ofList]

theorem Reached.dispatch {source : String} {consumed cs : List Char} {c : Char}
    (h : Reached source (zipper consumed (c :: cs))) :
    Reached source (zipper (consumed ++ c :: (Munch.ofChars c cs).more)
      (cs.drop (Munch.ofChars c cs).more.length)) :=
  h.next (atEnd_zipper_cons consumed cs c) (dispatch?_ofChars consumed c cs)

theorem Reached.isValid {source : String} {k : ByteCursor} (h : Reached source k) :
    String.Pos.Raw.IsValid source ⟨k.position⟩ := by
  rw [← h.source_eq]
  obtain ⟨consumed, rest, -, rfl⟩ := h.exists_zipper
  exact isValid_zipper consumed rest

theorem Reached.dispatch?_eq_some {source : String} {k : ByteCursor} (h : Reached source k)
    (he : k.atEnd = false) :
    ∃ c cs item k', k.remaining? = some (c :: cs) ∧ k.dispatch? = some (item, k') ∧
      item = Item.ofMunch? (Munch.ofChars c cs) k.place c ∧
      k'.remaining? = some (cs.drop (Munch.ofChars c cs).more.length) ∧
      k.position < k'.position ∧ k'.position ≤ source.utf8ByteSize := by
  obtain ⟨consumed, rest, -, rfl⟩ := h.exists_zipper
  obtain ⟨c, cs, rfl⟩ := exists_cons_of_atEnd_zipper he
  refine ⟨c, cs, _, _, remaining?_zipper consumed _, dispatch?_ofChars consumed c cs, rfl,
    remaining?_zipper _ _, ?_, ?_⟩
  · have hpos := Text.byteSize_pos (List.cons_ne_nil c (Munch.ofChars c cs).more)
    rw [position_zipper, position_zipper, Text.byteSize_append]
    omega
  · rw [← Text.byteSize_toList, h.dispatch.toList_eq, Text.byteSize_append, position_zipper]
    exact Nat.le_add_right _ _

theorem place_zipper {consumed : List Char} (rest : List Char) (h : consumed.length < 2 ^ 32 - 1) :
    (zipper consumed rest).place = Location.start.advance consumed := by
  obtain ⟨hline, hcolumn⟩ := counters_le consumed
  have hline' : (UInt32.ofNat (Location.start.advance consumed).line).toNat = _ :=
    UInt32.toNat_ofNat_of_lt' (show _ < 2 ^ 32 by omega)
  have hcolumn' : (UInt32.ofNat (Location.start.advance consumed).column).toNat = _ :=
    UInt32.toNat_ofNat_of_lt' (show _ < 2 ^ 32 by omega)
  simp only [place, zipper, hline', hcolumn']

end ByteCursor

namespace Scanner

def zipper (consumed rest : List Char) (finished : Bool) (log : Log) : Scanner :=
  ⟨Cursor.zipper consumed rest, finished, log⟩

variable (consumed : List Char) (finished : Bool) (log : Log)

theorem nextToken_zipper_nil :
    (zipper consumed [] finished log).nextToken =
      (Token.atEnd (Location.start.advance consumed), zipper consumed [] true log) := by
  rw [nextToken]
  rfl

theorem nextToken_zipper_cons (c : Char) (cs : List Char) :
    let m := Munch.ofChars c cs
    let consumed' := consumed ++ c :: m.more
    let rest' := cs.drop m.more.length
    (zipper consumed (c :: cs) finished log).nextToken =
      match Item.ofMunch? m (Location.start.advance consumed) c with
      | none => (zipper consumed' rest' finished log).nextToken
      | some (.token t) => (t, zipper consumed' rest' finished log)
      | some (.fault d) => (zipper consumed' rest' finished (log.report d)).nextToken := by
  have hmove : (Cursor.zipper consumed (c :: cs)).advanceBy ((Munch.ofChars c cs).more.length + 1) =
      Cursor.zipper (consumed ++ c :: (Munch.ofChars c cs).more)
        (cs.drop (Munch.ofChars c cs).more.length) := by
    rw [Cursor.advanceBy_zipper, List.take_succ_cons, List.drop_succ_cons,
      ← List.prefix_iff_eq_take.mp (Munch.form_ofChars c cs).more_isPrefix]
  have hrest : (zipper consumed (c :: cs) finished log).cursor.rest = c :: cs := rfl
  dsimp only
  rw [nextToken]
  split
  · rename_i h
    rw [hrest] at h
    cases h
  · rename_i h
    rw [hrest] at h
    cases h
    simp only [zipper, hmove]
    rfl

end Scanner

namespace ByteScanner

open ByteCursor (Reached)

def zipper (consumed rest : List Char) (finished : Bool) (log : Log) : ByteScanner :=
  ⟨ByteCursor.zipper consumed rest, finished, log⟩

section Turns

variable (consumed : List Char) (finished : Bool) (log : Log) (turns : Nat)

theorem nextTokenWithin?_zipper_nil :
    (zipper consumed [] finished log).nextTokenWithin? (turns + 1) =
      some (Token.atEnd (ByteCursor.zipper consumed []).place, zipper consumed [] true log) :=
  if_pos (ByteCursor.atEnd_zipper_nil consumed)

theorem nextTokenWithin?_zipper_cons (c : Char) (cs : List Char) :
    let m := Munch.ofChars c cs
    let consumed' := consumed ++ c :: m.more
    let rest' := cs.drop m.more.length
    (zipper consumed (c :: cs) finished log).nextTokenWithin? (turns + 1) =
      match Item.ofMunch? m (ByteCursor.zipper consumed (c :: cs)).place c with
      | none => (zipper consumed' rest' finished log).nextTokenWithin? turns
      | some (.token t) => some (t, zipper consumed' rest' finished log)
      | some (.fault d) =>
          (zipper consumed' rest' finished (log.report d)).nextTokenWithin? turns := by
  have hend : ¬ (zipper consumed (c :: cs) finished log).cursor.atEnd = true := by
    simp [zipper, ByteCursor.atEnd_zipper_cons]
  have hstep : (zipper consumed (c :: cs) finished log).cursor.dispatch? = _ :=
    ByteCursor.dispatch?_ofChars consumed c cs
  dsimp only
  rw [nextTokenWithin?, if_neg hend, hstep]
  simp only [Option.bind_eq_bind, Option.bind_some, ByteCursor.stepOver]
  cases Item.ofMunch? (Munch.ofChars c cs) (ByteCursor.zipper consumed (c :: cs)).place c with
  | none => rfl
  | some i =>
      cases i with
      | token t => rfl
      | fault d => rfl

/-- One turn of the loop hands out a token, or it passes a stretch of text, perhaps with a report,
and the loop goes on. The other scanner does the same where the place is its location. -/
theorem turn (c : Char) (cs : List Char) :
    let m := Munch.ofChars c cs
    let consumed' := consumed ++ c :: m.more
    let rest' := cs.drop m.more.length
    (∃ t, (∀ turns, (zipper consumed (c :: cs) finished log).nextTokenWithin? (turns + 1) =
        some (t, zipper consumed' rest' finished log)) ∧
      (consumed.length < 2 ^ 32 - 1 → (Scanner.zipper consumed (c :: cs) finished log).nextToken =
        (t, Scanner.zipper consumed' rest' finished log))) ∨
    ∃ log', (∀ turns, (zipper consumed (c :: cs) finished log).nextTokenWithin? (turns + 1) =
        (zipper consumed' rest' finished log').nextTokenWithin? turns) ∧
      (∀ d ∈ log'.entries, d.Invalid → d ∈ log.entries) ∧
      (consumed.length < 2 ^ 32 - 1 → (Scanner.zipper consumed (c :: cs) finished log).nextToken =
        (Scanner.zipper consumed' rest' finished log').nextToken) := by
  have hplace := @ByteCursor.place_zipper consumed (c :: cs)
  have hbytes := fun turns => nextTokenWithin?_zipper_cons consumed finished log turns c cs
  have hchars := Scanner.nextToken_zipper_cons consumed finished log c cs
  dsimp only at hbytes hchars ⊢
  cases hitem :
    Item.ofMunch? (Munch.ofChars c cs) (ByteCursor.zipper consumed (c :: cs)).place c with
  | none =>
      simp only [hitem] at hbytes
      refine .inr ⟨log, hbytes, fun _ hd _ => hd, ?_⟩
      intro hbound
      rw [hchars, ← hplace hbound, hitem]
  | some i =>
      cases i with
      | token t =>
          simp only [hitem] at hbytes
          refine .inl ⟨t, hbytes, ?_⟩
          intro hbound
          rw [hchars, ← hplace hbound, hitem]
      | fault d =>
          simp only [hitem] at hbytes
          refine .inr ⟨log.report d, hbytes, ?_, ?_⟩
          · intro e he hinvalid
            obtain h | h := List.mem_append.mp he
            · exact h
            · rw [List.mem_singleton.mp h] at hinvalid
              exact absurd hinvalid (Item.not_invalid_of_ofMunch? hitem)
          · intro hbound
            rw [hchars, ← hplace hbound, hitem]

end Turns

/-- The loop comes to a token in no more turns than there are characters left and one for the end.
It comes to the end of the text or moves on in it, and it reports no literal as malformed; where the
counters can number the characters, it does what the other scanner does. -/
theorem nextTokenWithin?_zipper {source : String} {consumed rest : List Char}
    (hk : Reached source (ByteCursor.zipper consumed rest)) (finished : Bool) (log : Log) :
    ∃ t consumed' rest' finished' log',
      (∀ turns, rest.length + 1 ≤ turns →
        (zipper consumed rest finished log).nextTokenWithin? turns =
          some (t, zipper consumed' rest' finished' log')) ∧
      Reached source (ByteCursor.zipper consumed' rest') ∧
      (finished' = true ∨ finished' = finished ∧ rest'.length < rest.length) ∧
      (∀ d ∈ log'.entries, d.Invalid → d ∈ log.entries) ∧
      (source.length < 2 ^ 32 - 1 → (Scanner.zipper consumed rest finished log).nextToken =
        (t, Scanner.zipper consumed' rest' finished' log')) := by
  -- A turn that hands out nothing has passed a character at least, so the rest gets shorter.
  induction hlength : rest.length using Nat.strong_induction_on generalizing consumed rest log with
  | h length ih =>
    subst hlength
    have hbound : source.length < 2 ^ 32 - 1 → consumed.length < 2 ^ 32 - 1 := by
      intro h
      rw [← String.length_toList, hk.toList_eq, List.length_append] at h
      omega
    cases rest with
    | nil =>
      refine ⟨Token.atEnd (ByteCursor.zipper consumed []).place, consumed, [], true, log, ?_, hk,
        .inl rfl, fun _ hd _ => hd, ?_⟩
      · intro turns hturns
        cases turns with
        | zero => omega
        | succ turns => exact nextTokenWithin?_zipper_nil consumed finished log turns
      · intro h
        rw [Scanner.nextToken_zipper_nil, ByteCursor.place_zipper [] (hbound h)]
    | cons c cs =>
      have hnext := hk.dispatch
      have hshorter : (cs.drop (Munch.ofChars c cs).more.length).length < (c :: cs).length := by
        rw [List.length_drop, List.length_cons]
        omega
      obtain ⟨t, hturn, hsame⟩ | ⟨log₁, hturn, hlog, hsame⟩ := turn consumed finished log c cs
      · refine ⟨t, _, _, finished, log, ?_, hnext, .inr ⟨rfl, hshorter⟩, fun _ hd _ => hd,
          fun h => hsame (hbound h)⟩
        intro turns hturns
        cases turns with
        | zero => omega
        | succ turns => exact hturn turns
      · obtain ⟨t, consumed', rest', finished', log', hrun, hreached, hmoved, hlog', hsame'⟩ :=
          ih _ hshorter hnext log₁ rfl
        refine ⟨t, consumed', rest', finished', log', ?_, hreached, ?_, ?_, ?_⟩
        · intro turns hturns
          cases turns with
          | zero => omega
          | succ turns => rw [hturn, hrun turns (by omega)]
        · exact hmoved.imp_right fun h => ⟨h.1, h.2.trans hshorter⟩
        · exact fun d hd hinvalid => hlog d (hlog' d hd hinvalid) hinvalid
        · intro h
          rw [hsame (hbound h), hsame' h]

theorem drainWithin?_of_finished {s : ByteScanner} (h : s.finished = true) (calls : Nat) :
    s.drainWithin? (calls + 1) = some ([], s) := by
  rw [drainWithin?, next?, if_pos h]
  rfl

theorem drainWithin?_of_nextToken? {s s' : ByteScanner} {t : Token} (h : s.finished = false)
    (ht : s.nextToken? = some (t, s')) (calls : Nat) :
    s.drainWithin? (calls + 1) = (s'.drainWithin? calls).map fun r => (t :: r.1, r.2) := by
  rw [drainWithin?, next?, if_neg (by simp [h]), ht]
  exact Option.map_eq_bind.symm

theorem drainWithin?_zipper {source : String} {consumed rest : List Char}
    (hk : Reached source (ByteCursor.zipper consumed rest)) (finished : Bool) (log : Log) :
    ∃ tokens consumed' rest' log',
      (∀ calls, (Scanner.zipper consumed rest finished log).pending + 1 ≤ calls →
        (zipper consumed rest finished log).drainWithin? calls =
          some (tokens, zipper consumed' rest' true log')) ∧
      (∀ d ∈ log'.entries, d.Invalid → d ∈ log.entries) ∧
      (source.length < 2 ^ 32 - 1 → (Scanner.zipper consumed rest finished log).drain =
        (tokens, Scanner.zipper consumed' rest' true log')) := by
  -- Every call takes something off what the other scanner counts as pending.
  induction hpending : (Scanner.zipper consumed rest finished log).pending using
    Nat.strong_induction_on generalizing consumed rest finished log with
  | h pending ih =>
    subst hpending
    cases finished with
    | true =>
      refine ⟨[], consumed, rest, log, ?_, fun _ hd _ => hd, ?_⟩
      · intro calls hcalls
        cases calls with
        | zero => omega
        | succ calls => exact drainWithin?_of_finished rfl calls
      · intro
        rw [Scanner.drain]
        rfl
    | false =>
      obtain ⟨t, consumed₁, rest₁, finished₁, log₁, hrun, hreached, hmoved, hlog, hsame⟩ :=
        nextTokenWithin?_zipper hk false log
      have htoken : (zipper consumed rest false log).nextToken? = _ :=
        hrun _ (Nat.succ_le_succ (ByteCursor.length_le_left_zipper consumed rest))
      have hless : (Scanner.zipper consumed₁ rest₁ finished₁ log₁).pending <
          (Scanner.zipper consumed rest false log).pending := by
        have hwhole : (Scanner.zipper consumed rest false log).pending = rest.length + 1 := rfl
        obtain rfl | ⟨rfl, hshorter⟩ := hmoved
        · exact hwhole ▸ Nat.succ_pos rest.length
        · exact hwhole ▸ Nat.succ_lt_succ hshorter
      obtain ⟨tokens, consumed', rest', log', hdrain, hlog', hsame'⟩ :=
        ih _ hless hreached finished₁ log₁ rfl
      refine ⟨t :: tokens, consumed', rest', log', ?_, ?_, ?_⟩
      · intro calls hcalls
        cases calls with
        | zero => omega
        | succ calls =>
            rw [drainWithin?_of_nextToken? rfl htoken, hdrain calls (by omega)]
            rfl
      · exact fun d hd hinvalid => hlog d (hlog' d hd hinvalid) hinvalid
      · intro h
        rw [Scanner.drain]
        split
        · rename_i hfinished
          cases hfinished
        · simp only [hsame h, hsame' h]

/-- Scanning a text succeeds and reports no literal as malformed. Where the counters can number the
characters of the text, the result is that of scanning the text as a whole. -/
theorem scan?_eq_some (source : String) :
    ∃ result, scan? source = some result ∧ (∀ d ∈ result.diagnostics, ¬ d.Invalid) ∧
      (source.length < 2 ^ 32 - 1 → result = scan source) := by
  have hstart := ByteCursor.ofString_eq_zipper source
  have hreached : Reached source (ByteCursor.zipper [] source.toList) := hstart ▸ Reached.start
  obtain ⟨tokens, consumed, rest, log, hrun, hlog, hsame⟩ :=
    drainWithin?_zipper hreached false .empty
  have hdrain : (zipper [] source.toList false .empty).drain? = _ :=
    hrun _ (Nat.add_le_add_right (ByteCursor.length_le_left_zipper [] source.toList) 2)
  refine ⟨⟨tokens, log.entries⟩, ?_, ?_, ?_⟩
  · rw [scan?, ofString, hstart, ← zipper, hdrain]
    rfl
  · intro d hd hinvalid
    exact List.not_mem_nil (hlog d hd hinvalid)
  · intro h
    obtain ⟨htokens, hentries⟩ := Scanner.drain_ofString .empty source
    have hwhole : (Scanner.ofString .empty source).drain = _ := hsame h
    rw [hwhole] at htokens hentries
    exact congrArg₂ Scan.mk htokens (congrArg Log.entries hentries)

/-- Scanning neither fails nor hangs, and it never falls back on calling a literal malformed. Slices
are had exactly between characters; where scanning gets to, it stands between characters, and as
long as there is text left each dispatch gets its slices, moves over one character at least and
stays within the text. So a call gives a token after no more turns than there are characters left
and one for the end. -/
theorem scanning_never_fails (source : String) :
    (∀ (text : String) (start stop : Nat), (Text.slice? text.toList start stop).isSome = true ↔
      start ≤ stop ∧ stop ≤ text.utf8ByteSize ∧
        String.Pos.Raw.IsValid text ⟨start⟩ ∧ String.Pos.Raw.IsValid text ⟨stop⟩) ∧
    (∀ (text : String) (start : Nat), (Text.dropBytes? text.toList start).isSome = true ↔
      String.Pos.Raw.IsValid text ⟨start⟩) ∧
    (∀ k, Reached source k →
      k.source = source ∧ String.Pos.Raw.IsValid source ⟨k.position⟩ ∧
      (k.atEnd = false → ∃ c cs item k', k.remaining? = some (c :: cs) ∧
        k.dispatch? = some (item, k') ∧
        item = Item.ofMunch? (Munch.ofChars c cs) k.place c ∧
        k'.remaining? = some (cs.drop (Munch.ofChars c cs).more.length) ∧
        k.position < k'.position ∧ k'.position ≤ source.utf8ByteSize ∧
        ∀ d, item = some (.fault d) → ¬ d.Invalid)) ∧
    (∀ k finished log, Reached source k →
      ∃ rest t s, k.remaining? = some rest ∧
        (∀ turns, rest.length + 1 ≤ turns →
          (ByteScanner.mk k finished log).nextTokenWithin? turns = some (t, s)) ∧
        (ByteScanner.mk k finished log).nextToken? = some (t, s) ∧ Reached source s.cursor ∧
        ∀ d ∈ s.log.entries, d.Invalid → d ∈ log.entries) ∧
    ∃ result, scan? source = some result ∧ (∀ d ∈ result.diagnostics, ¬ d.Invalid) ∧
      (source.length < 2 ^ 32 - 1 → result = scan source) := by
  refine ⟨fun _ _ _ => Text.isSome_slice?_iff, fun _ _ => Text.isSome_dropBytes?_iff, ?_, ?_,
    scan?_eq_some source⟩
  · intro k hk
    refine ⟨hk.source_eq, hk.isValid, ?_⟩
    intro he
    obtain ⟨c, cs, item, k', hrest, hdispatch, hitem, hmoved⟩ := hk.dispatch?_eq_some he
    refine ⟨c, cs, item, k', hrest, hdispatch, hitem, hmoved.1, hmoved.2.1, hmoved.2.2, ?_⟩
    rintro d rfl
    exact Item.not_invalid_of_ofMunch? hitem.symm
  · intro k finished log hk
    obtain ⟨consumed, rest, -, rfl⟩ := hk.exists_zipper
    obtain ⟨t, consumed', rest', finished', log', hrun, hreached, -, hlog, -⟩ :=
      nextTokenWithin?_zipper hk finished log
    exact ⟨rest, t, _, ByteCursor.remaining?_zipper consumed rest, hrun,
      hrun _ (Nat.succ_le_succ (ByteCursor.length_le_left_zipper consumed rest)), hreached, hlog⟩

/-- An exponent marker and a sign with no digit but a character of two bytes behind them, a radix
marker with no digit of its radix, and an escape that the end of the text cuts short. -/
theorem scanning_never_fails_on_stumps :
    Reached "1e-é 0b2 \"\\" (ByteCursor.ofString "1e-é 0b2 \"\\") ∧
      (ByteCursor.ofString "1e-é 0b2 \"\\").atEnd = false ∧
      (∃ item k, (ByteCursor.ofString "1e-é 0b2 \"\\").dispatch? = some (item, k) ∧
        0 < k.position ∧ k.position ≤ 12) ∧
      ∃ result, scan? "1e-é 0b2 \"\\" = some result ∧
        result.tokens.map Token.lexeme = ["1", "-", ""] ∧
        result.diagnostics.map Diagnostic.message =
          ["unknown character `e`", "unknown character `é`", "expected binary digit after `0b`",
            "unterminated string literal"] := by
  have hend : (ByteCursor.ofString "1e-é 0b2 \"\\").atEnd = false := by decide +kernel
  have hsize : "1e-é 0b2 \"\\".utf8ByteSize = 12 := by decide +kernel
  obtain ⟨-, -, hdispatch, -, result, hscan, -, hsame⟩ := scanning_never_fails "1e-é 0b2 \"\\"
  obtain ⟨-, -, hstart⟩ := hdispatch _ .start
  obtain ⟨c, cs, item, k, -, hitem, -, -, hmoved, hwithin, -⟩ := hstart hend
  rw [hsize] at hwithin
  refine ⟨.start, hend, ⟨item, k, hitem, hmoved, hwithin⟩, result, hscan, ?_⟩
  rw [hsame (by decide +kernel)]
  decide +kernel

end ByteScanner

end ScriptScan
