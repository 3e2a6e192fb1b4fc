import ScriptScan.ByteScanner
import ScriptScan.Proofs.Reprint
import ScriptScan.Proofs.Zipper

namespace ScriptScan.ByteCursor

open Munch Numeral

def stepOver (consumed : List Char) (c : Char) (cs : List Char) (m : Munch) : Step :=
  (Item.ofMunch? m (zipper consumed (c :: cs)).place c,
    zipper (consumed ++ c :: m.more) (cs.drop m.more.length))

theorem stepOver_append (consumed : List Char) (c : Char) (w rest : List Char) (o : Outcome) :
    stepOver consumed c (w ++ rest) ⟨w, o⟩ =
      (Item.ofMunch? ⟨w, o⟩ (zipper consumed (c :: (w ++ rest))).place c,
        zipper (consumed ++ c :: w) rest) := by
  rw [stepOver, List.drop_left]

section Results

variable (consumed : List Char) (c : Char) (w rest rest' : List Char)

theorem spanTo_zipper (o : Outcome) :
    (zipper consumed rest).spanTo (zipper (consumed ++ c :: w) rest') =
      Munch.span ⟨w, o⟩ (zipper consumed rest).place c := by
  have hstop : (zipper (consumed ++ c :: w) rest').position =
      (Munch.stop ⟨w, o⟩ (zipper consumed rest).place c).offset := by
    have hplace : (zipper consumed rest).place.offset = (zipper consumed rest).position := rfl
    rw [Munch.stop_eq_advance, Location.offset_advance, hplace, position_zipper, position_zipper,
      Text.byteSize_append]
  exact congrArg (fun stop => Span.mk _ stop _ _) hstop

theorem token?_zipper {kind : TokenKind} (hk : ∀ text, kind ≠ .string text) :
    (zipper consumed rest).token? (zipper (consumed ++ c :: w) rest') kind =
      some (Item.ofMunch? ⟨w, .token kind⟩ (zipper consumed rest).place c,
        zipper (consumed ++ c :: w) rest') := by
  have hlexeme : String.ofList (c :: w) = Munch.lexeme ⟨w, .token kind⟩ c kind := by
    cases kind with
    | string text => exact absurd rfl (hk text)
    | symbol s | number v f | eof => rfl
  rw [token?, position_zipper, sliceFrom?_zipper,
    spanTo_zipper consumed c w rest rest' (.token kind)]
  simp only [Option.bind_eq_bind, Option.bind_some, Item.ofMunch?, hlexeme]

theorem fault_zipper (cause : Fault) :
    (zipper consumed rest).fault (zipper (consumed ++ c :: w) rest') cause =
      (Item.ofMunch? ⟨w, .fault cause⟩ (zipper consumed rest).place c,
        zipper (consumed ++ c :: w) rest') := by
  rw [fault, spanTo_zipper consumed c w rest rest' (.fault cause)]
  rfl

theorem decoded?_zipper (f : NumberFormat) (v : Except Numeral.Error NumberValue) :
    (zipper consumed rest).decoded? (zipper (consumed ++ c :: w) rest') f v =
      some (Item.ofMunch? ⟨w, Munch.decoded f v⟩ (zipper consumed rest).place c,
        zipper (consumed ++ c :: w) rest') := by
  cases v with
  | ok value => exact token?_zipper consumed c w rest rest' (fun _ => nofun)
  | error e => exact congrArg some (fault_zipper consumed c w rest rest' (.number e))

end Results

section Symbols

variable (consumed : List Char) (c : Char) (cs : List Char)

theorem single?_zipper (s : Symbol) :
    (zipper consumed (c :: cs)).single? s =
      some (stepOver consumed c cs ⟨[], .token (.symbol s)⟩) := by
  rw [single?, advance?_zipper_cons]
  exact token?_zipper consumed c [] (c :: cs) cs (fun _ => nofun)

theorem withEqual?_zipper_equal (s t : Symbol) :
    (zipper consumed (c :: '=' :: cs)).withEqual? t s =
      some (stepOver consumed c ('=' :: cs) ⟨['='], .token (.symbol t)⟩) := by
  rw [withEqual?, advance?_zipper_cons]
  simp only [Option.bind_eq_bind, Option.bind_some, matchChar?_zipper_cons, if_true,
    List.append_assoc, List.singleton_append]
  exact token?_zipper consumed c ['='] _ cs (fun _ => nofun)

theorem withEqual?_zipper_alone (s t : Symbol) (h : cs.head? ≠ some '=') :
    (zipper consumed (c :: cs)).withEqual? t s =
      some (stepOver consumed c cs ⟨[], .token (.symbol s)⟩) := by
  rw [withEqual?, advance?_zipper_cons]
  simp only [Option.bind_eq_bind, Option.bind_some, matchChar?_zipper_of_ne _ _ h,
    Bool.false_eq_true, if_false]
  exact token?_zipper consumed c [] (c :: cs) cs (fun _ => nofun)

theorem unknown?_zipper :
    (zipper consumed (c :: cs)).unknown? c =
      some (stepOver consumed c cs ⟨[], .fault (.unknownCharacter c)⟩) := by
  rw [unknown?, advance?_zipper_cons]
  exact congrArg some (fault_zipper consumed c [] (c :: cs) cs (.unknownCharacter c))

theorem skipWhile?_zipper {p : Char → Bool} (hc : p c = true) :
    (zipper consumed (c :: cs)).skipWhile? p =
      some (stepOver consumed c cs ⟨cs.takeWhile p, .trivia⟩) := by
  rw [skipWhile?, eatWhile?_zipper, List.takeWhile_cons_of_pos hc, List.dropWhile_cons_of_pos hc,
    stepOver, Text.drop_length_takeWhile]
  rfl

end Symbols

section Delimited

variable (consumed rest : List Char)

theorem atClosing?_zipper :
    (zipper consumed rest).atClosing? = some (decide (closing <+: rest)) := by
  rw [atClosing?, current?_zipper, peek?_zipper]
  cases rest with
  | nil => rfl
  | cons c cs =>
      by_cases hc : c = '-'
      · subst hc
        cases cs with
        | nil => rfl
        | cons d cs =>
            simp only [Option.bind_eq_bind, Option.bind_some, List.headD_cons, if_true,
              List.tail_cons, closing, List.prefix_cons_inj, List.cons_prefix_cons, List.nil_prefix,
              and_true, eq_comm]
      · have hno : ¬ closing <+: c :: cs := fun h => hc (List.cons_prefix_cons.mp h).1.symm
        simp only [Option.bind_eq_bind, Option.bind_some, List.headD_cons, if_neg hc, hno,
          decide_false]

theorem toClosing?_zipper :
    (zipper consumed rest).toClosing? = match blockComment? rest with
      | some body => some (true, zipper (consumed ++ body) (rest.drop body.length))
      | none => some (false, zipper (consumed ++ rest) []) := by
  induction rest generalizing consumed with
  | nil =>
      rw [toClosing?, until?_of_atEnd (atEnd_zipper_nil consumed), List.append_nil]
      rfl
  | cons c cs ih =>
      have he := atEnd_zipper_cons consumed cs c
      have hfound := atClosing?_zipper consumed (c :: cs)
      by_cases h : closing <+: c :: cs
      · rw [decide_eq_true h] at hfound
        obtain ⟨t, ht⟩ := h
        obtain ⟨rfl, rfl⟩ : '-' = c ∧ '}' :: t = cs := List.cons.inj ht
        have hbody : blockComment? ('-' :: '}' :: t) = some ['-', '}'] := rfl
        rw [toClosing?, until?_of_found he hfound, hbody]
        simp only [Option.bind_eq_bind, Option.bind_some, if_true, advance?_zipper_cons,
          List.append_assoc]
        rfl
      · rw [decide_eq_false h] at hfound
        rw [toClosing?, until?_of_move he hfound (advance?_zipper_cons consumed cs c), ← toClosing?,
          ih, blockComment?_cons h]
        cases blockComment? cs with
        | none => simp
        | some body => simp

theorem atQuote?_zipper :
    (zipper consumed rest).atQuote? = some (decide (rest.headD '\x00' = '"')) := by
  rw [atQuote?, current?_zipper]
  rfl

theorem overEscape?_zipper_cons {c : Char} (hc : c ≠ '\\') :
    (zipper consumed (c :: rest)).overEscape? = some (zipper (consumed ++ [c]) rest) := by
  rw [overEscape?, current?_zipper_cons, advance?_zipper_cons]
  exact if_neg hc

theorem overEscape?_zipper_backslash :
    (zipper consumed ('\\' :: rest)).overEscape? =
      some (zipper (consumed ++ '\\' :: rest.take 1) (rest.drop 1)) := by
  rw [overEscape?, current?_zipper_cons, advance?_zipper_cons]
  simp only [Option.bind_eq_bind, Option.bind_some, if_true, advance?_zipper, List.append_assoc,
    List.singleton_append]

theorem toQuote?_zipper :
    (zipper consumed rest).toQuote? = match quotedBody? rest with
      | some body => some (true, zipper (consumed ++ body) (rest.drop body.length))
      | none => some (false, zipper (consumed ++ rest) []) := by
  fun_induction quotedBody? rest generalizing consumed with
  | case1 => rw [toQuote?, until?_of_atEnd (atEnd_zipper_nil consumed), List.append_nil]
  | case2 t =>
      rw [toQuote?, until?_of_found (atEnd_zipper_cons consumed t _) (atQuote?_zipper consumed _)]
      simp
  | case3 c cs ih =>
      rw [toQuote?, until?_of_move (atEnd_zipper_cons consumed _ _) (atQuote?_zipper consumed _)
        (overEscape?_zipper_backslash consumed _), ← toQuote?, List.drop_succ_cons, List.drop_zero,
        ih]
      cases quotedBody? cs with
      | none => simp
      | some body => simp
  | case4 c cs hq hb ih =>
      have hfound : (zipper consumed (c :: cs)).atQuote? = some false := by
        rw [atQuote?_zipper, List.headD_cons, decide_eq_false hq]
      have he := atEnd_zipper_cons consumed cs c
      by_cases hc : c = '\\'
      · -- A backslash at the end of the text: there is nothing for it to take along.
        have hcs : cs = [] := by
          cases cs with
          | nil => rfl
          | cons d ds => exact absurd rfl (hb d ds hc)
        subst hc hcs
        rw [toQuote?, until?_of_move he hfound (overEscape?_zipper_backslash consumed []),
          List.take_nil, List.drop_nil, until?_of_atEnd (atEnd_zipper_nil _)]
        rfl
      · rw [toQuote?, until?_of_move he hfound (overEscape?_zipper_cons consumed cs hc), ← toQuote?,
          ih]
        cases quotedBody? cs with
        | none => simp
        | some body => simp

theorem comment?_zipper_closed {cs body : List Char} (h : blockComment? cs = some body) :
    (zipper consumed ('{' :: '-' :: cs)).comment? =
      some (stepOver consumed '{' ('-' :: cs) ⟨'-' :: body, .trivia⟩) := by
  rw [comment?, advance?_zipper_cons]
  simp only [Option.bind_eq_bind, Option.bind_some, advance?_zipper_cons, toClosing?_zipper, h,
    if_true, List.append_assoc, List.cons_append, List.nil_append]
  rfl

theorem comment?_zipper_open {cs : List Char} (h : blockComment? cs = none) :
    (zipper consumed ('{' :: '-' :: cs)).comment? =
      some (stepOver consumed '{' ('-' :: cs) ⟨'-' :: cs, .fault .unterminatedComment⟩) := by
  rw [comment?, advance?_zipper_cons]
  simp only [Option.bind_eq_bind, Option.bind_some, advance?_zipper_cons, toClosing?_zipper, h,
    Bool.false_eq_true, if_false, List.append_assoc, List.cons_append, List.nil_append, stepOver,
    List.drop_length]
  exact congrArg some (fault_zipper consumed '{' ('-' :: cs) _ [] .unterminatedComment)

theorem string?_zipper_closed {cs body : List Char} (h : quotedBody? cs = some body) :
    (zipper consumed ('"' :: cs)).string? = some (stepOver consumed '"' cs
      ⟨body ++ ['"'], .token (.string (String.ofList body))⟩) := by
  obtain ⟨-, t, rfl⟩ := quotedBody?_sound h
  have hrest : (body ++ ['"'] ++ t).drop body.length = '"' :: t := by
    rw [List.append_assoc, List.drop_left]
    rfl
  have hquote := toQuote?_zipper (consumed ++ ['"']) (body ++ ['"'] ++ t)
  rw [h] at hquote
  dsimp only at hquote
  rw [hrest] at hquote
  have hslice := sliceFrom?_zipper (consumed ++ ['"']) ('"' :: t) body
  have hstop : consumed ++ ['"'] ++ body ++ ['"'] = consumed ++ '"' :: (body ++ ['"']) := by simp
  have hspan := spanTo_zipper consumed '"' (body ++ ['"']) ('"' :: (body ++ ['"'] ++ t)) t
    (.token (.string (String.ofList body)))
  rw [sliceFrom?] at hslice
  rw [string?, advance?_zipper_cons, stepOver_append]
  simp only [Option.bind_eq_bind, Option.bind_some, hquote, if_true,
    position_zipper (consumed ++ ['"']), hslice, advance?_zipper_cons, hstop, hspan]
  rfl

theorem string?_zipper_open {cs : List Char} (h : quotedBody? cs = none) :
    (zipper consumed ('"' :: cs)).string? =
      some (stepOver consumed '"' cs ⟨cs, .fault .unterminatedString⟩) := by
  rw [string?, advance?_zipper_cons]
  simp only [Option.bind_eq_bind, Option.bind_some, toQuote?_zipper, h, Bool.false_eq_true,
    if_false, List.append_assoc, List.singleton_append, stepOver, List.drop_length]
  exact congrArg some (fault_zipper consumed '"' cs _ [] .unterminatedString)

end Delimited

section Numbers

variable (consumed : List Char)

theorem utf8Size_of_isExponentMarker {m : Char} (h : Plain.isExponentMarker m = true) :
    Text.byteSize [m] = 1 := by
  obtain rfl | rfl := Plain.isExponentMarker_iff.mp h
  · rfl
  · rfl

theorem fraction?_zipper (rest : List Char) :
    (zipper consumed rest).fraction? = some ((Plain.readFraction? rest).isSome,
      zipper (consumed ++ fractionChars (Plain.readFraction? rest))
        (rest.drop (fractionChars (Plain.readFraction? rest)).length)) := by
  rw [fraction?, current?_zipper, peek?_zipper]
  cases rest with
  | nil => simp [Plain.readFraction?, fractionChars]
  | cons c cs =>
      by_cases hc : c = '.'
      · subst hc
        cases cs with
        | nil => simp [Plain.readFraction?, fractionChars]
        | cons d ds =>
            by_cases hd : d.isDigit = true
            · have hread : Plain.readFraction? ('.' :: d :: ds) =
                  some ((d :: ds).takeWhile Char.isDigit) := if_pos hd
              simp only [Option.bind_eq_bind, Option.bind_some, List.headD_cons, if_true,
                List.tail_cons, hd, advance?_zipper_cons, eatWhile?_zipper, hread, fractionChars,
                List.length_cons, List.drop_succ_cons, Text.drop_length_takeWhile,
                List.append_assoc, List.singleton_append, Option.isSome_some]
            · have hread : Plain.readFraction? ('.' :: d :: ds) = none := if_neg hd
              simp [hd, hread, fractionChars]
      · have hread := Plain.readFraction?_cons_of_ne hc cs
        simp [hc, hread, fractionChars]

theorem dropBytes?_marker {m : Char} (hm : Plain.isExponentMarker m = true) (cs : List Char) :
    Text.dropBytes? (m :: cs) 1 = some cs := by
  have h := Text.dropBytes?_append [m] cs
  rwa [utf8Size_of_isExponentMarker hm] at h

theorem dropBytes?_sign (cs : List Char) :
    Text.dropBytes? cs (if cs.head? == some '-' then 1 else 0) =
      some (if cs.head? == some '-' then cs.tail else cs) := by
  cases cs with
  | nil => rfl
  | cons d ds =>
      by_cases hd : d = '-'
      · subst hd
        exact Text.dropBytes?_append ['-'] ds
      · simp [hd, Text.dropBytes?]

theorem exponentParts?_zipper (m : Char) (negative : Bool) (ds : List Char) :
    (zipper consumed (m :: (if negative then ['-'] else []) ++ ds)).exponentParts? m negative =
      some (⟨m, negative, ds.takeWhile Char.isDigit⟩,
        zipper (consumed ++ Exponent.chars ⟨m, negative, ds.takeWhile Char.isDigit⟩)
          (ds.dropWhile Char.isDigit)) := by
  have hdigits := fun sign => sliceFrom?_zipper (consumed ++ m :: sign)
    (ds.dropWhile Char.isDigit) (ds.takeWhile Char.isDigit)
  cases negative with
  | true =>
      have hslice := hdigits ['-']
      simp only [exponentParts?, Option.bind_eq_bind, Option.bind_some, if_true, List.cons_append,
        List.nil_append, List.append_assoc, advance?_zipper_cons, eatWhile?_zipper,
        position_zipper, Exponent.chars] at hslice ⊢
      rw [hslice]
      rfl
  | false =>
      have hslice := hdigits []
      simp only [exponentParts?, Option.bind_eq_bind, Option.bind_some, Bool.false_eq_true,
        if_false, List.cons_append, List.nil_append, List.append_assoc, advance?_zipper_cons,
        eatWhile?_zipper, position_zipper, Exponent.chars] at hslice ⊢
      rw [hslice]
      rfl

theorem sign_append (cs : List Char) :
    (if cs.head? == some '-' then ['-'] else []) ++
      (if cs.head? == some '-' then cs.tail else cs) = cs := by
  cases cs with
  | nil => rfl
  | cons d ds =>
      by_cases hd : d = '-'
      · simp [hd]
      · simp [hd]

theorem readExponent?_marker {m : Char} (hm : Plain.isExponentMarker m = true) (cs : List Char) :
    Plain.readExponent? (m :: cs) =
      let negative := cs.head? == some '-'
      let ds := if negative then cs.tail else cs
      if ds.head?.any Char.isDigit then some ⟨m, negative, ds.takeWhile Char.isDigit⟩
      else none := by
  cases cs with
  | nil => rfl
  | cons d ds =>
      by_cases hd : d = '-'
      · subst hd
        cases ds with
        | nil => simp [Plain.readExponent?]
        | cons e es => simp [Plain.readExponent?, hm]
      · have hsign : (d == '-') = false := beq_false_of_ne hd
        rw [Plain.readExponent?_unsigned m hd]
        simp [hm, hsign]

theorem exponent?_zipper (rest : List Char) :
    (zipper consumed rest).exponent? = some (Plain.readExponent? rest,
      zipper (consumed ++ exponentChars (Plain.readExponent? rest))
        (rest.drop (exponentChars (Plain.readExponent? rest)).length)) := by
  rw [exponent?, current?_zipper, remaining?_zipper]
  cases rest with
  | nil => simp [Plain.isExponentMarker, Plain.readExponent?, exponentChars]
  | cons m cs =>
      by_cases hm : Plain.isExponentMarker m = true
      · simp only [Option.bind_eq_bind, Option.bind_some, List.headD_cons, hm, if_true,
          dropBytes?_marker hm, dropBytes?_sign, readExponent?_marker hm]
        have hparts := exponentParts?_zipper consumed m (cs.head? == some '-')
          (if cs.head? == some '-' then cs.tail else cs)
        rw [List.cons_append, sign_append] at hparts
        have hsplit := sign_append cs
        generalize (cs.head? == some '-') = negative at hparts hsplit ⊢
        generalize (if negative = true then cs.tail else cs) = ds at hparts hsplit ⊢
        by_cases hd : ds.head?.any Char.isDigit = true
        · have hdrop : (m :: cs).drop
              (Exponent.chars ⟨m, negative, ds.takeWhile Char.isDigit⟩).length =
                ds.dropWhile Char.isDigit := by
            rw [← hsplit, ← List.cons_append, Exponent.chars, List.length_append, ← List.drop_drop,
              List.drop_left, Text.drop_length_takeWhile]
          simp only [hd, if_true, hparts, Option.bind_some, exponentChars, hdrop]
        · simp [hd, exponentChars]
      · have hread := Plain.readExponent?_cons_of_not (by simpa using hm) cs
        simp [hm, hread, exponentChars]

theorem suffix_zipper (rest : List Char) :
    (zipper consumed rest).matchChar? 'n' = some (rest.head? == some 'n',
      zipper (consumed ++ suffixChars (rest.head? == some 'n'))
        (rest.drop (suffixChars (rest.head? == some 'n')).length)) := by
  by_cases h : rest.head? = some 'n'
  · obtain ⟨t, rfl⟩ := List.head?_eq_some_iff.mp h
    exact matchChar?_zipper_cons consumed t 'n'
  · rw [matchChar?_zipper_of_ne consumed rest h]
    simp [h, suffixChars]

theorem missingDigits_zipper (r : Radix) (marker : Char) (w rest rest' : List Char) :
    (zipper consumed rest).missingDigits (zipper (consumed ++ '0' :: w) rest') r marker
        ['0', marker] =
      (Item.ofMunch? ⟨w, .fault (.missingDigits r marker)⟩ (zipper consumed rest).place '0',
        zipper (consumed ++ '0' :: w) rest') := by
  rw [missingDigits, spanTo_zipper consumed '0' w rest rest' (.fault (.missingDigits r marker))]
  rfl

theorem marked?_zipper_missing {r : Radix} {marker : Char} {cs : List Char}
    (h : (Marked.read r marker cs).digits = []) :
    (zipper consumed ('0' :: marker :: cs)).marked? r marker =
      some (stepOver consumed '0' (marker :: cs)
        ⟨marker :: cs.takeWhile Char.isAlphanum, .fault (.missingDigits r marker)⟩) := by
  have hnone : cs.takeWhile (Digits.isOf r.base) = [] := h
  have hall : cs.dropWhile (Digits.isOf r.base) = cs := by
    rw [← Text.drop_length_takeWhile, hnone]
    rfl
  have hslice := slice?_zipper_between cs consumed ['0', marker] []
  have hstop := missingDigits_zipper consumed r marker (marker :: cs.takeWhile Char.isAlphanum)
    ('0' :: marker :: cs) (cs.dropWhile Char.isAlphanum)
  simp only [List.append_nil] at hslice
  simp only [marked?, Option.bind_eq_bind, Option.bind_some, advance?_zipper_cons, eatWhile?_zipper,
    hnone, hall, List.append_nil, List.length_nil, if_true, position_zipper, List.append_assoc,
    List.cons_append, List.nil_append, hslice, hstop, stepOver, List.length_cons,
    List.drop_succ_cons, Text.drop_length_takeWhile]

theorem marked?_zipper {r : Radix} {marker : Char} {cs : List Char}
    (h : (Marked.read r marker cs).digits ≠ []) :
    (zipper consumed ('0' :: marker :: cs)).marked? r marker =
      some (stepOver consumed '0' (marker :: cs) ⟨(Marked.read r marker cs).chars,
        Munch.decoded (.radix r) (Marked.read r marker cs).value⟩) := by
  have hcount : (cs.takeWhile (Digits.isOf r.base)).length ≠ 0 :=
    fun hnone => h (List.length_eq_zero_iff.mp hnone)
  have hdrop : (marker :: cs).drop (Marked.read r marker cs).chars.length =
      (cs.dropWhile (Digits.isOf r.base)).drop
        (suffixChars (Marked.read r marker cs).suffixed).length := by
    rw [Marked.chars, List.length_append, ← List.drop_drop, List.length_cons, List.drop_succ_cons]
    exact congrArg (List.drop _) (Text.drop_length_takeWhile _ cs)
  have hslice := sliceFrom?_zipper (consumed ++ ['0', marker])
    (cs.dropWhile (Digits.isOf r.base)) (cs.takeWhile (Digits.isOf r.base))
  have hstop := decoded?_zipper consumed '0' (Marked.read r marker cs).chars
    ('0' :: marker :: cs) ((marker :: cs).drop (Marked.read r marker cs).chars.length) (.radix r)
    (Marked.read r marker cs).value
  rw [stepOver, ← hstop, hdrop]
  simp only [marked?, Option.bind_eq_bind, Option.bind_some, advance?_zipper_cons, eatWhile?_zipper,
    hcount, if_false, position_zipper, List.append_assoc, List.cons_append, List.nil_append,
    suffix_zipper] at hslice ⊢
  rw [hslice]
  rfl

theorem integerOf_eq (p : Plain) :
    integerOf (p.whole ++ fractionChars p.fraction) p.fraction.isSome p.exponent = p.integer := by
  obtain ⟨whole, fraction, exponent, suffixed⟩ := p
  cases fraction with
  | some ds => rfl
  | none =>
      rw [fractionChars, List.append_nil]
      rfl

theorem floatOf_body {p : Plain} (hp : p.Proper) (hs : p.suffixed = false) :
    floatOf p.body = p.float := by
  have hbody : p.body = p.chars := by
    rw [Plain.chars, hs]
    exact (List.append_nil _).symm
  have hread : Plain.ofText? p.body = some p := by
    rw [Plain.ofText?, hbody, hp.read_chars]
    exact if_pos ⟨hp.whole.1, hbody⟩
  rw [floatOf, hread]

/-- Both texts that are decoded start where the literal does. One ends before the exponent and one
before the suffix, and the cursor has been at both places. -/
theorem decimal?_zipper {p : Plain} (hp : p.Proper) {c : Char} {w : List Char}
    (hw : p.chars = c :: w) (start atMantissa atNumber rest : List Char) :
    (zipper consumed start).decimal?
        (zipper (consumed ++ p.whole ++ fractionChars p.fraction) atMantissa)
        (zipper (consumed ++ p.whole ++ fractionChars p.fraction ++ exponentChars p.exponent)
          atNumber)
        (zipper (consumed ++ p.whole ++ fractionChars p.fraction ++ exponentChars p.exponent ++
          suffixChars p.suffixed) rest)
        p.fraction.isSome p.exponent p.suffixed =
      some (Item.ofMunch? ⟨w, Munch.decoded p.format p.value⟩ (zipper consumed start).place c,
        zipper (consumed ++ c :: w) rest) := by
  have hmantissa := slice?_zipper_between rest consumed (p.whole ++ fractionChars p.fraction)
    (exponentChars p.exponent ++ suffixChars p.suffixed)
  have hbody := slice?_zipper_between rest consumed p.body (suffixChars p.suffixed)
  have hstop := decoded?_zipper consumed c w start rest p.format p.value
  have hformat : p.format = if p.exponent.isSome then .exponential else .decimal := rfl
  rw [← hstop, ← hw, Plain.value, Plain.chars, Plain.body, hformat]
  simp only [Plain.body, decimal?, position_zipper, List.append_assoc] at hmantissa hbody ⊢
  by_cases hs : p.suffixed = true
  · simp only [hs, if_true, Option.bind_eq_bind] at hmantissa ⊢
    rw [hmantissa, Option.bind_some, integerOf_eq]
  · have hfloat := floatOf_body hp (by simpa using hs)
    simp only [Plain.body, List.append_assoc] at hfloat
    simp only [hs, if_false, Bool.false_eq_true, Option.bind_eq_bind] at hbody ⊢
    rw [hbody, Option.bind_some, hfloat]

theorem drop_chars_read (cs : List Char) :
    cs.drop (Plain.read cs).chars.length =
      (((cs.dropWhile Char.isDigit).drop (fractionChars (Plain.read cs).fraction).length).drop
        (exponentChars (Plain.read cs).exponent).length).drop
          (suffixChars (Plain.read cs).suffixed).length := by
  rw [Plain.chars, Plain.body, List.length_append, List.length_append, List.length_append,
    ← List.drop_drop, ← List.drop_drop, ← List.drop_drop, ← Text.drop_length_takeWhile]
  rfl

theorem plain?_zipper {c : Char} (hc : c.isDigit = true) (cs : List Char) :
    (zipper consumed (c :: cs)).plain? = some (stepOver consumed c cs
      ⟨(Plain.read (c :: cs)).chars.tail,
        Munch.decoded (Plain.read (c :: cs)).format (Plain.read (c :: cs)).value⟩) := by
  have hchars := Plain.chars_read_cons cs hc
  have hdrop : cs.drop (Plain.read (c :: cs)).chars.tail.length =
      (c :: cs).drop (Plain.read (c :: cs)).chars.length := by
    nth_rewrite 2 [hchars]
    rw [List.length_cons, List.drop_succ_cons]
  rw [stepOver, hdrop, drop_chars_read]
  simp only [plain?, Option.bind_eq_bind, Option.bind_some, eatWhile?_zipper, fraction?_zipper,
    exponent?_zipper, suffix_zipper]
  exact decimal?_zipper consumed (Plain.proper_read cs hc) hchars _ _ _ _

theorem number?_zipper_plain {c : Char} {cs : List Char} (hm : NoMarker c cs) :
    (zipper consumed (c :: cs)).number? = (zipper consumed (c :: cs)).plain? := by
  rw [number?, current?_zipper_cons, peek?_zipper]
  by_cases h0 : c = '0'
  · have hmarker : Radix.ofMarker? (cs.headD '\x00') = none := by
      cases cs with
      | nil => rfl
      | cons marker cs => exact hm h0 marker rfl
    simp only [Option.bind_eq_bind, Option.bind_some, if_pos h0, List.tail_cons, hmarker]
  · simp only [Option.bind_eq_bind, Option.bind_some, if_neg h0]

theorem number?_zipper_marked {marker : Char} {r : Radix} (hr : Radix.ofMarker? marker = some r)
    (cs : List Char) :
    (zipper consumed ('0' :: marker :: cs)).number? =
      (zipper consumed ('0' :: marker :: cs)).marked? r marker := by
  rw [number?, current?_zipper_cons, peek?_zipper]
  simp only [Option.bind_eq_bind, Option.bind_some, if_true, List.tail_cons, List.headD_cons, hr]

end Numbers

section Dispatch

variable (consumed : List Char)

theorem dispatch?_zipper_single {c : Char} {s : Symbol} (hs : Symbol.ofChar? c = some s)
    (hbrace : c ≠ '{') (hminus : c ≠ '-') (ht : s.withEqual? = none) (cs : List Char) :
    (zipper consumed (c :: cs)).dispatch? = (zipper consumed (c :: cs)).single? s := by
  rw [dispatch?, current?_zipper_cons]
  simp only [Option.bind_eq_bind, Option.bind_some, if_neg hbrace, if_neg hminus, hs, ht]

theorem dispatch?_zipper_withEqual {c : Char} {s t : Symbol} (hs : Symbol.ofChar? c = some s)
    (hbrace : c ≠ '{') (hminus : c ≠ '-') (ht : s.withEqual? = some t) (cs : List Char) :
    (zipper consumed (c :: cs)).dispatch? = (zipper consumed (c :: cs)).withEqual? t s := by
  rw [dispatch?, current?_zipper_cons]
  simp only [Option.bind_eq_bind, Option.bind_some, if_neg hbrace, if_neg hminus, hs, ht]

theorem dispatch?_zipper_other {c : Char} (hs : Symbol.ofChar? c = none) (cs : List Char) :
    (zipper consumed (c :: cs)).dispatch? =
      if isBlank c then (zipper consumed (c :: cs)).skipWhile? isBlank
      else if c = '"' then (zipper consumed (c :: cs)).string?
      else if c.isDigit then (zipper consumed (c :: cs)).number?
      else (zipper consumed (c :: cs)).unknown? c := by
  have hbrace : c ≠ '{' := by
    rintro rfl
    cases hs
  have hminus : c ≠ '-' := by
    rintro rfl
    cases hs
  rw [dispatch?, current?_zipper_cons]
  simp only [Option.bind_eq_bind, Option.bind_some, if_neg hbrace, if_neg hminus, hs]

theorem dispatch?_zipper_noComment {c : Char} {cs : List Char} {s : Symbol}
    (hs : Symbol.ofChar? c = some s) (hn : NoComment c cs) (hc : c = '{' ∨ c = '-') :
    (zipper consumed (c :: cs)).dispatch? = (zipper consumed (c :: cs)).single? s := by
  have hpeek : cs.headD '\x00' ≠ '-' := by
    intro h
    cases cs with
    | nil => cases h
    | cons d cs => exact hn hc.symm (congrArg some h)
  rw [dispatch?, current?_zipper_cons, peek?_zipper]
  obtain rfl | rfl := hc
  · cases hs
    simp only [Option.bind_eq_bind, Option.bind_some, if_true, List.tail_cons, if_neg hpeek]
  · cases hs
    have hbrace : ¬ '-' = '{' := by decide
    simp only [Option.bind_eq_bind, Option.bind_some, if_neg hbrace, if_true, List.tail_cons,
      if_neg hpeek]

theorem dispatch?_zipper_number {c : Char} (hc : c.isDigit = true) (cs : List Char) :
    (zipper consumed (c :: cs)).dispatch? = (zipper consumed (c :: cs)).number? := by
  obtain ⟨hb, hq⟩ := not_special_of_isDigit hc
  have hs : Symbol.ofChar? c = none := by
    cases h : Symbol.ofChar? c with
    | none => rfl
    | some s =>
        rw [(not_special_of_ofChar? h).2.2] at hc
        cases hc
  rw [dispatch?_zipper_other consumed hs, if_neg (by simp [hb]), if_neg hq, if_pos hc]

/-- A dispatch succeeds wherever the text goes on, and steps over the stretch that stands there. -/
theorem dispatch?_zipper {c : Char} {cs : List Char} {m : Munch} (h : m.Form c cs) :
    (zipper consumed (c :: cs)).dispatch? = some (stepOver consumed c cs m) := by
  cases h with
  | blanks hc =>
      have hs : Symbol.ofChar? c = none := by
        cases h : Symbol.ofChar? c with
        | none => rfl
        | some s =>
            rw [(not_special_of_ofChar? h).1] at hc
            cases hc
      rw [dispatch?_zipper_other consumed hs, if_pos hc, skipWhile?_zipper consumed c cs hc]
  | lineComment cs =>
      rw [dispatch?, current?_zipper_cons, peek?_zipper]
      exact skipWhile?_zipper consumed '-' ('-' :: cs) (by decide)
  | blockComment hb =>
      rw [dispatch?, current?_zipper_cons, peek?_zipper]
      exact comment?_zipper_closed consumed hb
  | openComment hb =>
      rw [dispatch?, current?_zipper_cons, peek?_zipper]
      exact comment?_zipper_open consumed hb
  | string hq =>
      rw [dispatch?_zipper_other consumed rfl]
      exact string?_zipper_closed consumed hq
  | openString hq =>
      rw [dispatch?_zipper_other consumed rfl]
      exact string?_zipper_open consumed hq
  | marked hr hd =>
      rw [dispatch?_zipper_number consumed (by decide), number?_zipper_marked consumed hr,
        marked?_zipper consumed hd]
  | missingDigits hr hd =>
      rw [dispatch?_zipper_number consumed (by decide), number?_zipper_marked consumed hr,
        marked?_zipper_missing consumed hd]
  | plain hc hm =>
      rw [dispatch?_zipper_number consumed hc, number?_zipper_plain consumed hm,
        plain?_zipper consumed hc]
  | @symbol _ _ s hs hn he =>
      by_cases hc : c = '{' ∨ c = '-'
      · rw [dispatch?_zipper_noComment consumed hs hn hc, single?_zipper]
      · rw [not_or] at hc
        cases ht : s.withEqual? with
        | none => rw [dispatch?_zipper_single consumed hs hc.1 hc.2 ht, single?_zipper]
        | some t =>
            obtain he | he := he
            · rw [ht] at he
              cases he
            · rw [dispatch?_zipper_withEqual consumed hs hc.1 hc.2 ht,
                withEqual?_zipper_alone consumed c cs s t he]
  | @symbolEqual _ cs s t hs ht =>
      have hbrace : c ≠ '{' := by
        rintro rfl
        cases hs
        cases ht
      have hminus : c ≠ '-' := by
        rintro rfl
        cases hs
        cases ht
      rw [dispatch?_zipper_withEqual consumed hs hbrace hminus ht, withEqual?_zipper_equal]
  | unknown hb hq hd hs =>
      rw [dispatch?_zipper_other consumed hs, if_neg (by simp [hb]), if_neg hq,
        if_neg (by simp [hd]), unknown?_zipper]

end Dispatch

end ScriptScan.ByteCursor
