import ScriptScan.Proofs.Inert
import ScriptScan.Proofs.Spelling
import ScriptScan.Text.Json

namespace ScriptScan.Json

/-- What JSON texts stand for. The fields of an object are kept in order. -/
inductive Value where
  | null
  | boolean (b : Bool)
  | number (q : ℚ)
  | string (s : String)
  | array (elements : List Value)
  | object (fields : List (String × Value))

def isSpace (c : Char) : Bool := c = ' ' || c = '\t' || c = '\n' || c = '\r'

def skipSpace (cs : List Char) : List Char := cs.dropWhile isSpace

section Strings

def readUnit? : List Char → Option (Nat × List Char)
  | a :: b :: c :: d :: cs => (Digits.toNat? 16 [a, b, c, d]).map (·, cs)
  | _ => none

/-- The character beyond the first 65536 that is spelled by two units. -/
def ofPair? (high low : Nat) : Option Char :=
  if high < 0xDC00 ∧ 0xDC00 ≤ low ∧ low < 0xE000 then
    some (Char.ofNat (0x10000 + (high - 0xD800) * 0x400 + (low - 0xDC00)))
  else none

def readCode? (cs : List Char) : Option (Char × List Char) := do
  let (high, cs) ← readUnit? cs
  if high < 0xD800 ∨ 0xE000 ≤ high then some (Char.ofNat high, cs)
  else
    let '\\' :: 'u' :: cs := cs | none
    let (low, cs) ← readUnit? cs
    (ofPair? high low).map (·, cs)

def ofEscape? : Char → Option Char
  | '"' => some '"'
  | '\\' => some '\\'
  | '/' => some '/'
  | 'b' => some '\x08'
  | 'f' => some '\x0c'
  | 'n' => some '\n'
  | 'r' => some '\r'
  | 't' => some '\t'
  | _ => none

def readChar? : List Char → Option (Char × List Char)
  | [] => none
  | '\\' :: 'u' :: cs => readCode? cs
  | '\\' :: c :: cs => (ofEscape? c).map (·, cs)
  | c :: cs => if c.toNat < 0x20 then none else some (c, cs)

theorem length_readUnit? {cs : List Char} {p : Nat × List Char} (h : readUnit? cs = some p) :
    p.2.length < cs.length := by
  unfold readUnit? at h
  split at h
  · obtain ⟨n, -, rfl⟩ := Option.map_eq_some_iff.mp h
    simp only [List.length_cons]
    omega
  · cases h

theorem length_readCode? {cs : List Char} {p : Char × List Char} (h : readCode? cs = some p) :
    p.2.length < cs.length := by
  obtain ⟨⟨high, rest⟩, hhigh, h⟩ := Option.bind_eq_some_iff.mp h
  have hrest := length_readUnit? hhigh
  dsimp only at h hrest
  split at h
  · cases h
    exact hrest
  · split at h
    · obtain ⟨⟨low, last⟩, hlow, h⟩ := Option.bind_eq_some_iff.mp h
      have hlast := length_readUnit? hlow
      dsimp only at h hlast
      obtain ⟨c, -, rfl⟩ := Option.map_eq_some_iff.mp h
      simp only [List.length_cons] at hrest ⊢
      omega
    · cases h

theorem length_readChar? {cs : List Char} {p : Char × List Char} (h : readChar? cs = some p) :
    p.2.length < cs.length := by
  unfold readChar? at h
  split at h
  · cases h
  · have hlt := length_readCode? h
    simp only [List.length_cons]
    omega
  · obtain ⟨c, -, rfl⟩ := Option.map_eq_some_iff.mp h
    simp only [List.length_cons]
    omega
  · split at h
    · cases h
    · cases h
      exact Nat.lt_succ_self _

def readString? (cs : List Char) : Option (String × List Char) :=
  if cs.head? = some '"' then some ("", cs.tail)
  else
    match _h : readChar? cs with
    | none => none
    | some (c, rest) => (readString? rest).map fun p => (String.ofList [c] ++ p.1, p.2)
termination_by cs.length
decreasing_by exact length_readChar? _h

end Strings

section Numbers

def readDigits? (cs : List Char) : Option (List Char × List Char) :=
  if cs.takeWhile Char.isDigit = [] then none
  else some (cs.takeWhile Char.isDigit, cs.dropWhile Char.isDigit)

def readWhole? : List Char → Option (List Char × List Char)
  | '0' :: cs => some (['0'], cs)
  | cs => readDigits? cs

def readFraction? : List Char → Option (List Char × List Char)
  | '.' :: cs => readDigits? cs
  | cs => some ([], cs)

def readPower? : List Char → Option (ℤ × List Char)
  | '-' :: cs => (readDigits? cs).map fun p => (-(Digits.number 10 p.1 : ℤ), p.2)
  | '+' :: cs => (readDigits? cs).map fun p => (Digits.number 10 p.1, p.2)
  | cs => (readDigits? cs).map fun p => (Digits.number 10 p.1, p.2)

def readExponent? : List Char → Option (ℤ × List Char)
  | 'e' :: cs => readPower? cs
  | 'E' :: cs => readPower? cs
  | cs => some (0, cs)

def readAmount? (cs : List Char) : Option (ℚ × List Char) := do
  let (whole, cs) ← readWhole? cs
  let (fraction, cs) ← readFraction? cs
  let (power, cs) ← readExponent? cs
  return (Digits.number 10 (whole ++ fraction) * 10 ^ (power - fraction.length), cs)

def readNumber? : List Char → Option (ℚ × List Char)
  | '-' :: cs => (readAmount? cs).map fun p => (-p.1, p.2)
  | cs => readAmount? cs

end Numbers

def readWord? : List Char → Option (Value × List Char)
  | 'n' :: 'u' :: 'l' :: 'l' :: cs => some (.null, cs)
  | 't' :: 'r' :: 'u' :: 'e' :: cs => some (.boolean true, cs)
  | 'f' :: 'a' :: 'l' :: 's' :: 'e' :: cs => some (.boolean false, cs)
  | _ => none

theorem length_skipSpace (cs : List Char) : (skipSpace cs).length ≤ cs.length :=
  (List.dropWhile_suffix isSpace).length_le

theorem length_of_skipSpace {cs rest : List Char} {c : Char} (h : skipSpace cs = c :: rest) :
    rest.length < cs.length := by
  have hle := length_skipSpace cs
  rw [h, List.length_cons] at hle
  exact hle

mutual

def read? (cs : List Char) : Option (Value × List Char) :=
  match _h : skipSpace cs with
  | [] => none
  | c :: rest =>
      if c = '"' then (readString? rest).map fun p => (.string p.1, p.2)
      else if c = '[' then
        if (skipSpace rest).head? = some ']' then some (.array [], (skipSpace rest).tail)
        else (readElements? rest).map fun p => (.array p.1, p.2)
      else if c = '{' then
        if (skipSpace rest).head? = some '}' then some (.object [], (skipSpace rest).tail)
        else (readFields? rest).map fun p => (.object p.1, p.2)
      else if c = '-' ∨ c.isDigit then
        (readNumber? (c :: rest)).map fun p => (.number p.1, p.2)
      else readWord? (c :: rest)
termination_by (cs.length, 0)
decreasing_by
  all_goals
    exact Prod.Lex.left _ _ (length_of_skipSpace _h)

/-- The elements of an array up to its closing bracket. The rest of a text is always shorter than
the text, which is checked for the sake of the recursion. -/
def readElements? (cs : List Char) : Option (List Value × List Char) := do
  let (v, after) ← read? cs
  match skipSpace after with
  | ']' :: rest => some ([v], rest)
  | ',' :: rest =>
      if rest.length < cs.length then (readElements? rest).map fun p => (v :: p.1, p.2) else none
  | _ => none
termination_by (cs.length, 1)

def readFields? (cs : List Char) : Option (List (String × Value) × List Char) := do
  let '"' :: body := skipSpace cs | none
  let (key, after) ← readString? body
  let ':' :: body := skipSpace after | none
  if body.length < cs.length then
    let (v, after) ← read? body
    match skipSpace after with
    | '}' :: rest => some ([(key, v)], rest)
    | ',' :: rest =>
        if rest.length < cs.length then
          (readFields? rest).map fun p => ((key, v) :: p.1, p.2)
        else none
    | _ => none
  else none
termination_by (cs.length, 1)

end

def decode? (s : String) : Option Value := do
  let (v, rest) ← read? s.toList
  if skipSpace rest = [] then some v else none

theorem hexDigits_control : ∀ n < 0x20,
    Digits.toNat? 16 ['0', '0', hexDigit (n / 16), hexDigit (n % 16)] = some n := by decide

theorem readChar?_of_printed {c : Char} (h : c ≠ '\\') (hprinted : ¬ c.toNat < 0x20)
    (rest : List Char) : readChar? (c :: rest) = some (c, rest) := by
  unfold readChar?
  split <;> simp_all

theorem readChar?_escape (c : Char) (rest : List Char) :
    readChar? (escape c ++ rest) = some (c, rest) := by
  unfold escape
  split
  · rfl
  · rfl
  · rfl
  · rfl
  · rfl
  · rfl
  · rfl
  · rename_i hbackslash _ _ _ _ _
    split
    · rename_i hcontrol
      have hunit := hexDigits_control c.toNat hcontrol
      simp only [List.cons_append, List.nil_append]
      rw [readChar?, readCode?, readUnit?, hunit]
      simp only [Option.map_some, Option.bind_eq_bind, Option.bind_some]
      rw [if_pos (.inl (by omega)), Char.ofNat_toNat]
    · rename_i hprinted
      exact readChar?_of_printed hbackslash hprinted rest

theorem head?_escape_ne (c : Char) (rest : List Char) :
    (escape c ++ rest).head? ≠ some '"' := by
  unfold escape
  split
  · simp
  · simp
  · simp
  · simp
  · simp
  · simp
  · simp
  · split
    · simp
    · simp_all

/-- A string is read back from its escapes: no escape begins with a quote, and each is read as the
character that it stands for. -/
theorem readString?_append (s rest : List Char) :
    readString? (s.flatMap escape ++ '"' :: rest) = some (String.ofList s, rest) := by
  induction s with
  | nil =>
      rw [readString?, List.flatMap_nil, List.nil_append]
      exact if_pos rfl
  | cons c s ih =>
      rw [List.flatMap_cons, List.append_assoc, readString?, if_neg (head?_escape_ne c _)]
      split
      · rename_i h
        rw [readChar?_escape] at h
        cases h
      · rename_i h
        rw [readChar?_escape] at h
        cases h
        rw [ih, Option.map_some, ← String.ofList_append]
        rfl

section Blanks

@[simp] theorem skipSpace_newline (cs : List Char) : skipSpace ('\n' :: cs) = skipSpace cs := rfl

@[simp] theorem skipSpace_space (cs : List Char) : skipSpace (' ' :: cs) = skipSpace cs := rfl

theorem skipSpace_cons {c : Char} (h : isSpace c = false) (cs : List Char) :
    skipSpace (c :: cs) = c :: cs := by
  rw [skipSpace, List.dropWhile_cons_of_neg (by simp [h])]

theorem read?_congr {cs cs' : List Char} (h : skipSpace cs = skipSpace cs') :
    read? cs = read? cs' := by
  rw [read?, read?, h]

end Blanks

section Amounts

variable {after : List Char}

theorem readDigits?_append {digits : List Char} (h : Text.IsRun Char.isDigit digits)
    (hafter : Text.Inert after) : readDigits? (digits ++ after) = some (digits, after) := by
  have htake : (digits ++ after).takeWhile Char.isDigit = digits := by
    rw [hafter.stops_isDigit.takeWhile_append, List.takeWhile_eq_self_iff]
    exact h.2
  have hdrop : (digits ++ after).dropWhile Char.isDigit = after := by
    rw [hafter.stops_isDigit.dropWhile_append, List.dropWhile_eq_nil_iff.mpr h.2, List.nil_append]
  rw [readDigits?, htake, hdrop, if_neg h.1]

theorem readFraction?_inert (hafter : Text.Inert after) :
    readFraction? after = some ([], after) := by
  unfold readFraction?
  split
  · exact absurd rfl (hafter '.' rfl).2.1
  · rfl

theorem readExponent?_inert (hafter : Text.Inert after) :
    readExponent? after = some (0, after) := by
  unfold readExponent?
  split
  · cases (hafter 'e' rfl).1
  · cases (hafter 'E' rfl).1
  · rfl

theorem head_toDigits {n : Nat} (h : 0 < n) : (Nat.toDigits 10 n).head? ≠ some '0' := by
  induction n using Nat.strongRecOn with
  | ind n ih =>
      rw [Nat.toDigits_eq_if (by decide)]
      split
      · rename_i hlt
        have hdigit : ∀ n < 10, 0 < n → [Nat.digitChar n].head? ≠ some '0' := by decide
        exact hdigit n hlt h
      · rename_i hle
        rw [List.head?_append_of_ne_nil _ Nat.toDigits_ne_nil]
        exact ih _ (by omega) (by omega)

theorem readWhole?_repr (n : Nat) (hafter : Text.Inert after) :
    readWhole? (n.repr.toList ++ after) = some (n.repr.toList, after) := by
  obtain rfl | hpos := Nat.eq_zero_or_pos n
  · rfl
  · have hhead : n.repr.toList.head? ≠ some '0' := by
      rw [Nat.repr_eq_ofList_toDigits, String.toList_ofList]
      exact head_toDigits hpos
    rw [← readDigits?_append (Digits.isRun_repr n) hafter]
    unfold readWhole?
    split
    · rename_i heq
      rw [← List.head?_append_of_ne_nil _ (Digits.isRun_repr n).1, heq] at hhead
      exact absurd rfl hhead
    · rfl

theorem readAmount?_repr (n : Nat) (hafter : Text.Inert after) :
    readAmount? (n.repr.toList ++ after) = some ((n : ℚ), after) := by
  simp only [readAmount?, readWhole?_repr n hafter, readFraction?_inert hafter,
    readExponent?_inert hafter, Option.bind_eq_bind, Option.bind_some, List.append_nil,
    Digits.number_repr]
  simp

theorem exists_cons_repr (n : Nat) : ∃ c cs, n.repr.toList = c :: cs ∧ c.isDigit = true := by
  obtain ⟨hne, hdigits⟩ := Digits.isRun_repr n
  obtain ⟨c, cs, hcons⟩ := List.exists_cons_of_ne_nil hne
  exact ⟨c, cs, hcons, hdigits c (by simp [hcons])⟩

theorem readNumber?_repr (n : Nat) (hafter : Text.Inert after) :
    readNumber? (n.repr.toList ++ after) = some ((n : ℚ), after) := by
  obtain ⟨c, cs, hcons, hc⟩ := exists_cons_repr n
  rw [← readAmount?_repr n hafter]
  unfold readNumber?
  split
  · rename_i heq
    rw [hcons] at heq
    cases heq
    cases hc
  · rfl

end Amounts

def Scalar.value : Scalar → Value
  | string s => .string s
  | number n => .number n

theorem toList_quoted (s : String) :
    (quoted s).toList = '"' :: (s.toList.flatMap escape ++ ['"']) := by
  rw [quoted, String.toList_ofList]
  rfl

theorem not_isSpace_of_isDigit {c : Char} (h : c.isDigit = true) : isSpace c = false := by
  cases hc : isSpace c with
  | false => rfl
  | true =>
      simp only [isSpace, Bool.or_eq_true, decide_eq_true_eq] at hc
      obtain ((rfl | rfl) | rfl) | rfl := hc <;> cases h

theorem read?_text (x : Scalar) {after : List Char} (hafter : Text.Inert after) :
    read? (x.text.toList ++ after) = some (x.value, after) := by
  cases x with
  | string s =>
      have htext : (Scalar.string s).text.toList ++ after =
          '"' :: (s.toList.flatMap escape ++ '"' :: after) := by
        rw [Scalar.text, toList_quoted]
        simp
      rw [htext, read?, skipSpace_cons rfl]
      dsimp only
      rw [if_pos rfl, readString?_append, String.ofList_toList]
      rfl
  | number n =>
      obtain ⟨c, cs, hcons, hc⟩ := exists_cons_repr n
      have hnumber := readNumber?_repr n hafter
      rw [hcons, List.cons_append] at hnumber
      rw [Scalar.text, hcons, List.cons_append, read?,
        skipSpace_cons (not_isSpace_of_isDigit hc)]
      dsimp only
      rw [if_neg, if_neg, if_neg, if_pos (.inr hc), hnumber]
      · rfl
      · rintro rfl; cases hc
      · rintro rfl; cases hc
      · rintro rfl; cases hc

section Containers

variable {cs after : List Char}

theorem readFields?_eq {f : String × Scalar} (hafter : Text.Inert after)
    (h : skipSpace cs = (quoted f.1).toList ++ ':' :: ' ' :: (f.2.text.toList ++ after)) :
    readFields? cs =
      match skipSpace after with
      | '}' :: rest => some ([(f.1, f.2.value)], rest)
      | ',' :: rest => (readFields? rest).map fun p => ((f.1, f.2.value) :: p.1, p.2)
      | _ => none := by
  have hfield : skipSpace cs = '"' :: (f.1.toList.flatMap escape ++
      '"' :: ':' :: ' ' :: (f.2.text.toList ++ after)) := by
    rw [h, toList_quoted]
    simp
  have hlength : (' ' :: (f.2.text.toList ++ after)).length < cs.length := by
    have hlt := length_of_skipSpace hfield
    simp only [List.length_cons, List.length_append] at hlt ⊢
    omega
  have hvalue : read? (' ' :: (f.2.text.toList ++ after)) = some (f.2.value, after) := by
    rw [read?_congr (skipSpace_space _), read?_text _ hafter]
  have hrest : ∀ rest, skipSpace after = ',' :: rest → rest.length < cs.length := by
    intro rest hskip
    have hlt := length_of_skipSpace hskip
    simp only [List.length_cons, List.length_append] at hlength
    omega
  rw [readFields?, hfield]
  simp only [readString?_append, Option.bind_eq_bind, Option.bind_some,
    skipSpace_cons (c := ':') rfl, if_pos hlength, hvalue, String.ofList_toList]
  split
  · rfl
  · rename_i rest heq
    rw [if_pos (hrest rest heq)]
  · rfl

theorem readElements?_eq {v : Value} (h : read? cs = some (v, after))
    (hlength : after.length ≤ cs.length) :
    readElements? cs =
      match skipSpace after with
      | ']' :: rest => some ([v], rest)
      | ',' :: rest => (readElements? rest).map fun p => (v :: p.1, p.2)
      | _ => none := by
  have hrest : ∀ rest, skipSpace after = ',' :: rest → rest.length < cs.length :=
    fun rest hskip => Nat.lt_of_lt_of_le (length_of_skipSpace hskip) hlength
  rw [readElements?, h]
  simp only [Option.bind_eq_bind, Option.bind_some]
  split
  · rfl
  · rename_i rest heq
    rw [if_pos (hrest rest heq)]
  · rfl

theorem skipSpace_fieldText (f : String × Scalar) (after : List Char) :
    skipSpace ((fieldText f).toList ++ after) =
      (quoted f.1).toList ++ ':' :: ' ' :: (f.2.text.toList ++ after) := by
  have htext : (fieldText f).toList ++ after = ' ' :: ' ' :: ' ' :: ' ' ::
      ((quoted f.1).toList ++ ':' :: ' ' :: (f.2.text.toList ++ after)) := by
    simp [fieldText]
  rw [htext, toList_quoted]
  exact skipSpace_cons (c := '"') rfl _

theorem inert_newline (cs : List Char) : Text.Inert ('\n' :: cs) := by
  rintro _ ⟨⟩
  decide

theorem inert_comma (cs : List Char) : Text.Inert (',' :: cs) := by
  rintro _ ⟨⟩
  decide

theorem toList_intercalate_cons (x y : String) (xs : List String) :
    (",\n".intercalate (x :: y :: xs)).toList =
      x.toList ++ ',' :: '\n' :: (",\n".intercalate (y :: xs)).toList := by
  rw [String.intercalate_cons_cons]
  simp

def Object.values (o : Object) : List (String × Value) := o.map fun f => (f.1, f.2.value)

theorem readFields?_append {o : Object} (hne : o ≠ []) (rest : List Char) :
    readFields? ('\n' :: ((",\n".intercalate (o.map fieldText)).toList ++
      '\n' :: ' ' :: ' ' :: '}' :: rest)) = some (o.values, rest) := by
  induction o with
  | nil => exact absurd rfl hne
  | cons f o ih =>
      cases o with
      -- A value ends at a line feed here, and at a comma below; neither could belong to a number.
      | nil =>
          have hfield := skipSpace_fieldText f ('\n' :: ' ' :: ' ' :: '}' :: rest)
          rw [List.map_singleton, String.intercalate_singleton,
            readFields?_eq (inert_newline _) ((skipSpace_newline _).trans hfield)]
          rfl
      | cons g o =>
          have hfield := skipSpace_fieldText f (',' :: '\n' ::
            ((",\n".intercalate ((g :: o).map fieldText)).toList ++
              '\n' :: ' ' :: ' ' :: '}' :: rest))
          rw [List.map_cons, List.map_cons, toList_intercalate_cons, List.append_assoc,
            List.cons_append, List.cons_append, ← List.map_cons,
            readFields?_eq (inert_comma _) ((skipSpace_newline _).trans hfield)]
          simp only [skipSpace_cons (c := ',') rfl]
          rw [ih (List.cons_ne_nil g o)]
          rfl

theorem exists_append_intercalate (x : String) (xs : List String) :
    ∃ t, (",\n".intercalate (x :: xs)).toList = x.toList ++ t := by
  cases xs with
  | nil => exact ⟨[], by rw [String.intercalate_singleton, List.append_nil]⟩
  | cons y xs => exact ⟨_, toList_intercalate_cons x y xs⟩

theorem read?_objectText (o : Object) (after : List Char) :
    read? ('\n' :: ((objectText o).toList ++ after)) = some (.object o.values, after) := by
  have htext : (objectText o).toList ++ after = ' ' :: ' ' :: '{' :: '\n' ::
      ((",\n".intercalate (o.map fieldText)).toList ++ '\n' :: ' ' :: ' ' :: '}' :: after) := by
    simp [objectText]
  rw [htext, read?, skipSpace_newline, skipSpace_space, skipSpace_space,
    skipSpace_cons (c := '{') rfl]
  dsimp only
  rw [if_neg (by decide), if_neg (by decide), if_pos rfl]
  cases o with
  | nil => rfl
  | cons f o =>
      have hquote : (skipSpace ('\n' :: ((",\n".intercalate ((f :: o).map fieldText)).toList ++
          '\n' :: ' ' :: ' ' :: '}' :: after))).head? = some '"' := by
        obtain ⟨t, ht⟩ := exists_append_intercalate (fieldText f) (o.map fieldText)
        rw [List.map_cons, ht, List.append_assoc, skipSpace_newline, skipSpace_fieldText,
          toList_quoted]
        rfl
      rw [hquote, if_neg (by decide), readFields?_append (List.cons_ne_nil f o)]
      rfl

theorem readElements?_append {objects : List Object} (hne : objects ≠ []) (rest : List Char) :
    readElements? ('\n' :: ((",\n".intercalate (objects.map objectText)).toList ++
      '\n' :: ']' :: rest)) = some (objects.map fun o => .object o.values, rest) := by
  induction objects with
  | nil => exact absurd rfl hne
  | cons o objects ih =>
      cases objects with
      | nil =>
          have hobject := read?_objectText o ('\n' :: ']' :: rest)
          rw [List.map_singleton, String.intercalate_singleton, readElements?_eq hobject]
          · rfl
          · simp only [List.length_cons, List.length_append]
            omega
      | cons g objects =>
          have hobject := read?_objectText o (',' :: '\n' ::
            ((",\n".intercalate ((g :: objects).map objectText)).toList ++ '\n' :: ']' :: rest))
          rw [List.map_cons, List.map_cons, toList_intercalate_cons, List.append_assoc,
            List.cons_append, List.cons_append, ← List.map_cons, readElements?_eq hobject]
          · simp only [skipSpace_cons (c := ',') rfl]
            rw [ih (List.cons_ne_nil g objects)]
            rfl
          · simp only [List.length_cons, List.length_append]
            omega

theorem decode?_arrayText (objects : List Object) :
    decode? (arrayText objects) = some (.array (objects.map fun o => .object o.values)) := by
  cases objects with
  | nil =>
      rw [decode?, show (arrayText []).toList = ['[', ']'] from rfl, read?,
        skipSpace_cons (c := '[') rfl]
      rfl
  | cons o objects =>
      have htext : (arrayText (o :: objects)).toList = '[' :: '\n' ::
          ((",\n".intercalate ((o :: objects).map objectText)).toList ++ '\n' :: ']' :: []) := by
        simp [arrayText]
      have hbrace : (skipSpace ('\n' ::
          ((",\n".intercalate ((o :: objects).map objectText)).toList ++
            '\n' :: ']' :: []))).head? = some '{' := by
        obtain ⟨t, ht⟩ := exists_append_intercalate (objectText o) (objects.map objectText)
        rw [List.map_cons, ht]
        simp [objectText]
        rfl
      rw [decode?, htext, read?, skipSpace_cons (c := '[') rfl]
      dsimp only
      rw [if_neg (by decide), if_pos rfl, hbrace, if_neg (by decide),
        readElements?_append (List.cons_ne_nil o objects)]
      rfl

end Containers

end ScriptScan.Json
