import Mathlib.Data.List.DropRight
import ScriptScan.ByteCursor
import ScriptScan.Proofs.Positions

namespace ScriptScan

namespace Text

theorem take_length_takeWhile (p : Char → Bool) (cs : List Char) :
    cs.take (cs.takeWhile p).length = cs.takeWhile p :=
  (List.prefix_iff_eq_take.mp (List.takeWhile_prefix p)).symm

theorem drop_length_takeWhile (p : Char → Bool) (cs : List Char) :
    cs.drop (cs.takeWhile p).length = cs.dropWhile p := by
  have hdrop := List.prefix_iff_eq_append.mp (List.takeWhile_prefix (l := cs) p)
  exact List.append_cancel_left (hdrop.trans List.takeWhile_append_dropWhile.symm)

theorem getElem?_toUTF8 (s : String) (i : Nat) : s.toUTF8[i]? = (bytes s.toList)[i]? := by
  rw [← toList_toUTF8, Array.getElem?_toList]
  by_cases h : i < s.toUTF8.size
  · rw [getElem?_pos s.toUTF8 i h, ByteArray.getElem_eq_getElem_data]
    exact (Array.getElem?_eq_getElem h).symm
  · rw [getElem?_neg s.toUTF8 i h]
    exact (Array.getElem?_eq_none (Nat.le_of_not_lt h)).symm

theorem getElem?_bytes_append (pre : List Char) (c : Char) (post : List Char) :
    (bytes (pre ++ c :: post))[byteSize pre]? = (String.utf8EncodeChar c)[0]? := by
  have hpos : 0 < (String.utf8EncodeChar c).length := by
    rw [String.length_utf8EncodeChar]
    exact c.utf8Size_pos
  have hsplit : bytes (pre ++ c :: post) =
      bytes pre ++ (String.utf8EncodeChar c ++ bytes post) := by
    rw [bytes, List.flatMap_append, List.flatMap_cons]
    rfl
  rw [hsplit, ← length_bytes, List.getElem?_append_right (Nat.le_refl _), Nat.sub_self,
    List.getElem?_append_left hpos]

theorem getElem?_utf8EncodeChar_cases (c : Char) :
    ∃ b, (String.utf8EncodeChar c)[0]? = some b ∧
      (b < 128 ∧ Char.ofNat b.toNat = c ∨ ¬ b < 128) := by
  by_cases hc : c.val.toNat ≤ 127
  · refine ⟨UInt8.ofNat c.val.toNat, ?_, .inl ⟨?_, ?_⟩⟩
    · rw [String.utf8EncodeChar, if_pos hc]
      rfl
    · rw [UInt8.lt_iff_toNat_lt, UInt8.toNat_ofNat_of_lt' (show _ < 256 by omega)]
      exact Nat.lt_succ_of_le hc
    · rw [UInt8.toNat_ofNat_of_lt' (show _ < 256 by omega)]
      exact Char.ofNat_toNat c
  · have hpos : 0 < (String.utf8EncodeChar c).length := by
      rw [String.length_utf8EncodeChar]
      exact c.utf8Size_pos
    refine ⟨_, List.getElem?_eq_getElem hpos, .inr ?_⟩
    have hle := le_toNat_of_mem_utf8EncodeChar (by omega) _ (List.getElem_mem hpos)
    rw [UInt8.lt_iff_toNat_lt]
    exact Nat.not_lt.mpr hle

theorem length_le_byteSize (cs : List Char) : cs.length ≤ byteSize cs := by
  induction cs with
  | nil => exact Nat.le_refl 0
  | cons c cs ih =>
      have hpos := c.utf8Size_pos
      rw [List.length_cons, byteSize]
      omega

theorem prefix_of_byteSize_le {a b cs : List Char} (ha : a <+: cs) (hb : b <+: cs)
    (hle : byteSize a ≤ byteSize b) : a <+: b := by
  obtain h | ⟨w, rfl⟩ := List.prefix_or_prefix_of_prefix ha hb
  · exact h
  · cases w with
    | nil => exact ⟨[], by simp⟩
    | cons c w =>
        have hw := byteSize_pos (List.cons_ne_nil c w)
        rw [byteSize_append] at hle
        omega

theorem isValid_iff {s : String} {offset : Nat} :
    String.Pos.Raw.IsValid s ⟨offset⟩ ↔ ∃ pre, pre <+: s.toList ∧ byteSize pre = offset := by
  rw [String.Pos.Raw.isValid_iff_exists_append]
  constructor
  · rintro ⟨a, b, rfl, hoffset⟩
    refine ⟨a.toList, ⟨b.toList, String.toList_append.symm⟩, ?_⟩
    rw [byteSize_toList]
    exact (congrArg String.Pos.Raw.byteIdx hoffset).symm
  · rintro ⟨pre, ⟨post, hs⟩, rfl⟩
    refine ⟨String.ofList pre, String.ofList post, ?_, ?_⟩
    · rw [← String.ofList_append, hs, String.ofList_toList]
    · rw [String.Pos.Raw.ext_iff]
      exact (utf8ByteSize_ofList pre).symm

theorem isSome_dropBytes?_iff {s : String} {start : Nat} :
    (dropBytes? s.toList start).isSome = true ↔ String.Pos.Raw.IsValid s ⟨start⟩ := by
  rw [isValid_iff, Option.isSome_iff_exists]
  constructor
  · rintro ⟨rest, h⟩
    obtain ⟨pre, hs, rfl⟩ := eq_append_of_dropBytes? h
    exact ⟨pre, ⟨rest, hs.symm⟩, rfl⟩
  · rintro ⟨pre, ⟨rest, hs⟩, rfl⟩
    exact ⟨rest, hs ▸ dropBytes?_append pre rest⟩

theorem isSome_slice?_iff {s : String} {start stop : Nat} :
    (slice? s.toList start stop).isSome = true ↔ start ≤ stop ∧ stop ≤ s.utf8ByteSize ∧
      String.Pos.Raw.IsValid s ⟨start⟩ ∧ String.Pos.Raw.IsValid s ⟨stop⟩ := by
  rw [isValid_iff, isValid_iff, Option.isSome_iff_exists]
  constructor
  · rintro ⟨piece, h⟩
    obtain ⟨pre, rest, hs, rfl, rfl⟩ := slice?_eq_some_iff.mp h
    refine ⟨by simp, ?_, ⟨pre, ⟨piece ++ rest, by rw [hs, List.append_assoc]⟩, rfl⟩,
      ⟨pre ++ piece, ⟨rest, hs.symm⟩, rfl⟩⟩
    rw [← byteSize_toList, hs, byteSize_append (pre ++ piece)]
    exact Nat.le_add_right _ _
  · rintro ⟨hle, -, ⟨pre, hpre, rfl⟩, ⟨pre', ⟨rest, hs⟩, rfl⟩⟩
    obtain ⟨piece, rfl⟩ := prefix_of_byteSize_le hpre ⟨rest, hs⟩ hle
    refine ⟨piece, ?_⟩
    rw [← hs]
    exact slice?_append pre piece rest

end Text

theorem Location.column_start_advance (cs : List Char) :
    (Location.start.advance cs).column = 1 + (cs.rtakeWhile (· ≠ '\n')).length := by
  induction cs using List.reverseRecOn with
  | nil => rfl
  | append_singleton cs c ih =>
      rw [Location.advance_append]
      by_cases hc : c = '\n'
      · subst hc
        rw [List.rtakeWhile_concat_neg _ _ _ (by simp)]
        rfl
      · rw [List.rtakeWhile_concat_pos _ _ _ (by simpa using hc), List.length_append,
          ← Nat.add_assoc, ← ih]
        exact Location.column_step_of_ne _ hc

namespace ByteCursor

/-- The cursor between `consumed` and `rest`. Its counters are those of the place, as words. -/
def zipper (consumed rest : List Char) : ByteCursor :=
  let p := Location.start.advance consumed
  ⟨String.ofList (consumed ++ rest), p.offset, UInt32.ofNat p.line, UInt32.ofNat p.column⟩

theorem ofString_eq_zipper (s : String) : ofString s = zipper [] s.toList := by
  rw [zipper, List.nil_append, String.ofList_toList]
  rfl

variable (consumed rest : List Char)

@[simp] theorem source_zipper : (zipper consumed rest).source = String.ofList (consumed ++ rest) :=
  rfl

@[simp] theorem position_zipper : (zipper consumed rest).position = Text.byteSize consumed :=
  Location.offset_start_advance consumed

theorem isValid_zipper :
    String.Pos.Raw.IsValid (zipper consumed rest).source ⟨(zipper consumed rest).position⟩ := by
  rw [Text.isValid_iff, source_zipper, String.toList_ofList]
  exact ⟨consumed, List.prefix_append _ _, (position_zipper consumed rest).symm⟩

theorem utf8ByteSize_source_zipper :
    (zipper consumed rest).source.utf8ByteSize = Text.byteSize consumed + Text.byteSize rest := by
  rw [source_zipper, Text.utf8ByteSize_ofList, Text.byteSize_append]

theorem length_le_left_zipper : rest.length ≤ (zipper consumed rest).left := by
  rw [left, utf8ByteSize_source_zipper, position_zipper, Nat.add_sub_cancel_left]
  exact Text.length_le_byteSize rest

theorem atEnd_zipper : (zipper consumed rest).atEnd = rest.isEmpty := by
  rw [atEnd, utf8ByteSize_source_zipper, position_zipper]
  cases rest with
  | nil => simp [Text.byteSize]
  | cons c rest =>
      have hpos := Text.byteSize_pos (List.cons_ne_nil c rest)
      rw [List.isEmpty_cons, decide_eq_false_iff_not]
      omega

theorem atEnd_zipper_nil : (zipper consumed []).atEnd = true := atEnd_zipper consumed []

theorem atEnd_zipper_cons (c : Char) : (zipper consumed (c :: rest)).atEnd = false :=
  atEnd_zipper consumed (c :: rest)

/-- Reading at a place further on; the place of the cursor itself is the case of an empty `more`. -/
theorem charAt?_zipper (more : List Char) :
    (zipper consumed (more ++ rest)).charAt? (Text.byteSize (consumed ++ more)) =
      some (rest.headD '\x00') := by
  have hsource : (zipper consumed (more ++ rest)).source.toList = (consumed ++ more) ++ rest := by
    rw [source_zipper, String.toList_ofList, List.append_assoc]
  rw [charAt?, ← Text.byteSize_toList, hsource, Text.byteSize_append _ rest]
  cases rest with
  | nil => rw [if_pos (by simp [Text.byteSize])]; rfl
  | cons c rest =>
      have hpos := Text.byteSize_pos (List.cons_ne_nil c rest)
      rw [if_neg (by omega), Text.getElem?_toUTF8, hsource, Text.getElem?_bytes_append]
      obtain ⟨b, hb, ⟨hlt, hchar⟩ | hge⟩ := Text.getElem?_utf8EncodeChar_cases c
      · simp only [hb, Option.bind_eq_bind, Option.bind_some, if_pos hlt, hchar, List.headD_cons]
      · simp only [hb, Option.bind_eq_bind, Option.bind_some, if_neg hge, sliceAfter?, hsource,
          Text.dropBytes?_append]

theorem current?_zipper : (zipper consumed rest).current? = some (rest.headD '\x00') := by
  have h := charAt?_zipper consumed rest []
  rw [List.append_nil, ← position_zipper consumed rest] at h
  exact h

theorem current?_zipper_cons (c : Char) : (zipper consumed (c :: rest)).current? = some c :=
  current?_zipper consumed (c :: rest)

theorem peek?_zipper : (zipper consumed rest).peek? = some (rest.tail.headD '\x00') := by
  cases rest with
  | nil => rw [peek?, if_pos (atEnd_zipper_nil consumed)]; rfl
  | cons c rest =>
      have h := charAt?_zipper consumed rest [c]
      have hplace : Text.byteSize (consumed ++ [c]) =
          (zipper consumed (c :: rest)).position + c.utf8Size := by
        rw [position_zipper, Text.byteSize_append]
        rfl
      rw [hplace] at h
      rw [peek?, if_neg (by simp [atEnd_zipper_cons]), current?_zipper_cons]
      exact h

theorem remaining?_zipper : (zipper consumed rest).remaining? = some rest := by
  rw [remaining?, sliceAfter?, source_zipper, String.toList_ofList, position_zipper,
    Text.dropBytes?_append]

theorem slice?_zipper (start stop : Nat) :
    (zipper consumed rest).slice? start stop = Text.slice? (consumed ++ rest) start stop := by
  rw [slice?, source_zipper, String.toList_ofList]

theorem slice?_zipper_between (pre piece post : List Char) :
    (zipper (pre ++ piece ++ post) rest).slice? (Text.byteSize pre)
      (Text.byteSize (pre ++ piece)) = some piece := by
  rw [slice?_zipper, List.append_assoc (pre ++ piece) post rest, Text.slice?_append]

theorem sliceFrom?_zipper (piece : List Char) :
    (zipper (consumed ++ piece) rest).sliceFrom? (Text.byteSize consumed) = some piece := by
  have h := slice?_zipper_between rest consumed piece []
  rw [List.append_nil] at h
  rw [sliceFrom?, position_zipper]
  exact h

theorem advance?_zipper_nil : (zipper consumed []).advance? = some (zipper consumed []) := by
  rw [advance?, if_pos (atEnd_zipper_nil consumed)]

theorem advance?_zipper_cons (c : Char) :
    (zipper consumed (c :: rest)).advance? = some (zipper (consumed ++ [c]) rest) := by
  rw [advance?, if_neg (by simp [atEnd_zipper_cons]), current?_zipper_cons]
  have hsource : consumed ++ c :: rest = consumed ++ [c] ++ rest := by simp
  have hstep : Location.start.advance (consumed ++ [c]) =
      (Location.start.advance consumed).step c := by
    rw [Location.advance_append]
    rfl
  by_cases hc : c = '\n'
  · simp only [Option.bind_eq_bind, Option.bind_some, if_pos hc, zipper, hsource, hstep,
      Location.step, UInt32.ofNat_add]
    rfl
  · simp only [Option.bind_eq_bind, Option.bind_some, if_neg hc, zipper, hsource, hstep,
      Location.step, UInt32.ofNat_add]
    rfl

theorem advance?_zipper :
    (zipper consumed rest).advance? = some (zipper (consumed ++ rest.take 1) (rest.drop 1)) := by
  cases rest with
  | nil => rw [advance?_zipper_nil, List.take_nil, List.append_nil, List.drop_nil]
  | cons c rest => exact advance?_zipper_cons consumed rest c

theorem matchChar?_zipper_cons (c : Char) :
    (zipper consumed (c :: rest)).matchChar? c = some (true, zipper (consumed ++ [c]) rest) := by
  rw [matchChar?, if_neg (by simp [atEnd_zipper_cons]), current?_zipper_cons]
  simp only [Option.bind_eq_bind, Option.bind_some, if_true, advance?_zipper_cons]

theorem matchChar?_zipper_of_ne {c : Char} (h : rest.head? ≠ some c) :
    (zipper consumed rest).matchChar? c = some (false, zipper consumed rest) := by
  cases rest with
  | nil => rw [matchChar?, if_pos (atEnd_zipper_nil consumed)]
  | cons d rest =>
      have hd : d ≠ c := fun he => h (congrArg some he)
      rw [matchChar?, if_neg (by simp [atEnd_zipper_cons]), current?_zipper_cons]
      simp only [Option.bind_eq_bind, Option.bind_some, if_neg hd]

theorem eatWhile?_zipper (p : Char → Bool) :
    (zipper consumed rest).eatWhile? p = some ((rest.takeWhile p).length,
      zipper (consumed ++ rest.takeWhile p) (rest.dropWhile p)) := by
  induction rest generalizing consumed with
  | nil =>
      rw [eatWhile?_of_atEnd p (atEnd_zipper_nil consumed), List.takeWhile_nil, List.append_nil]
      rfl
  | cons c rest ih =>
      have he := atEnd_zipper_cons consumed rest c
      have hc := current?_zipper_cons consumed rest c
      by_cases hp : p c = true
      · rw [eatWhile?_of_advance? he hc hp (advance?_zipper_cons consumed rest c), ih,
          List.takeWhile_cons_of_pos hp, List.dropWhile_cons_of_pos hp, List.append_assoc]
        rfl
      · rw [eatWhile?_of_not he hc (by simpa using hp), List.takeWhile_cons_of_neg hp,
          List.dropWhile_cons_of_neg hp, List.append_nil]
        rfl

end ByteCursor

namespace Cursor

def zipper (consumed rest : List Char) : Cursor :=
  ⟨consumed ++ rest, rest, Location.start.advance consumed⟩

variable (consumed rest : List Char)

theorem advance_zipper :
    (zipper consumed rest).advance = zipper (consumed ++ rest.take 1) (rest.drop 1) := by
  cases rest with
  | nil => simp [zipper, advance]
  | cons c rest =>
      simp only [zipper, advance, List.take_succ_cons, List.take_zero, List.drop_succ_cons,
        List.drop_zero, Location.advance_append, List.append_assoc, List.singleton_append]
      rfl

theorem advanceBy_zipper (n : Nat) :
    (zipper consumed rest).advanceBy n = zipper (consumed ++ rest.take n) (rest.drop n) := by
  induction n generalizing consumed rest with
  | zero => rw [List.take_zero, List.append_nil, List.drop_zero, advanceBy]
  | succ n ih =>
      rw [advanceBy, advance_zipper, ih, List.append_assoc, List.drop_drop, Nat.add_comm 1 n,
        ← List.take_add, Nat.add_comm 1 n]

theorem eatWhile_zipper (p : Char → Bool) :
    (zipper consumed rest).eatWhile p = ((rest.takeWhile p).length,
      zipper (consumed ++ rest.takeWhile p) (rest.dropWhile p)) := by
  have hrest : (zipper consumed rest).rest = rest := rfl
  rw [eatWhile, hrest, advanceBy_zipper, Text.take_length_takeWhile, Text.drop_length_takeWhile]

end Cursor

inductive Operation where
  | advance
  | matchChar (c : Char)
  | eatWhile (p : Char → Bool)
  | current
  | peek
  | remaining
  | sliceFrom (start : Nat)
  | slice (start stop : Nat)

/-- What a cursor answers. A slice that cannot be had is an answer too. -/
inductive Answer where
  | moved
  | matched (b : Bool)
  | eaten (n : Nat)
  | char (c : Char)
  | text (cs : Option (List Char))
  deriving DecidableEq

namespace ByteCursor

def perform? (k : ByteCursor) : Operation → Option (Answer × ByteCursor)
  | .advance => do
      let k ← k.advance?
      some (.moved, k)
  | .matchChar c => do
      let (b, k) ← k.matchChar? c
      some (.matched b, k)
  | .eatWhile p => do
      let (n, k) ← k.eatWhile? p
      some (.eaten n, k)
  | .current => do
      let c ← k.current?
      some (.char c, k)
  | .peek => do
      let c ← k.peek?
      some (.char c, k)
  | .remaining => do
      let cs ← k.remaining?
      some (.text (some cs), k)
  | .sliceFrom start => some (.text (k.sliceFrom? start), k)
  | .slice start stop => some (.text (k.slice? start stop), k)

def run? (k : ByteCursor) : List Operation → Option (List Answer × ByteCursor)
  | [] => some ([], k)
  | op :: ops => do
      let (answer, k) ← k.perform? op
      let (answers, k) ← k.run? ops
      some (answer :: answers, k)

end ByteCursor

namespace Cursor

def perform (k : Cursor) : Operation → Answer × Cursor
  | .advance => (.moved, k.advance)
  | .matchChar c => (.matched (k.matchChar c).1, (k.matchChar c).2)
  | .eatWhile p => (.eaten (k.eatWhile p).1, (k.eatWhile p).2)
  | .current => (.char k.current, k)
  | .peek => (.char k.peek, k)
  | .remaining => (.text (some k.rest), k)
  | .sliceFrom start => (.text (k.sliceFrom? start), k)
  | .slice start stop => (.text (k.slice? start stop), k)

def run (k : Cursor) : List Operation → List Answer × Cursor
  | [] => ([], k)
  | op :: ops =>
      ((k.perform op).1 :: ((k.perform op).2.run ops).1, ((k.perform op).2.run ops).2)

end Cursor

namespace ByteCursor

theorem perform?_zipper (consumed rest : List Char) (op : Operation) :
    ∃ answer n,
      (zipper consumed rest).perform? op =
        some (answer, zipper (consumed ++ rest.take n) (rest.drop n)) ∧
      (Cursor.zipper consumed rest).perform op =
        (answer, Cursor.zipper (consumed ++ rest.take n) (rest.drop n)) := by
  -- What only looks moves over no character, and a match moves over one or none.
  cases op with
  | advance =>
      refine ⟨.moved, 1, ?_, ?_⟩
      · rw [perform?, advance?_zipper]
        rfl
      · rw [Cursor.perform, Cursor.advance_zipper]
  | matchChar c =>
      by_cases hc : rest.head? = some c
      · obtain ⟨tail, rfl⟩ := List.head?_eq_some_iff.mp hc
        refine ⟨.matched true, 1, ?_, ?_⟩
        · rw [perform?, matchChar?_zipper_cons]
          rfl
        · have hmatch : (Cursor.zipper consumed (c :: tail)).matchChar c =
              (true, (Cursor.zipper consumed (c :: tail)).advance) := if_pos rfl
          rw [Cursor.perform, hmatch, Cursor.advance_zipper]
      · refine ⟨.matched false, 0, ?_, ?_⟩
        · rw [perform?, matchChar?_zipper_of_ne consumed rest hc]
          simp
        · have hmatch : (Cursor.zipper consumed rest).matchChar c =
              (false, Cursor.zipper consumed rest) := if_neg hc
          rw [Cursor.perform, hmatch]
          simp
  | eatWhile p =>
      refine ⟨.eaten (rest.takeWhile p).length, (rest.takeWhile p).length, ?_, ?_⟩
      · rw [perform?, eatWhile?_zipper, Text.take_length_takeWhile, Text.drop_length_takeWhile]
        rfl
      · rw [Cursor.perform, Cursor.eatWhile_zipper, Text.take_length_takeWhile,
          Text.drop_length_takeWhile]
  | current =>
      refine ⟨.char (rest.headD '\x00'), 0, ?_, ?_⟩
      · rw [perform?, current?_zipper]
        simp
      · simp [Cursor.perform, Cursor.current, Cursor.zipper]
  | peek =>
      refine ⟨.char (rest.tail.headD '\x00'), 0, ?_, ?_⟩
      · rw [perform?, peek?_zipper]
        simp
      · simp [Cursor.perform, Cursor.peek, Cursor.zipper]
  | remaining =>
      refine ⟨.text (some rest), 0, ?_, ?_⟩
      · rw [perform?, remaining?_zipper]
        simp
      · simp [Cursor.perform, Cursor.zipper]
  | sliceFrom start =>
      refine ⟨.text (Text.slice? (consumed ++ rest) start (Text.byteSize consumed)), 0, ?_, ?_⟩
      · rw [perform?, sliceFrom?, slice?_zipper, position_zipper]
        simp
      · have hplace := Location.offset_start_advance consumed
        simp only [Cursor.perform, Cursor.sliceFrom?, Cursor.slice?, Cursor.zipper, hplace,
          List.take_zero, List.append_nil, List.drop_zero]
  | slice start stop =>
      refine ⟨.text (Text.slice? (consumed ++ rest) start stop), 0, ?_, ?_⟩
      · rw [perform?, slice?_zipper]
        simp
      · simp [Cursor.perform, Cursor.slice?, Cursor.zipper]

theorem run?_zipper (consumed rest : List Char) (ops : List Operation) :
    ∃ answers n,
      (zipper consumed rest).run? ops =
        some (answers, zipper (consumed ++ rest.take n) (rest.drop n)) ∧
      (Cursor.zipper consumed rest).run ops =
        (answers, Cursor.zipper (consumed ++ rest.take n) (rest.drop n)) := by
  induction ops generalizing consumed rest with
  | nil => exact ⟨[], 0, by simp [run?], by simp [Cursor.run]⟩
  | cons op ops ih =>
      obtain ⟨answer, n, hstep, hstep'⟩ := perform?_zipper consumed rest op
      obtain ⟨answers, m, hrun, hrun'⟩ := ih (consumed ++ rest.take n) (rest.drop n)
      rw [List.append_assoc, ← List.take_add, List.drop_drop] at hrun hrun'
      refine ⟨answer :: answers, n + m, ?_, ?_⟩
      · rw [run?, hstep]
        simp only [Option.bind_eq_bind, Option.bind_some, hrun]
      · rw [Cursor.run, hstep', hrun']

structure Shows (k : ByteCursor) (consumed rest : List Char) : Prop where
  source : k.source = String.ofList (consumed ++ rest)
  position : k.position = (String.ofList consumed).utf8ByteSize
  boundary : String.Pos.Raw.IsValid k.source ⟨k.position⟩
  remaining : k.remaining? = some rest
  current : k.current? = some (rest.headD '\x00')
  peek : k.peek? = some (rest.tail.headD '\x00')
  atEnd : k.atEnd = true ↔ rest = []
  line : k.line.toNat = 1 + consumed.count '\n'
  column : k.column.toNat = 1 + (consumed.rtakeWhile (· ≠ '\n')).length

theorem shows_zipper {consumed rest : List Char} (h : (consumed ++ rest).length < 2 ^ 32 - 1) :
    (zipper consumed rest).Shows consumed rest := by
  have hcounters := counters_le consumed
  rw [List.length_append] at h
  constructor
  case source => rfl
  case position => rw [position_zipper, Text.utf8ByteSize_ofList]
  case boundary => exact isValid_zipper consumed rest
  case remaining => exact remaining?_zipper consumed rest
  case current => exact current?_zipper consumed rest
  case peek => exact peek?_zipper consumed rest
  case atEnd => rw [atEnd_zipper, List.isEmpty_iff]
  case line =>
    refine Eq.trans ?_ (Location.line_advance .start consumed)
    exact UInt32.toNat_ofNat_of_lt' (show _ < 2 ^ 32 by omega)
  case column =>
    refine Eq.trans ?_ (Location.column_start_advance consumed)
    exact UInt32.toNat_ofNat_of_lt' (show _ < 2 ^ 32 by omega)

/-- Whatever is asked of a byte cursor, it stands between two parts of the text: it shows what these
parts tell, moves over the text as they tell, and answers like the cursor that keeps the rest of the
text itself. Slices are had exactly between characters. -/
theorem operations_act_on_zipper (source : String) (h : source.length < 2 ^ 32 - 1)
    (ops : List Operation) :
    ∃ answers k consumed rest, (ofString source).run? ops = some (answers, k) ∧
      (Cursor.ofString source).run ops =
        (answers, ⟨source.toList, rest, Location.start.advance consumed⟩) ∧
      source.toList = consumed ++ rest ∧ k.Shows consumed rest ∧
      (∃ k', k.advance? = some k' ∧ k'.Shows (consumed ++ rest.take 1) (rest.drop 1)) ∧
      (∀ c, rest.head? = some c →
        ∃ k', k.matchChar? c = some (true, k') ∧ k'.Shows (consumed ++ [c]) rest.tail) ∧
      (∀ c, rest.head? ≠ some c → k.matchChar? c = some (false, k)) ∧
      (∀ p, ∃ k', k.eatWhile? p = some ((rest.takeWhile p).length, k') ∧
        k'.Shows (consumed ++ rest.takeWhile p) (rest.dropWhile p)) ∧
      (∀ start stop, (k.slice? start stop).isSome = true ↔
        start ≤ stop ∧ stop ≤ source.utf8ByteSize ∧
          String.Pos.Raw.IsValid source ⟨start⟩ ∧ String.Pos.Raw.IsValid source ⟨stop⟩) ∧
      (∀ start stop piece, k.slice? start stop = some piece ↔
        Text.Between source.toList start stop piece) ∧
      ∀ start, k.sliceFrom? start = k.slice? start k.position := by
  obtain ⟨answers, n, hrun, hrun'⟩ := run?_zipper [] source.toList ops
  rw [List.nil_append] at hrun hrun'
  have hsplit : source.toList = source.toList.take n ++ source.toList.drop n :=
    (List.take_append_drop n _).symm
  generalize source.toList.take n = consumed at hrun hrun' hsplit
  generalize source.toList.drop n = rest at hrun hrun' hsplit
  have hshows : ∀ a b, source.toList = a ++ b → (zipper a b).Shows a b := by
    intro a b hab
    apply shows_zipper
    rw [← hab, String.length_toList]
    exact h
  refine ⟨answers, zipper consumed rest, consumed, rest, ?_, ?_, hsplit, hshows _ _ hsplit,
    ?_, ?_, ?_, ?_, ?_, ?_, fun start => rfl⟩
  · rw [ofString_eq_zipper, hrun]
  · rw [hsplit]
    exact hrun'
  · refine ⟨_, advance?_zipper consumed rest, hshows _ _ ?_⟩
    rw [hsplit, List.append_assoc, List.take_append_drop]
  · intro c hc
    obtain ⟨tail, rfl⟩ := List.head?_eq_some_iff.mp hc
    refine ⟨_, matchChar?_zipper_cons consumed tail c, hshows _ _ ?_⟩
    rw [hsplit, List.append_assoc, List.singleton_append]
  · intro c hc
    exact matchChar?_zipper_of_ne consumed rest hc
  · intro p
    refine ⟨_, eatWhile?_zipper consumed rest p, hshows _ _ ?_⟩
    rw [hsplit, List.append_assoc, List.takeWhile_append_dropWhile]
  · intro start stop
    rw [slice?_zipper, ← hsplit]
    exact Text.isSome_slice?_iff
  · intro start stop piece
    rw [slice?_zipper, ← hsplit]
    exact Text.slice?_eq_some_iff

def sampleOperations : List Operation :=
  [.eatWhile (· ≠ '\n'), .matchChar '\x00', .slice 1 4, .slice 3 4, .advance, .sliceFrom 2,
    .advance, .peek, .matchChar '\x00']

/-- Characters of one, two and four bytes, a NUL and a line feed. A slice that begins inside of a
character is refused, and at the end the NUL that is shown does not match. -/
theorem operations_act_on_zipper_with_nul :
    "a\x00é\n😀".length < 2 ^ 32 - 1 ∧
      ∃ k, (ofString "a\x00é\n😀").run? sampleOperations =
        some ([.eaten 3, .matched false, .text (some ['\x00', 'é']), .text none, .moved,
          .text (some ['é', '\n']), .moved, .char '\x00', .matched false], k) ∧
      k.Shows ['a', '\x00', 'é', '\n', '😀'] [] := by
  have h : "a\x00é\n😀".length < 2 ^ 32 - 1 := by decide
  have hcomputed : ((Cursor.ofString "a\x00é\n😀").run sampleOperations).1 =
      [.eaten 3, .matched false, .text (some ['\x00', 'é']), .text none, .moved,
        .text (some ['é', '\n']), .moved, .char '\x00', .matched false] ∧
      ((Cursor.ofString "a\x00é\n😀").run sampleOperations).2.rest = [] := by
    decide +kernel
  have hchars : "a\x00é\n😀".toList = ['a', '\x00', 'é', '\n', '😀'] := by decide +kernel
  obtain ⟨answers, k, consumed, rest, hrun, hrun', hsplit, hshows, -⟩ :=
    operations_act_on_zipper "a\x00é\n😀" h sampleOperations
  rw [hrun'] at hcomputed
  obtain ⟨hanswers, hrest⟩ := hcomputed
  dsimp only at hanswers hrest
  rw [hrest, List.append_nil, hchars] at hsplit
  rw [hrest, ← hsplit] at hshows
  rw [hanswers] at hrun
  exact ⟨h, k, hrun, hshows⟩

end ByteCursor

end ScriptScan
