import Mathlib.Data.List.TakeWhile
import ScriptScan.Text.Bytes

namespace ScriptScan.Text

theorem byteSize_pos {cs : List Char} (h : cs ≠ []) : 0 < byteSize cs := by
  cases cs with
  | nil => exact absurd rfl h
  | cons c cs =>
      have hc := c.utf8Size_pos
      simp only [byteSize]
      omega

theorem utf8ByteSize_ofList (cs : List Char) : (String.ofList cs).utf8ByteSize = byteSize cs := by
  induction cs with
  | nil => rfl
  | cons c cs ih =>
      rw [String.ofList_cons, String.utf8ByteSize_append, String.utf8ByteSize_singleton, ih]
      rfl

theorem byteSize_toList (s : String) : byteSize s.toList = s.utf8ByteSize := by
  rw [← utf8ByteSize_ofList, String.ofList_toList]

theorem dropBytes?_cons (c : Char) (cs : List Char) (n : Nat) :
    dropBytes? (c :: cs) (c.utf8Size + n) = dropBytes? cs n := by
  obtain ⟨k, hk⟩ := Nat.exists_eq_succ_of_ne_zero (Nat.pos_iff_ne_zero.mp c.utf8Size_pos)
  have hn : c.utf8Size + n = (k + n) + 1 := by omega
  rw [hn, dropBytes?, if_pos (by omega)]
  congr 1
  omega

theorem takeBytes?_cons (c : Char) (cs : List Char) (n : Nat) :
    takeBytes? (c :: cs) (c.utf8Size + n) = (takeBytes? cs n).map (c :: ·) := by
  obtain ⟨k, hk⟩ := Nat.exists_eq_succ_of_ne_zero (Nat.pos_iff_ne_zero.mp c.utf8Size_pos)
  have hn : c.utf8Size + n = (k + n) + 1 := by omega
  rw [hn, takeBytes?, if_pos (by omega)]
  congr 2
  omega

theorem dropBytes?_append (a b : List Char) : dropBytes? (a ++ b) (byteSize a) = some b := by
  induction a with
  | nil => rw [List.nil_append, byteSize, dropBytes?]
  | cons c a ih => rw [List.cons_append, byteSize, dropBytes?_cons, ih]

theorem takeBytes?_append (a b : List Char) : takeBytes? (a ++ b) (byteSize a) = some a := by
  induction a with
  | nil => rw [List.nil_append, byteSize, takeBytes?]
  | cons c a ih => rw [List.cons_append, byteSize, takeBytes?_cons, ih]; rfl

theorem slice?_append (a w b : List Char) :
    slice? (a ++ w ++ b) (byteSize a) (byteSize (a ++ w)) = some w := by
  have hle : byteSize a ≤ byteSize (a ++ w) := by simp
  have hsize : byteSize (a ++ w) - byteSize a = byteSize w := by simp
  rw [slice?, if_pos hle, List.append_assoc, dropBytes?_append, Option.bind_some, hsize,
    takeBytes?_append]

theorem eq_append_of_dropBytes? {cs rest : List Char} {n : Nat} (h : dropBytes? cs n = some rest) :
    ∃ pre, cs = pre ++ rest ∧ byteSize pre = n := by
  fun_induction dropBytes? cs n with
  | case1 cs => exact ⟨[], Option.some.inj h, rfl⟩
  | case2 n => cases h
  | case3 c cs n hc ih =>
      obtain ⟨pre, rfl, hpre⟩ := ih h
      refine ⟨c :: pre, rfl, ?_⟩
      rw [byteSize, hpre]
      omega
  | case4 c cs n hc => cases h

theorem eq_append_of_takeBytes? {cs piece : List Char} {n : Nat}
    (h : takeBytes? cs n = some piece) : ∃ rest, cs = piece ++ rest ∧ byteSize piece = n := by
  fun_induction takeBytes? cs n generalizing piece with
  | case1 cs =>
      cases h
      exact ⟨cs, rfl, rfl⟩
  | case2 n => cases h
  | case3 c cs n hc ih =>
      obtain ⟨piece, hpiece, rfl⟩ := Option.map_eq_some_iff.mp h
      obtain ⟨rest, rfl, hsize⟩ := ih hpiece
      refine ⟨rest, rfl, ?_⟩
      rw [byteSize, hsize]
      omega
  | case4 c cs n hc => cases h

def Between (cs : List Char) (start stop : Nat) (piece : List Char) : Prop :=
  ∃ pre rest, cs = pre ++ piece ++ rest ∧ byteSize pre = start ∧ byteSize (pre ++ piece) = stop

theorem slice?_eq_some_iff {cs piece : List Char} {start stop : Nat} :
    slice? cs start stop = some piece ↔ Between cs start stop piece := by
  constructor
  · intro h
    rw [slice?] at h
    split at h
    · obtain ⟨tail, hdrop, htake⟩ := Option.bind_eq_some_iff.mp h
      obtain ⟨pre, rfl, hpre⟩ := eq_append_of_dropBytes? hdrop
      obtain ⟨rest, rfl, hpiece⟩ := eq_append_of_takeBytes? htake
      refine ⟨pre, rest, (List.append_assoc _ _ _).symm, hpre, ?_⟩
      rw [byteSize_append]
      omega
    · cases h
  · rintro ⟨pre, rest, rfl, rfl, rfl⟩
    exact slice?_append pre piece rest

theorem exists_append_around (cs : List Char) (offset : Nat) :
    ∃ pre rest, cs = pre ++ rest ∧ byteSize pre ≤ offset ∧
      ∀ c ∈ rest.head?, offset < byteSize pre + c.utf8Size := by
  induction cs generalizing offset with
  | nil => exact ⟨[], [], rfl, Nat.zero_le _, by rintro _ ⟨⟩⟩
  | cons c cs ih =>
      by_cases hc : c.utf8Size ≤ offset
      · obtain ⟨pre, rest, rfl, hle, hlt⟩ := ih (offset - c.utf8Size)
        refine ⟨c :: pre, rest, rfl, ?_, ?_⟩
        · rw [byteSize]
          omega
        · intro d hd
          have hd := hlt d hd
          rw [byteSize]
          omega
      · refine ⟨[], c :: cs, rfl, Nat.zero_le _, ?_⟩
        rintro _ ⟨⟩
        rw [byteSize]
        omega

theorem utf8EncodeChar_newline : String.utf8EncodeChar '\n' = [10] := by decide

theorem le_toNat_of_mem_utf8EncodeChar {c : Char} (hc : 127 < c.val.toNat) :
    ∀ b ∈ String.utf8EncodeChar c, 128 ≤ b.toNat := by
  unfold String.utf8EncodeChar
  dsimp only
  split_ifs with hone htwo hthree
  · omega
  all_goals
    simp only [List.forall_mem_cons, UInt8.toNat_ofNat', List.not_mem_nil, false_imp_iff,
      implies_true, and_true]
    omega

theorem not_mem_utf8EncodeChar {c : Char} (h : c ≠ '\n') : 10 ∉ String.utf8EncodeChar c := by
  intro hmem
  by_cases hc : c.val.toNat ≤ 127
  · rw [String.utf8EncodeChar, if_pos hc, List.mem_singleton] at hmem
    have hten := congrArg UInt8.toNat hmem
    rw [UInt8.toNat_ofNat_of_lt' (show _ < 256 by omega)] at hten
    exact h (Char.toNat_inj.mp hten.symm)
  · exact absurd (le_toNat_of_mem_utf8EncodeChar (by omega) 10 hmem) (by decide)

def bytes (cs : List Char) : List UInt8 := cs.flatMap String.utf8EncodeChar

theorem toList_toUTF8 (s : String) : s.toUTF8.data.toList = bytes s.toList := by
  rw [String.toUTF8, ← String.utf8Encode_toList, List.utf8Encode, List.data_toByteArray]
  rfl

theorem length_bytes (cs : List Char) : (bytes cs).length = byteSize cs := by
  induction cs with
  | nil => rfl
  | cons c cs ih =>
      rw [bytes, List.flatMap_cons, List.length_append, String.length_utf8EncodeChar, byteSize,
        ← ih]
      rfl

theorem count_bytes (cs : List Char) : (bytes cs).count 10 = cs.count '\n' := by
  induction cs with
  | nil => rfl
  | cons c cs ih =>
      rw [bytes, List.flatMap_cons, List.count_append, ← bytes, ih]
      by_cases hc : c = '\n'
      · subst c
        rw [utf8EncodeChar_newline, List.count_cons_self, List.count_cons_self, List.count_nil]
        omega
      · rw [List.count_eq_zero_of_not_mem (not_mem_utf8EncodeChar hc), List.count_cons_of_ne hc,
          Nat.zero_add]

/-- A character that is cut off counts for nothing, a line feed has no second byte to be cut off. -/
theorem count_take_bytes {pre rest : List Char} {offset : Nat} (hle : byteSize pre ≤ offset)
    (hlt : ∀ c ∈ rest.head?, offset < byteSize pre + c.utf8Size) :
    ((bytes (pre ++ rest)).take offset).count 10 = pre.count '\n' := by
  have hcut : ((bytes rest).take (offset - byteSize pre)).count 10 = 0 := by
    cases rest with
    | nil => rw [bytes, List.flatMap_nil, List.take_nil, List.count_nil]
    | cons c rest =>
        have hc := hlt c rfl
        have hsize := String.length_utf8EncodeChar c
        rw [bytes, List.flatMap_cons, List.take_append_of_le_length (by omega), List.count_eq_zero]
        by_cases hnewline : c = '\n'
        · have hone : c.utf8Size = 1 := by rw [hnewline]; rfl
          have hnone : offset - byteSize pre = 0 := by omega
          rw [hnone, List.take_zero]
          exact List.not_mem_nil
        · intro hmem
          exact not_mem_utf8EncodeChar hnewline (List.mem_of_mem_take hmem)
  have hsplit : bytes (pre ++ rest) = bytes pre ++ bytes rest := List.flatMap_append
  rw [hsplit, List.take_append, List.take_of_length_le (by rw [length_bytes]; exact hle),
    List.count_append, length_bytes, hcut, count_bytes, Nat.add_zero]

end ScriptScan.Text
