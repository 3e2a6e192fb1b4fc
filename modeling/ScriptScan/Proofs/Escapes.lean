import ScriptScan.Proofs.Accumulation
import ScriptScan.Text.Escape

namespace ScriptScan

namespace Text

theorem not_mem_of_class {p : Char → Bool} {c : Char} {cs : List Char} (hc : p c = false)
    (h : ∀ x ∈ cs, p x = true) : c ∉ cs := by
  intro hmem
  rw [h c hmem] at hc
  cases hc

theorem not_mem_hexadecimal {c : Char} (hc : Digits.isOf 16 c = false) (n : Nat) :
    c ∉ Nat.toDigits 16 n :=
  not_mem_of_class hc (Digits.isRun_toDigits (by decide) (by decide) n).2

theorem newline_not_mem_escapeCode (c : Char) : '\n' ∉ escapeCode c := by
  have hdigits : '\n' ∉ Nat.toDigits 16 c.toNat := not_mem_hexadecimal rfl _
  simp [escapeCode, hdigits]

theorem newline_not_mem_escape (c : Char) : '\n' ∉ escape c := by
  unfold escape
  split
  · decide
  · decide
  · decide
  · decide
  · decide
  · rename_i hnewline _
    split
    · exact newline_not_mem_escapeCode c
    · exact fun h => hnewline (List.mem_singleton.mp h).symm

theorem newline_not_mem_escapeQuotes (c : Char) : '\n' ∉ escapeQuotes c := by
  unfold escapeQuotes
  split
  · rename_i hc
    obtain rfl | rfl := hc
    · decide
    · decide
  · exact newline_not_mem_escape c

theorem newline_not_mem_escapeInner (c : Char) : '\n' ∉ escapeInner c := by
  unfold escapeInner
  split
  · decide
  · exact newline_not_mem_escape c

theorem newline_not_mem_quoted (s : String) : '\n' ∉ (quoted s).toList := by
  have hbody : '\n' ∉ s.toList.flatMap escapeInner := by
    intro h
    obtain ⟨c, -, hc⟩ := List.mem_flatMap.mp h
    exact newline_not_mem_escapeInner c hc
  simp [quoted, hbody]

def cutAt? (mark : Char) : List Char → Option (List Char × List Char)
  | [] => none
  | c :: cs => if c = mark then some ([], cs) else (cutAt? mark cs).map fun p => (c :: p.1, p.2)

theorem cutAt?_append {mark : Char} {a : List Char} (h : mark ∉ a) (b : List Char) :
    cutAt? mark (a ++ mark :: b) = some (a, b) := by
  induction a with
  | nil => exact if_pos rfl
  | cons c a ih =>
      obtain ⟨hc, ha⟩ := List.ne_and_not_mem_of_not_mem_cons h
      rw [List.cons_append, cutAt?, if_neg hc.symm, ih ha]
      rfl

theorem length_cutAt? {mark : Char} {cs : List Char} {p : List Char × List Char}
    (h : cutAt? mark cs = some p) : p.2.length < cs.length := by
  induction cs generalizing p with
  | nil => cases h
  | cons c cs ih =>
      rw [cutAt?] at h
      split at h
      · cases h
        exact Nat.lt_succ_self _
      · obtain ⟨q, hq, rfl⟩ := Option.map_eq_some_iff.mp h
        have hlt := ih hq
        exact Nat.lt_succ_of_lt hlt

def ofEscape? : Char → Option Char
  | '0' => some '\x00'
  | 't' => some '\t'
  | 'r' => some '\r'
  | 'n' => some '\n'
  | '\\' => some '\\'
  | '"' => some '"'
  | _ => none

def readChar? : List Char → Option (Char × List Char)
  | [] => none
  | '\\' :: 'u' :: '{' :: cs =>
      (cutAt? '}' cs).bind fun p => (Digits.toNat? 16 p.1).map fun n => (Char.ofNat n, p.2)
  | '\\' :: c :: cs => (ofEscape? c).map (·, cs)
  | c :: cs => some (c, cs)

theorem length_readChar? {cs : List Char} {p : Char × List Char} (h : readChar? cs = some p) :
    p.2.length < cs.length := by
  unfold readChar? at h
  split at h
  · cases h
  · obtain ⟨q, hq, h⟩ := Option.bind_eq_some_iff.mp h
    obtain ⟨n, -, rfl⟩ := Option.map_eq_some_iff.mp h
    have hlt := length_cutAt? hq
    simp only [List.length_cons]
    omega
  · obtain ⟨c, -, rfl⟩ := Option.map_eq_some_iff.mp h
    simp only [List.length_cons]
    omega
  · cases h
    exact Nat.lt_succ_self _

def readQuoted? (cs : List Char) : Option (List Char × List Char) :=
  if cs.head? = some '"' then some ([], cs.tail)
  else
    match _h : readChar? cs with
    | none => none
    | some (c, rest) => (readQuoted? rest).map fun p => (c :: p.1, p.2)
termination_by cs.length
decreasing_by exact length_readChar? _h

theorem readChar?_of_ne {c : Char} (h : c ≠ '\\') (rest : List Char) :
    readChar? (c :: rest) = some (c, rest) := by
  unfold readChar?
  split <;> simp_all

theorem readChar?_escapeCode (c : Char) (rest : List Char) :
    readChar? (escapeCode c ++ rest) = some (c, rest) := by
  have hclose : '}' ∉ Nat.toDigits 16 c.toNat := not_mem_hexadecimal rfl _
  have hspelling : escapeCode c ++ rest =
      '\\' :: 'u' :: '{' :: (Nat.toDigits 16 c.toNat ++ '}' :: rest) := by
    simp [escapeCode]
  rw [hspelling, readChar?, cutAt?_append hclose, Option.bind_some,
    Digits.toNat?_toDigits (by decide) (by decide), Option.map_some, Char.ofNat_toNat]

theorem readChar?_escape (c : Char) (rest : List Char) :
    readChar? (escape c ++ rest) = some (c, rest) := by
  unfold escape
  split
  · rfl
  · rfl
  · rfl
  · rfl
  · rfl
  · rename_i hbackslash
    split
    · exact readChar?_escapeCode c rest
    · exact readChar?_of_ne hbackslash rest

theorem readChar?_escapeInner (c : Char) (rest : List Char) :
    readChar? (escapeInner c ++ rest) = some (c, rest) := by
  unfold escapeInner
  split
  · rename_i hc
    rw [hc]
    rfl
  · exact readChar?_escape c rest

theorem head?_escapeInner_ne (c : Char) (rest : List Char) :
    (escapeInner c ++ rest).head? ≠ some '"' := by
  unfold escapeInner escape
  split
  · simp
  · rename_i hquote
    split
    · simp
    · simp
    · simp
    · simp
    · simp
    · split
      · simp [escapeCode]
      · simpa using hquote

theorem readQuoted?_append (s rest : List Char) :
    readQuoted? (s.flatMap escapeInner ++ '"' :: rest) = some (s, rest) := by
  induction s with
  | nil =>
      rw [readQuoted?, List.flatMap_nil, List.nil_append]
      exact if_pos rfl
  | cons c s ih =>
      -- A spelling shows its own end, so reading goes on right after it.
      rw [List.flatMap_cons, List.append_assoc, readQuoted?, if_neg (head?_escapeInner_ne c _)]
      split
      · rename_i h
        rw [readChar?_escapeInner] at h
        cases h
      · rename_i h
        rw [readChar?_escapeInner] at h
        cases h
        rw [ih]
        rfl

end Text

end ScriptScan
