import ScriptScan.Proofs.Grammar
import ScriptScan.Proofs.Reprint

namespace ScriptScan

namespace Text

def addBackslashes (cs : List Char) : List Char :=
  cs.flatMap fun c => if c = '"' ∨ c = '\\' then ['\\', c] else [c]

/-- The text with each backslash taken away that has another character to escape. -/
def dropBackslashes : List Char → List Char
  | '\\' :: c :: cs => c :: dropBackslashes cs
  | c :: cs => c :: dropBackslashes cs
  | [] => []

theorem addBackslashes_cons (c : Char) (cs : List Char) :
    addBackslashes (c :: cs) =
      (if c = '"' ∨ c = '\\' then ['\\', c] else [c]) ++ addBackslashes cs :=
  List.flatMap_cons

theorem dropBackslashes_cons_of_ne {c : Char} (h : c ≠ '\\') (cs : List Char) :
    dropBackslashes (c :: cs) = c :: dropBackslashes cs := by
  rw [dropBackslashes]
  exact fun _ _ hc => absurd hc h

theorem escaped_addBackslashes (cs : List Char) : Munch.Escaped (addBackslashes cs) := by
  induction cs with
  | nil => exact .nil
  | cons c cs ih =>
      rw [addBackslashes_cons]
      by_cases hc : c = '"' ∨ c = '\\'
      · rw [if_pos hc]
        exact .escape c ih
      · rw [if_neg hc]
        obtain ⟨hq, hb⟩ := not_or.mp hc
        exact .plain hq hb ih

theorem dropBackslashes_addBackslashes (cs : List Char) :
    dropBackslashes (addBackslashes cs) = cs := by
  induction cs with
  | nil => rfl
  | cons c cs ih =>
      rw [addBackslashes_cons]
      by_cases hc : c = '"' ∨ c = '\\'
      · rw [if_pos hc, List.cons_append, List.singleton_append, dropBackslashes, ih]
      · rw [if_neg hc, List.singleton_append, dropBackslashes_cons_of_ne (not_or.mp hc).2, ih]

end Text

open Text

def inQuotes (w : String) : String := "\"" ++ w ++ "\""

theorem toList_inQuotes (w : String) : (inQuotes w).toList = '"' :: (w.toList ++ ['"']) := by
  simp [inQuotes]

def Scan.IsString (s : Scan) (w : String) : Prop :=
  s.tokens.map Token.content = [(.string w, w), (.eof, "")] ∧ s.diagnostics = []

theorem isString_of_escaped {w : String} (h : Munch.Escaped w.toList) :
    (scan (inQuotes w)).IsString w := by
  have hform := Munch.Form.string (Munch.quotedBody?_append h [])
  rw [String.ofList_toList] at hform
  rw [scan_token (toList_inQuotes w) hform]
  exact ⟨rfl, rfl⟩

theorem content_head_inQuotes {w : String} {body : List Char}
    (h : Munch.quotedBody? (w.toList ++ ['"']) = some body) :
    ((scan (inQuotes w)).tokens.map Token.content).head? =
      some (.string (String.ofList body), String.ofList body) := by
  have hm := (Munch.Form.string h).ofChars_eq
  rw [scan, toList_inQuotes, itemsFrom_cons, hm]
  rfl

theorem escaped_of_isString {w : String} (h : (scan (inQuotes w)).IsString w) :
    Munch.Escaped w.toList := by
  obtain ⟨htokens, hdiagnostics⟩ := h
  cases hq : Munch.quotedBody? (w.toList ++ ['"']) with
  | none =>
      rw [scan_fault (toList_inQuotes w) (Munch.Form.openString hq)] at hdiagnostics
      cases hdiagnostics
  | some body =>
      have hhead := content_head_inQuotes hq
      rw [htokens] at hhead
      have hw : w = String.ofList body := (Prod.mk.inj (Option.some.inj hhead)).2
      rw [hw, String.toList_ofList]
      exact (Munch.quotedBody?_sound hq).1

/-- A text between quotes is one string exactly when each of its quotes and backslashes belongs to
an escape, which can be had for every text and undone again. -/
theorem scan_quoted_iff_escaped :
    (∀ w : String, (scan (inQuotes w)).IsString w ↔ w.toList ∈ Grammar.escaped) ∧
    ∀ v : String, (scan (inQuotes (String.ofList (addBackslashes v.toList)))).IsString
        (String.ofList (addBackslashes v.toList)) ∧
      dropBackslashes (addBackslashes v.toList) = v.toList := by
  constructor
  · intro w
    rw [Grammar.mem_escaped]
    exact ⟨escaped_of_isString, isString_of_escaped⟩
  · intro v
    refine ⟨isString_of_escaped ?_, dropBackslashes_addBackslashes _⟩
    rw [String.toList_ofList]
    exact escaped_addBackslashes _

-- The backslash before the last quote is itself escaped in the first text and not in the second.
example : (scan (inQuotes "\\\\")).diagnostics = [] ∧ (scan (inQuotes "\\")).diagnostics ≠ [] := by
  decide +kernel

end ScriptScan
