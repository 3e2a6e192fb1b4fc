import ScriptScan.Cursor
import ScriptScan.Munch

/-!
Scanning whole texts: the list of items of a text, its tokens and its diagnostics; and a scanner
that hands out one token at a time.

Lines and columns are natural numbers here, and so they are in what is proved of `scan`. The byte
scanner counts them in words of 32 bits: it is shown to find what `scan` finds, and to stand where
`Scanner` stands, in texts of fewer than `2 ^ 32 - 1` characters.
-/

namespace ScriptScan

inductive Item where
  | token (t : Token)
  | fault (d : Diagnostic)
  deriving DecidableEq

namespace Item

def span : Item → Span
  | token t => t.span
  | fault d => d.span

def token? : Item → Option Token
  | token t => some t
  | fault _ => none

def diagnostic? : Item → Option Diagnostic
  | token _ => none
  | fault d => some d

def ofMunch? (m : Munch) (p : Location) (c : Char) : Option Item :=
  match m.outcome with
  | .trivia => none
  | .token kind => some (token ⟨kind, m.lexeme c kind, m.span p c⟩)
  | .fault cause => some (fault (cause.diagnostic (m.span p c)))

end Item

def itemsFrom (p : Location) : List Char → List Item
  | [] => []
  | c :: cs =>
      let m := Munch.ofChars c cs
      (Item.ofMunch? m p c).toList ++ itemsFrom (m.stop p c) (cs.drop m.more.length)
termination_by cs => cs.length
decreasing_by simp only [List.length_drop, List.length_cons]; omega

structure Scan where
  tokens : List Token
  diagnostics : List Diagnostic
  deriving DecidableEq

/-- Scans a text. The last token is the end of the text, and no other is. -/
def scan (source : String) : Scan :=
  let items := itemsFrom .start source.toList
  ⟨items.filterMap Item.token? ++ [Token.atEnd (Location.start.advance source.toList)],
    items.filterMap Item.diagnostic?⟩

def scanInto (log : Log) (source : String) : List Token × Log :=
  let s := scan source
  (s.tokens, log.reportAll s.diagnostics)

structure Scanner where
  cursor : Cursor
  finished : Bool
  log : Log

namespace Scanner

def ofString (log : Log) (source : String) : Scanner := ⟨Cursor.ofString source, false, log⟩

/-- The next token. At the end of the text that is the end token, however often it is asked for. -/
def nextToken (s : Scanner) : Token × Scanner :=
  match _h : s.cursor.rest with
  | [] => (Token.atEnd s.cursor.location, { s with finished := true })
  | c :: cs =>
      let m := Munch.ofChars c cs
      let cursor := s.cursor.advanceBy (m.more.length + 1)
      match Item.ofMunch? m s.cursor.location c with
      | none => nextToken { s with cursor }
      | some (.token t) => (t, { s with cursor })
      | some (.fault d) => nextToken { s with cursor, log := s.log.report d }
termination_by s.cursor.rest.length
decreasing_by
  all_goals
    simp only [Cursor.rest_advanceBy, _h, List.length_drop, List.length_cons]
    omega

/-- The next token, or nothing once the end of the text has been handed out. -/
def next? (s : Scanner) : Option Token × Scanner :=
  if s.finished then (none, s)
  else
    let step := s.nextToken
    (some step.1, step.2)

def pending (s : Scanner) : Nat := if s.finished then 0 else s.cursor.rest.length + 1

theorem pending_nextToken_lt (s : Scanner) (h : s.finished = false) :
    s.nextToken.2.pending < s.pending := by
  fun_induction nextToken s with
  | case1 s hr => simp [pending, h]
  | case2 s c cs hr m cursor hm ih =>
      refine Nat.lt_of_lt_of_le (ih h) ?_
      simp only [pending, h, cursor, Cursor.rest_advanceBy, hr, List.length_drop, List.length_cons,
        Bool.false_eq_true, ↓reduceIte]
      omega
  | case3 s c cs hr m cursor t hm =>
      simp only [pending, h, cursor, Cursor.rest_advanceBy, hr, List.length_drop, List.length_cons,
        Bool.false_eq_true, ↓reduceIte]
      omega
  | case4 s c cs hr m cursor d hm ih =>
      refine Nat.lt_of_lt_of_le (ih h) ?_
      simp only [pending, h, cursor, Cursor.rest_advanceBy, hr, List.length_drop, List.length_cons,
        Bool.false_eq_true, ↓reduceIte]
      omega

def drain (s : Scanner) : List Token × Scanner :=
  match _h : s.finished with
  | true => ([], s)
  | false =>
      let step := s.nextToken
      let later := drain step.2
      (step.1 :: later.1, later.2)
termination_by s.pending
decreasing_by exact pending_nextToken_lt s _h

end Scanner

end ScriptScan
