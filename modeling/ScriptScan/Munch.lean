import ScriptScan.Fault
import ScriptScan.Token

namespace ScriptScan

inductive Outcome where
  | trivia
  | token (kind : TokenKind)
  | fault (cause : Fault)
  deriving DecidableEq

/-- The characters that belong to a stretch of text after its first, and what the stretch is. -/
structure Munch where
  more : List Char
  outcome : Outcome
  deriving DecidableEq

namespace Munch

def isBlank (c : Char) : Bool := c = ' ' || c = '\t' || c = '\r' || c = '\n'

def blockComment? : List Char → Option (List Char)
  | [] => none
  | '-' :: '}' :: _ => some ['-', '}']
  | c :: cs => (blockComment? cs).map (c :: ·)

/-- The text before the closing quote. A backslash takes the character after it along. -/
def quotedBody? : List Char → Option (List Char)
  | [] => none
  | '"' :: _ => some []
  | '\\' :: c :: cs => (quotedBody? cs).map (['\\', c] ++ ·)
  | c :: cs => (quotedBody? cs).map (c :: ·)

def lineComment (cs : List Char) : Munch := ⟨cs.takeWhile (· ≠ '\n'), .trivia⟩

def block (cs : List Char) : Munch :=
  match blockComment? cs with
  | some body => ⟨'-' :: body, .trivia⟩
  | none => ⟨'-' :: cs, .fault .unterminatedComment⟩

def string (cs : List Char) : Munch :=
  match quotedBody? cs with
  | some body => ⟨body ++ ['"'], .token (.string (String.ofList body))⟩
  | none => ⟨cs, .fault .unterminatedString⟩

def decoded (format : NumberFormat) : Except Numeral.Error NumberValue → Outcome
  | .ok value => .token (.number value format)
  | .error e => .fault (.number e)

def plain (c : Char) (cs : List Char) : Munch :=
  let p := Numeral.Plain.read (c :: cs)
  ⟨p.chars.tail, decoded p.format p.value⟩

def marked (r : Radix) (marker : Char) (cs : List Char) : Munch :=
  let m := Numeral.Marked.read r marker cs
  if m.digits = [] then ⟨marker :: cs.takeWhile Char.isAlphanum, .fault (.missingDigits r marker)⟩
  else ⟨m.chars, decoded (.radix r) m.value⟩

def number (c : Char) (cs : List Char) : Munch :=
  match c, cs with
  | '0', marker :: rest =>
      match Radix.ofMarker? marker with
      | some r => marked r marker rest
      | none => plain c cs
  | _, _ => plain c cs

def symbol (s : Symbol) (cs : List Char) : Munch :=
  match s.withEqual?, cs with
  | some t, '=' :: _ => ⟨['='], .token (.symbol t)⟩
  | _, _ => ⟨[], .token (.symbol s)⟩

/-- The longest stretch of text that starts with `c` and goes on in `cs`. -/
def ofChars (c : Char) (cs : List Char) : Munch :=
  if isBlank c then ⟨cs.takeWhile isBlank, .trivia⟩
  else if c = '"' then string cs
  else if c.isDigit then number c cs
  else
    match c, cs with
    | '-', '-' :: _ => lineComment cs
    | '{', '-' :: rest => block rest
    | _, _ =>
        match Symbol.ofChar? c with
        | some s => symbol s cs
        | none => ⟨[], .fault (.unknownCharacter c)⟩

def stop (m : Munch) (p : Location) (c : Char) : Location := (p.step c).advance m.more

def span (m : Munch) (p : Location) (c : Char) : Span := Span.between p (m.stop p c)

/-- The text of a token: strings are given without their quotes. -/
def lexeme (m : Munch) (c : Char) : TokenKind → String
  | .string text => text
  | _ => String.ofList (c :: m.more)

end Munch

end ScriptScan
