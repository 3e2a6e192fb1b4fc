import ScriptScan.ByteCursor
import ScriptScan.Scanner

namespace ScriptScan

namespace Numeral

def Plain.ofText? (cs : List Char) : Option Plain :=
  let p := read cs
  if p.whole ≠ [] ∧ p.body = cs then some p else none

def floatOf (cs : List Char) : Except Error Binary64 :=
  match Plain.ofText? cs with
  | none => .error (.malformedFloat (String.ofList cs))
  | some p => p.float

/-- The integer of a suffixed literal, given the text before its exponent and whether there is a
fraction in that. -/
def integerOf (mantissa : List Char) (hasFraction : Bool) (exponent : Option Exponent) :
    Except Error Nat :=
  if hasFraction then .error .notInteger else Plain.integer ⟨mantissa, none, exponent, true⟩

end Numeral

namespace ByteCursor

/-- What a stretch of text amounts to, and the cursor behind it. -/
abbrev Step := Option Item × ByteCursor

def place (k : ByteCursor) : Location := ⟨k.position, k.line.toNat, k.column.toNat⟩

def spanTo (start stop : ByteCursor) : Span := Span.between start.place stop.place

def token? (start stop : ByteCursor) (kind : TokenKind) : Option Step := do
  let text ← stop.sliceFrom? start.position
  some (some (.token ⟨kind, String.ofList text, start.spanTo stop⟩), stop)

def fault (start stop : ByteCursor) (cause : Fault) : Step :=
  (some (.fault (cause.diagnostic (start.spanTo stop))), stop)

def single? (k : ByteCursor) (s : Symbol) : Option Step := do
  let stop ← k.advance?
  k.token? stop (.symbol s)

def withEqual? (k : ByteCursor) (combined alone : Symbol) : Option Step := do
  let stop ← k.advance?
  let (found, stop) ← stop.matchChar? '='
  k.token? stop (.symbol (if found then combined else alone))

def skipWhile? (k : ByteCursor) (p : Char → Bool) : Option Step := do
  let (_, stop) ← k.eatWhile? p
  some (none, stop)

def atClosing? (k : ByteCursor) : Option Bool := do
  let c ← k.current?
  if c = '-' then
    let d ← k.peek?
    some (d = '}')
  else some false

def toClosing? (k : ByteCursor) : Option (Bool × ByteCursor) := do
  let (found, k) ← k.until? atClosing? ⟨advance?, left_lt_of_advance?⟩
  if found then
    let k ← k.advance?
    let k ← k.advance?
    some (true, k)
  else some (false, k)

def comment? (k : ByteCursor) : Option Step := do
  let inner ← k.advance?
  let inner ← inner.advance?
  let (closed, stop) ← inner.toClosing?
  if closed then some (none, stop) else some (k.fault stop .unterminatedComment)

def atQuote? (k : ByteCursor) : Option Bool := do
  let c ← k.current?
  some (c = '"')

/-- Moves over a character, and over the next one too behind a backslash. -/
def overEscape? (k : ByteCursor) : Option ByteCursor := do
  let c ← k.current?
  let next ← k.advance?
  if c = '\\' then next.advance? else some next

theorem left_lt_of_overEscape? {k next : ByteCursor} (he : ¬ k.atEnd = true)
    (h : k.overEscape? = some next) : next.left < k.left := by
  obtain ⟨c, -, h⟩ := Option.bind_eq_some_iff.mp h
  obtain ⟨first, hfirst, h⟩ := Option.bind_eq_some_iff.mp h
  have hlt := left_lt_of_advance? he hfirst
  split at h
  · exact Nat.lt_of_le_of_lt (left_le_of_advance? h) hlt
  · cases h
    exact hlt

def toQuote? (k : ByteCursor) : Option (Bool × ByteCursor) :=
  k.until? atQuote? ⟨overEscape?, left_lt_of_overEscape?⟩

def string? (k : ByteCursor) : Option Step := do
  let inner ← k.advance?
  let (closed, quote) ← inner.toQuote?
  if closed then
    let body ← quote.slice? inner.position quote.position
    let stop ← quote.advance?
    some (some (.token ⟨.string (String.ofList body), String.ofList body, k.spanTo stop⟩), stop)
  else some (k.fault quote .unterminatedString)

def decoded? (start stop : ByteCursor) (format : NumberFormat) :
    Except Numeral.Error NumberValue → Option Step
  | .ok value => start.token? stop (.number value format)
  | .error e => some (start.fault stop (.number e))

/-- The mistake of a radix marker without digits; its message quotes the text that has been read. -/
def missingDigits (start stop : ByteCursor) (r : Radix) (marker : Char) (opening : List Char) :
    Step :=
  let message := "expected " ++ r.name ++ " digit after `" ++ String.ofList opening ++ "`"
  let diagnostic := (Fault.missingDigits r marker).diagnostic (start.spanTo stop)
  (some (.fault { diagnostic with message }), stop)

def marked? (k : ByteCursor) (r : Radix) (marker : Char) : Option Step := do
  let inner ← k.advance?
  let inner ← inner.advance?
  let (count, stop) ← inner.eatWhile? (Digits.isOf r.base)
  if count = 0 then
    let opening ← stop.slice? k.position inner.position
    let (_, stop) ← stop.eatWhile? Char.isAlphanum
    some (k.missingDigits stop r marker opening)
  else
    let digits ← stop.sliceFrom? inner.position
    let (suffixed, stop) ← stop.matchChar? 'n'
    k.decoded? stop (.radix r) (Numeral.Marked.value ⟨r, marker, digits, suffixed⟩)

def fraction? (k : ByteCursor) : Option (Bool × ByteCursor) := do
  let c ← k.current?
  if c = '.' then
    let d ← k.peek?
    if d.isDigit then
      let k ← k.advance?
      let (_, k) ← k.eatWhile? Char.isDigit
      some (true, k)
    else some (false, k)
  else some (false, k)

def exponentParts? (k : ByteCursor) (marker : Char) (negative : Bool) :
    Option (Numeral.Exponent × ByteCursor) := do
  let k ← k.advance?
  let k ← if negative then k.advance? else some k
  let (_, stop) ← k.eatWhile? Char.isDigit
  let digits ← stop.sliceFrom? k.position
  some (⟨marker, negative, digits⟩, stop)

/-- Moves over an exponent, if there is one. Its marker is one byte, and so is its sign: what
follows them is looked at in the rest of the text, cut behind these bytes. -/
def exponent? (k : ByteCursor) : Option (Option Numeral.Exponent × ByteCursor) := do
  let marker ← k.current?
  if Numeral.Plain.isExponentMarker marker then
    let rest ← k.remaining?
    let afterMarker ← Text.dropBytes? rest 1
    let negative := afterMarker.head? == some '-'
    let afterSign ← Text.dropBytes? afterMarker (if negative then 1 else 0)
    if afterSign.head?.any Char.isDigit then
      let (exponent, stop) ← k.exponentParts? marker negative
      some (some exponent, stop)
    else some (none, k)
  else some (none, k)

/-- The decimal literal from `start` up to `stop`. What comes before its exponent ends at
`mantissa`, what comes before its suffix at `number`. -/
def decimal? (start mantissa number stop : ByteCursor) (hasFraction : Bool)
    (exponent : Option Numeral.Exponent) (suffixed : Bool) : Option Step := do
  let format := if exponent.isSome then NumberFormat.exponential else .decimal
  if suffixed then
    let text ← stop.slice? start.position mantissa.position
    start.decoded? stop format ((Numeral.integerOf text hasFraction exponent).map .integer)
  else
    let text ← stop.slice? start.position number.position
    start.decoded? stop format ((Numeral.floatOf text).map .float)

def plain? (k : ByteCursor) : Option Step := do
  let (_, whole) ← k.eatWhile? Char.isDigit
  let (hasFraction, mantissa) ← whole.fraction?
  let (exponent, number) ← mantissa.exponent?
  let (suffixed, stop) ← number.matchChar? 'n'
  k.decimal? mantissa number stop hasFraction exponent suffixed

def number? (k : ByteCursor) : Option Step := do
  let c ← k.current?
  if c = '0' then
    let marker ← k.peek?
    match Radix.ofMarker? marker with
    | some r => k.marked? r marker
    | none => k.plain?
  else k.plain?

def unknown? (k : ByteCursor) (c : Char) : Option Step := do
  let stop ← k.advance?
  some (k.fault stop (.unknownCharacter c))

def dispatch? (k : ByteCursor) : Option Step := do
  let c ← k.current?
  if c = '{' then
    let d ← k.peek?
    if d = '-' then k.comment? else k.single? .leftBrace
  else if c = '-' then
    let d ← k.peek?
    if d = '-' then k.skipWhile? (· ≠ '\n') else k.single? .minus
  else
    match Symbol.ofChar? c with
    | some s =>
        match s.withEqual? with
        | some t => k.withEqual? t s
        | none => k.single? s
    | none =>
        if Munch.isBlank c then k.skipWhile? Munch.isBlank
        else if c = '"' then k.string?
        else if c.isDigit then k.number?
        else k.unknown? c

end ByteCursor

structure ByteScanner where
  cursor : ByteCursor
  finished : Bool
  log : Log

namespace ByteScanner

def ofString (log : Log) (source : String) : ByteScanner := ⟨ByteCursor.ofString source, false, log⟩

/-- The next token, if the loop comes to it within a number of turns. Each turn but one at the end
of the text takes up a stretch of the text. -/
def nextTokenWithin? : Nat → ByteScanner → Option (Token × ByteScanner)
  | 0, _ => none
  | turns + 1, s =>
      if s.cursor.atEnd then some (Token.atEnd s.cursor.place, { s with finished := true })
      else do
        let (item, cursor) ← s.cursor.dispatch?
        match item with
        | some (.token t) => some (t, { s with cursor })
        | some (.fault d) => nextTokenWithin? turns { s with cursor, log := s.log.report d }
        | none => nextTokenWithin? turns { s with cursor }

def nextToken? (s : ByteScanner) : Option (Token × ByteScanner) :=
  s.nextTokenWithin? (s.cursor.left + 1)

def next? (s : ByteScanner) : Option (Option Token × ByteScanner) :=
  if s.finished then some (none, s)
  else do
    let (t, s) ← s.nextToken?
    some (some t, s)

def drainWithin? : Nat → ByteScanner → Option (List Token × ByteScanner)
  | 0, _ => none
  | calls + 1, s => do
      let (t, s) ← s.next?
      match t with
      | none => some ([], s)
      | some t =>
          let (ts, s) ← drainWithin? calls s
          some (t :: ts, s)

/-- All tokens that are still to come; there is a call for every byte that is left, one for the end
and one after it. -/
def drain? (s : ByteScanner) : Option (List Token × ByteScanner) :=
  s.drainWithin? (s.cursor.left + 2)

def scan? (source : String) : Option Scan := do
  let (tokens, s) ← (ofString .empty source).drain?
  some ⟨tokens, s.log.entries⟩

end ByteScanner

end ScriptScan
