import ScriptScan.Text.Escape
import ScriptScan.Text.Json
import ScriptScan.Token

namespace ScriptScan.Listing

inductive Format where
  | text
  | json
  deriving DecidableEq

namespace Format

def name : Format → String
  | text => "text"
  | json => "json"

def ofName? (s : String) : Option Format :=
  [text, json].find? fun f => f.name.toList == s.toList.map Char.toLower

end Format

structure Number where
  value : String
  format : String
  deriving DecidableEq

structure Record where
  kind : String
  lexeme : String
  line : Nat
  column : Nat
  number : Option Number
  deriving DecidableEq

namespace Record

def numberOf? : TokenKind → Option Number
  | .number value format => some ⟨value.text, format.name⟩
  | _ => none

def ofToken (t : Token) : Record :=
  ⟨t.kind.name, t.lexeme, t.span.line, t.span.column, numberOf? t.kind⟩

def numberText : Option Number → String
  | none => ""
  | some n => "  " ++ n.value ++ " (" ++ n.format ++ ")"

def text (r : Record) : String :=
  r.line.repr ++ ":" ++ r.column.repr ++ "  " ++ r.kind ++ "  " ++ Text.quoted r.lexeme ++
    numberText r.number

def numberFields : Option Number → Json.Object
  | none => []
  | some n => [("value", .string n.value), ("format", .string n.format)]

def json (r : Record) : Json.Object :=
  [("kind", .string r.kind), ("lexeme", .string r.lexeme), ("line", .number r.line),
    ("column", .number r.column)] ++ numberFields r.number

end Record

def records (showEof : Bool) (tokens : List Token) : List Record :=
  (tokens.filter fun t => showEof || !t.isEof).map Record.ofToken

def textOf (rs : List Record) : String := String.join (rs.map fun r => r.text ++ "\n")

def jsonOf (rs : List Record) : String := Json.arrayText (rs.map Record.json) ++ "\n"

def render (format : Format) (showEof : Bool) (tokens : List Token) : String :=
  match format with
  | .text => textOf (records showEof tokens)
  | .json => jsonOf (records showEof tokens)

end ScriptScan.Listing
