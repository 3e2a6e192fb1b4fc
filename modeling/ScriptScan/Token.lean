import ScriptScan.Span
import ScriptScan.Number.Value

namespace ScriptScan

inductive Symbol where
  | leftParen
  | rightParen
  | leftBrace
  | rightBrace
  | comma
  | dot
  | semicolon
  | bang
  | bangEqual
  | equal
  | equalEqual
  | less
  | lessEqual
  | greater
  | greaterEqual
  | plus
  | minus
  | star
  | slash
  deriving DecidableEq

namespace Symbol

def text : Symbol → String
  | leftParen => "("
  | rightParen => ")"
  | leftBrace => "\x7b"
  | rightBrace => "\x7d"
  | comma => ","
  | dot => "."
  | semicolon => ";"
  | bang => "!"
  | bangEqual => "!="
  | equal => "="
  | equalEqual => "=="
  | less => "<"
  | lessEqual => "<="
  | greater => ">"
  | greaterEqual => ">="
  | plus => "+"
  | minus => "-"
  | star => "*"
  | slash => "/"

def name : Symbol → String
  | leftParen => "left_paren"
  | rightParen => "right_paren"
  | leftBrace => "left_brace"
  | rightBrace => "right_brace"
  | comma => "comma"
  | dot => "dot"
  | semicolon => "semicolon"
  | bang => "bang"
  | bangEqual => "bang_equal"
  | equal => "equal"
  | equalEqual => "equal_equal"
  | less => "less"
  | lessEqual => "less_equal"
  | greater => "greater"
  | greaterEqual => "greater_equal"
  | plus => "plus"
  | minus => "minus"
  | star => "star"
  | slash => "slash"

def ofChar? : Char → Option Symbol
  | '(' => some leftParen
  | ')' => some rightParen
  | '{' => some leftBrace
  | '}' => some rightBrace
  | ',' => some comma
  | '.' => some dot
  | ';' => some semicolon
  | '!' => some bang
  | '=' => some equal
  | '<' => some less
  | '>' => some greater
  | '+' => some plus
  | '-' => some minus
  | '*' => some star
  | '/' => some slash
  | _ => none

def withEqual? : Symbol → Option Symbol
  | bang => some bangEqual
  | equal => some equalEqual
  | less => some lessEqual
  | greater => some greaterEqual
  | _ => none

end Symbol

inductive TokenKind where
  | symbol (s : Symbol)
  | number (value : NumberValue) (format : NumberFormat)
  | string (text : String)
  | eof
  deriving DecidableEq

namespace TokenKind

def name : TokenKind → String
  | symbol s => s.name
  | number _ _ => "number"
  | string _ => "string"
  | eof => "eof"

def text : TokenKind → String
  | symbol s => s.text
  | number _ _ => "number"
  | string _ => "string"
  | eof => "end of input"

def isLiteral : TokenKind → Bool
  | number _ _ => true
  | string _ => true
  | _ => false

def isEof (k : TokenKind) : Bool := k == eof

end TokenKind

structure Token where
  kind : TokenKind
  lexeme : String
  span : Span
  deriving DecidableEq

namespace Token

def atEnd (p : Location) : Token := ⟨.eof, "", Span.between p p⟩

def isEof (t : Token) : Bool := t.kind.isEof

end Token

end ScriptScan
