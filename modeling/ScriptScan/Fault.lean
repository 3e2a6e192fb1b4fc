import ScriptScan.Diagnostic
import ScriptScan.Number.Numeral
import ScriptScan.Text.Escape

namespace ScriptScan

inductive Fault where
  | unknownCharacter (c : Char)
  | unterminatedString
  | missingDigits (r : Radix) (marker : Char)
  | unterminatedComment
  | number (e : Numeral.Error)
  deriving DecidableEq

namespace Fault

def code : Fault → Code
  | unknownCharacter _ => .unknownCharacter
  | unterminatedString => .unterminatedString
  | missingDigits _ _ => .missingDigits
  | unterminatedComment => .unterminatedComment
  | number _ => .undecodableNumber

/-- What reading a float says of a text that is none. -/
def floatReason (text : String) : String :=
  if text.isEmpty then "cannot parse float from empty string" else "invalid float literal"

def message : Fault → String
  | unknownCharacter c => "unknown character `" ++ String.ofList (Text.escapeQuotes c) ++ "`"
  | unterminatedString => "unterminated string literal"
  | missingDigits r marker =>
      "expected " ++ r.name ++ " digit after `" ++ String.ofList ['0', marker] ++ "`"
  | unterminatedComment => "unterminated block comment"
  | number .outOfRange => "number literal is out of range"
  | number .notInteger => "arbitrary-precision literal must be an integer"
  | number .exponentTooLarge => "exponent too large for an arbitrary-precision literal"
  | number (.malformed text) => "invalid number literal `" ++ text ++ "`"
  | number (.malformedFloat text) =>
      "invalid number literal `" ++ text ++ "`: " ++ floatReason text
  | number (.malformedRadix r) => "invalid " ++ r.name ++ " literal"

def notes : Fault → List String
  | missingDigits r _ => [r.name ++ " literals use digits of base " ++ r.base.repr]
  | number .exponentTooLarge =>
      ["the largest supported exponent is " ++ Numeral.maxExponent.repr]
  | _ => []

def helps : Fault → List String
  | unknownCharacter _ => ["remove the character"]
  | unterminatedString => ["add a closing `\"`"]
  | unterminatedComment => ["close the comment with `-\x7d`"]
  | number .outOfRange => ["add an `n` suffix for an arbitrary-precision integer"]
  | number .notInteger => ["remove the `n` suffix to get a floating-point number"]
  | _ => []

def diagnostic (f : Fault) (span : Span) : Diagnostic :=
  ⟨.error, f.message, some f.code, span, f.notes, f.helps⟩

end Fault

end ScriptScan
