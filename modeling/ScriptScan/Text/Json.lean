namespace ScriptScan.Json

inductive Scalar where
  | string (s : String)
  | number (n : Nat)
  deriving DecidableEq

abbrev Object := List (String × Scalar)

def hexDigit (n : Nat) : Char := Nat.digitChar n

/-- The spelling of a character between quotes. Only quotes, backslashes and the controls below the
space are escaped. -/
def escape (c : Char) : List Char :=
  match c with
  | '"' => ['\\', '"']
  | '\\' => ['\\', '\\']
  | '\x08' => ['\\', 'b']
  | '\t' => ['\\', 't']
  | '\n' => ['\\', 'n']
  | '\x0c' => ['\\', 'f']
  | '\r' => ['\\', 'r']
  | c =>
      if c.toNat < 0x20 then
        ['\\', 'u', '0', '0', hexDigit (c.toNat / 16), hexDigit (c.toNat % 16)]
      else [c]

def quoted (s : String) : String :=
  String.ofList ('"' :: s.toList.flatMap escape ++ ['"'])

def Scalar.text : Scalar → String
  | string s => quoted s
  | number n => n.repr

def fieldText (field : String × Scalar) : String :=
  "    " ++ quoted field.1 ++ ": " ++ field.2.text

def objectText (o : Object) : String :=
  "  \x7b\n" ++ ",\n".intercalate (o.map fieldText) ++ "\n  \x7d"

def arrayText (objects : List Object) : String :=
  if objects.isEmpty then "[]"
  else "[\n" ++ ",\n".intercalate (objects.map objectText) ++ "\n]"

end ScriptScan.Json
