import ScriptScan.Text.Hidden

namespace ScriptScan.Text

def escapeCode (c : Char) : List Char :=
  ['\\', 'u', '{'] ++ Nat.toDigits 16 c.toNat ++ ['}']

def escape (c : Char) : List Char :=
  match c with
  | '\x00' => ['\\', '0']
  | '\t' => ['\\', 't']
  | '\r' => ['\\', 'r']
  | '\n' => ['\\', 'n']
  | '\\' => ['\\', '\\']
  | c => if isHidden c then escapeCode c else [c]

def escapeQuotes (c : Char) : List Char :=
  if c = '\'' ∨ c = '"' then ['\\', c] else escape c

def escapeInner (c : Char) : List Char :=
  if c = '"' then ['\\', '"'] else escape c

def quoted (s : String) : String :=
  String.ofList ('"' :: s.toList.flatMap escapeInner ++ ['"'])

end ScriptScan.Text
