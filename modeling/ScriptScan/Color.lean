namespace ScriptScan

inductive Color where
  | red
  | green
  | blue
  | cyan
  | standard
  deriving DecidableEq

namespace Color

def sgr : Color → String
  | red => "31"
  | green => "32"
  | blue => "34"
  | cyan => "36"
  | standard => "0"

end Color

inductive ColorChoice where
  | auto
  | always
  | never
  deriving DecidableEq

namespace ColorChoice

def name : ColorChoice → String
  | auto => "auto"
  | always => "always"
  | never => "never"

def ofName? (s : String) : Option ColorChoice :=
  [auto, always, never].find? fun c => c.name.toList == s.toList.map Char.toLower

def enabled (terminal : Bool) : ColorChoice → Bool
  | auto => terminal
  | always => true
  | never => false

end ColorChoice

end ScriptScan
