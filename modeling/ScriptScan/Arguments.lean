namespace ScriptScan.Arguments

inductive Scope where
  | outer
  | tokens
  | check
  deriving DecidableEq

inductive Opt where
  | verbose
  | config
  | noColor
  | version
  | format
  | noEof
  deriving DecidableEq

namespace Opt

def all : List Opt := [verbose, config, noColor, version, format, noEof]

def long : Opt → String
  | verbose => "verbose"
  | config => "config"
  | noColor => "no-color"
  | version => "version"
  | format => "format"
  | noEof => "no-eof"

def short? : Opt → Option Char
  | verbose => some 'v'
  | config => some 'c'
  | version => some 'V'
  | format => some 'F'
  | _ => none

def takesValue : Opt → Bool
  | config => true
  | format => true
  | _ => false

def allowedIn (o : Opt) (scope : Scope) : Bool :=
  match o with
  | format => scope == .tokens
  | noEof => scope == .tokens
  | _ => true

def ofLong? (scope : Scope) (name : List Char) : Option Opt :=
  all.find? fun o => o.allowedIn scope && o.long.toList == name

def ofShort? (scope : Scope) (c : Char) : Option Opt :=
  all.find? fun o => o.allowedIn scope && o.short? == some c

end Opt

/-- Why reading the command line ends early. -/
inductive Stop where
  | usage
  | version (scope : Scope)
  deriving DecidableEq

abbrev Given := List (Opt × String)

namespace Given

def has (g : Given) (o : Opt) : Bool := (g.lookup o).isSome

/-- No option is given twice at one place, and paths are not empty. -/
def add (g : Given) (o : Opt) (value : String) : Except Stop Given :=
  if g.has o || (o == .config && value.isEmpty) then .error .usage else .ok ((o, value) :: g)

end Given

structure Progress where
  scope : Scope
  outer : Given
  inner : Given
  files : List String
  /-- The option whose value the next word is. -/
  awaiting : Option Opt
  /-- An option before the command whose value was a word of its own. It is judged when another
  option follows before the command, else after all words. -/
  held : Option (Opt × String)
  /-- Whether only files may follow. -/
  ended : Bool

namespace Progress

def start : Progress := ⟨.outer, [], [], [], none, none, false⟩

def take (p : Progress) (o : Opt) (value : String) : Except Stop Progress :=
  if o = .version then .error (.version p.scope)
  else if p.scope = .outer then
    (p.outer.add o value).map fun g => { p with outer := g, awaiting := none }
  else (p.inner.add o value).map fun g => { p with inner := g, awaiting := none }

def settle (p : Progress) : Except Stop Progress :=
  match p.held with
  | none => .ok p
  | some (o, value) => (p.outer.add o value).map fun g => { p with outer := g, held := none }

def value (p : Progress) (o : Opt) (w : String) : Except Stop Progress :=
  if p.scope = .outer then .ok { p with awaiting := none, held := some (o, w) } else p.take o w

def long (p : Progress) (name : List Char) (value : Option String) : Except Stop Progress :=
  match Opt.ofLong? p.scope name with
  | none => .error .usage
  | some o =>
      match o.takesValue, value with
      | true, some v => p.take o v
      | true, none => .ok { p with awaiting := some o }
      | false, some _ => .error .usage
      | false, none => p.take o ""

/-- A group of options by their letters. One that takes a value takes the rest of the group. -/
def short (p : Progress) : List Char → Except Stop Progress
  | [] => .ok p
  | c :: cs =>
      match Opt.ofShort? p.scope c with
      | none => .error .usage
      | some o =>
          if o.takesValue then
            match cs with
            | [] => .ok { p with awaiting := some o }
            | '=' :: cs => p.take o (String.ofList cs)
            | cs => p.take o (String.ofList cs)
          else (p.take o "").bind fun p => p.short cs

def file (p : Progress) (path : String) : Except Stop Progress :=
  if path.isEmpty then .error .usage else .ok { p with files := p.files ++ [path] }

def plain (p : Progress) (word : String) : Except Stop Progress :=
  match p.scope with
  | .outer =>
      if word = "tokens" then .ok { p with scope := .tokens }
      else if word = "check" then .ok { p with scope := .check }
      else .error .usage
  | .tokens => if p.files.isEmpty then p.file word else .error .usage
  | .check => p.file word

/-- A word that begins with a dash, without the dash. -/
def option (p : Progress) : List Char → Except Stop Progress
  | '-' :: cs =>
      match cs.dropWhile (· ≠ '=') with
      | [] => p.long cs none
      | _ :: value => p.long (cs.takeWhile (· ≠ '=')) (some (String.ofList value))
  | cs => p.short cs

def word (p : Progress) (w : String) : Except Stop Progress :=
  if p.ended then p.plain w
  else
    match p.awaiting, w.toList with
    | some _, '-' :: _ :: _ => .error .usage
    | some o, _ => p.value o w
    | none, ['-', '-'] => if p.scope = .outer then .error .usage else .ok { p with ended := true }
    | none, '-' :: c :: cs =>
        if p.scope = .outer then p.settle.bind fun p => p.option (c :: cs) else p.option (c :: cs)
    | none, _ => p.plain w

end Progress

inductive Command where
  | tokens (file : String) (format : Option String) (noEof : Bool)
  | check (files : List String)
  deriving DecidableEq

structure Invocation where
  verbose : Bool
  noColor : Bool
  config : Option String
  command : Command
  deriving DecidableEq

/-- A flag that is given before or after the command, or set by a variable. The variable is read,
and has to be well-formed, unless the flag is given at both places. -/
def flag (p : Progress) (o : Opt) (fallback : Option String) : Except Stop Bool :=
  let outer := p.outer.has o
  let inner := p.inner.has o
  match outer && inner, fallback with
  | true, _ => .ok true
  | false, none => .ok (outer || inner)
  | false, some "true" => .ok true
  | false, some "false" => .ok (outer || inner)
  | false, some _ => .error .usage

def path (p : Progress) (o : Opt) (fallback : Option String) : Except Stop (Option String) :=
  match p.inner.lookup o, p.outer.lookup o, fallback with
  | some inner, some _, _ => .ok (some inner)
  | _, _, some "" => .error .usage
  | inner, outer, fallback => .ok (inner.or (outer.or fallback))

def command (p : Progress) : Except Stop Command :=
  match p.scope, p.files with
  | .tokens, [file] => .ok (.tokens file (p.inner.lookup .format) (p.inner.has .noEof))
  | .check, file :: files => .ok (.check (file :: files))
  | _, _ => .error .usage

def parse (variableNamed : String → Option String) (args : List String) :
    Except Stop Invocation := do
  let p ← args.foldlM Progress.word Progress.start
  let p ← p.settle
  if p.awaiting.isSome then .error .usage
  else
    let command ← command p
    let verbose ← flag p .verbose (variableNamed "QUILLT_VERBOSE")
    let noColor ← flag p .noColor (variableNamed "QUILLT_NO_COLOR")
    let config ← path p .config (variableNamed "QUILLT_CONFIG")
    return ⟨verbose, noColor, config, command⟩

end ScriptScan.Arguments
