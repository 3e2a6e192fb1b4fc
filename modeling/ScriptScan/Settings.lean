import ScriptScan.Failure
import ScriptScan.Listing
import ScriptScan.Report
import ScriptScan.Toml.Document

namespace ScriptScan

/-- Settings as written; the names of format and colour are judged by `validated`. -/
structure Settings where
  verbose : Bool := false
  format : String := "text"
  color : String := "auto"
  showEof : Bool := true
  deriving DecidableEq

namespace Settings

def boolean? (default : Bool) : Option Toml.Value → Option Bool
  | none => some default
  | some (.boolean b) => some b
  | some _ => none

def string? (default : String) : Option Toml.Value → Option String
  | none => some default
  | some (.string s) => some s
  | some _ => none

def output? (s : Settings) (value : String → Nat → Option Toml.Value) : Option Settings := do
  return { s with
    format := ← string? s.format (value "format" 0)
    color := ← string? s.color (value "color" 1)
    showEof := ← boolean? s.showEof (value "show_eof" 2) }

/-- Output settings are written as a table, or as an array in a fixed order. A time counts as a
table that holds none of them. -/
def ofOutput? (s : Settings) : Option Toml.Value → Option Settings
  | none => some s
  | some (.table _ es) => s.output? fun name _ => es.lookup name
  | some (.array vs) => s.output? fun _ i => vs[i]?
  | some (.tables elements) => s.output? fun _ i => elements[i]?.map (.table .header)
  | some (.time _) => some s
  | some _ => none

def ofToml? (es : Toml.Entries) : Option Settings := do
  let verbose ← boolean? false (es.lookup "verbose")
  ofOutput? { verbose } (es.lookup "output")

def formatNamed (name : String) : Except Failure Listing.Format :=
  match Listing.Format.ofName? name with
  | some f => .ok f
  | none => .error (.unknownFormat name)

def listingFormat (s : Settings) : Except Failure Listing.Format := formatNamed s.format

def colorChoice (s : Settings) : Except Failure ColorChoice :=
  match ColorChoice.ofName? s.color with
  | some c => .ok c
  | none => .error (.unknownColor s.color)

def validated (s : Settings) : Except Failure Settings := do
  let _ ← s.listingFormat
  let _ ← s.colorChoice
  return s

/-- Reads the text of a configuration file. If it is refused, `message` tells why. -/
def ofText (message : String → String) (text : String) : Except Failure Settings :=
  match (Toml.parse? text).bind ofToml? with
  | none => .error (.configMalformed (message text))
  | some s => s.validated

end Settings

end ScriptScan
