namespace ScriptScan.Toml

/-- How a table came to be, which decides what may be added to it. -/
inductive Origin where
  /-- Written between braces, and complete. -/
  | inline
  /-- Named by a header. -/
  | header
  /-- Only named on the way to another header. -/
  | implied
  /-- Named on the way to a dotted key. -/
  | dotted
  deriving DecidableEq

/-- Integers have their value; floats and times are kept as written. -/
inductive Value where
  | string (s : String)
  | integer (n : Int)
  | float (text : String)
  | boolean (b : Bool)
  | time (text : String)
  | array (items : List Value)
  | table (origin : Origin) (entries : List (String × Value))
  | tables (elements : List (List (String × Value)))

abbrev Entries := List (String × Value)

def Entries.update? (es : Entries) (key : String) (f : Option Value → Option Value) :
    Option Entries :=
  match es with
  | [] => (f none).map fun v => [(key, v)]
  | (k, v) :: rest =>
      if k = key then (f (some v)).map fun w => (k, w) :: rest
      else (Entries.update? rest key f).map ((k, v) :: ·)

def updateLast? {α : Type} (f : α → Option α) : List α → Option (List α)
  | [] => none
  | [a] => (f a).map ([·])
  | a :: as => (updateLast? f as).map (a :: ·)

/-- Whether a path of the given kind may pass through a table. Dotted keys pass only through tables
that have no header; inline tables are closed to all. -/
def Origin.passable (byDots : Bool) : Origin → Bool
  | .inline => false
  | .header => !byDots
  | .implied => true
  | .dotted => true

/-- Changes the entries at the end of a path. Missing tables on the way are created, and in an array
of tables the path goes through the last one. -/
def modifyAt (byDots : Bool) (f : Origin → Entries → Option Entries) :
    List String → Origin → Entries → Option Entries
  | [], origin, es => f origin es
  | key :: path, _, es =>
      es.update? key fun
        | none =>
            let origin := if byDots then Origin.dotted else Origin.implied
            (modifyAt byDots f path origin []).map (.table origin)
        | some (.table origin sub) =>
            if origin.passable byDots then
              (modifyAt byDots f path origin sub).map (.table origin)
            else none
        | some (.tables elements) =>
            (updateLast? (modifyAt byDots f path .header) elements).map .tables
        | some _ => none

/-- A key with its value, as written; the last part of the key names the value. -/
structure Pair where
  path : List String
  key : String
  value : Value

/-- Adds a pair to a table. A dotted key may only extend a table made by dotted keys, and no key
occurs twice. -/
def insert? (origin : Origin) (es : Entries) (p : Pair) : Option Entries :=
  modifyAt true (fun o sub =>
    if (o == .dotted) == p.path.isEmpty then none
    else sub.update? p.key fun
      | none => some p.value
      | some _ => none) p.path origin es

def insertAll? (origin : Origin) (es : Entries) (ps : List Pair) : Option Entries :=
  ps.foldlM (insert? origin) es

structure Section where
  repeated : Bool
  path : List String
  key : String
  pairs : List Pair

/-- Adds a section to a document. A plain header may name a new table, or one that earlier headers
have only implied; a repeated one starts another element of an array of tables. -/
def addSection? (es : Entries) (s : Section) : Option Entries :=
  modifyAt false (fun _ parent => parent.update? s.key fun
    | none =>
        (insertAll? .header [] s.pairs).map fun sub =>
          if s.repeated then .tables [sub] else .table .header sub
    | some (.tables elements) =>
        if s.repeated then
          (insertAll? .header [] s.pairs).map fun sub => .tables (elements ++ [sub])
        else none
    | some (.table .implied sub) =>
        if s.repeated then none
        else (insertAll? .header sub s.pairs).map (.table .header)
    | some _ => none) s.path .header es

def assemble? (pairs : List Pair) (sections : List Section) : Option Entries := do
  sections.foldlM addSection? (← insertAll? .header [] pairs)

end ScriptScan.Toml
