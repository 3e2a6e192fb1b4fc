import ScriptScan.Host

namespace ScriptScan

/-- A tree of files below a working directory. A file has its content, a directory that is listed on
its own has none. -/
structure FileTree where
  entries : List (List String × Option ByteArray)

namespace FileTree

def entryAt? (t : FileTree) (names : List String) : Option (Option ByteArray) :=
  (t.entries.lookup names).or <|
    if names.isEmpty || t.entries.any (fun e => names.isPrefixOf e.1) then some none else none

def nodeAt (t : FileTree) (names : List String) : Node :=
  match t.entryAt? names with
  | some (some bytes) => .file bytes
  | some none => .directory
  | none => .missing

inductive Place where
  | below (names : List String)
  | above (levels : Nat)

/-- Follows one part of a path, which is possible from a directory only. -/
def step? (t : FileTree) (part : String) : Place → Option Place
  | .above n =>
      if part = "" ∨ part = "." then some (.above n)
      else if part = ".." then some (.above (n + 1))
      else none
  | .below names =>
      match t.entryAt? names with
      | some none =>
          if part = "" ∨ part = "." then some (.below names)
          else if part = ".." then
            some (if names.isEmpty then .above 0 else .below names.dropLast)
          else some (.below (names ++ [part]))
      | _ => none

def node (t : FileTree) (path : String) : Node :=
  let start := if path.startsWith "/" then Place.above 0 else .below []
  match (path.splitOn "/").foldlM (fun p part => t.step? part p) start with
  | none => .missing
  | some (.above _) => .directory
  | some (.below names) => t.nodeAt names

def names (path : String) : List String :=
  (path.splitOn "/").filter fun part => part ≠ "" ∧ part ≠ "."

/-- The tree of the given files, each named by its path. A later file replaces an earlier one. -/
def ofFiles (files : List (String × Option ByteArray)) : FileTree :=
  ⟨(files.map fun f => (names f.1, f.2)).reverse⟩

end FileTree

end ScriptScan
