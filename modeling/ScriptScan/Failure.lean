namespace ScriptScan

inductive Failure where
  | configMissing (path : String)
  | configMalformed (message : String)
  | unknownFormat (name : String)
  | unknownColor (name : String)
  | noInput
  | inputMissing (path : String)
  | inputNotFile (path : String)
  | notText
  | unreadable (reason : String)
  deriving DecidableEq

namespace Failure

inductive Kind where
  | config
  | validation
  | io
  | toml
  deriving DecidableEq

def kind : Failure → Kind
  | configMissing _ => .config
  | configMalformed _ => .toml
  | unknownFormat _ => .validation
  | unknownColor _ => .validation
  | noInput => .validation
  | inputMissing _ => .validation
  | inputNotFile _ => .validation
  | notText => .io
  | unreadable _ => .io

def detail : Failure → String
  | configMissing path => "Configuration file not found: " ++ path
  | configMalformed message => "Failed to parse configuration: " ++ message
  | unknownFormat name => "Unknown format: " ++ name ++ " (expected text or json)"
  | unknownColor name =>
      "Invalid color in configuration: " ++ name ++ " (expected auto, always or never)"
  | noInput => "No input files specified"
  | inputMissing path => "Input path does not exist: " ++ path
  | inputNotFile path => "Input path is not a file: " ++ path
  | notText => "stream did not contain valid UTF-8"
  | unreadable reason => reason

def message (f : Failure) : String :=
  match f.kind with
  | .config => "Configuration error: " ++ f.detail
  | .validation => "Validation error: " ++ f.detail
  | .io => "IO error: " ++ f.detail
  | .toml => f.detail

end Failure

end ScriptScan
