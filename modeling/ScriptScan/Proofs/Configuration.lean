import ScriptScan.Proofs.Agreement

namespace ScriptScan

namespace Arguments

end Arguments

namespace Command

open Arguments

/-- Two hosts whose chosen configuration file is the same, or is missing from both. The files after
it may differ, and so may all other files, but the TOML reader is the same. -/
structure SameChoice (a b : Host) (config : Option String) : Prop where
  variableNamed : a.variableNamed = b.variableNamed
  terminal : a.terminal = b.terminal
  tomlMessage : a.tomlMessage = b.tomlMessage
  given : ∀ path, config = some path → a.node path = b.node path
  here : config = none → a.node "quill.toml" = b.node "quill.toml"
  user : config = none → a.node "quill.toml" = .missing → a.userConfig = b.userConfig

section

variable {a b : Host} {config : Option String}

theorem SameChoice.load_eq (h : SameChoice a b config) (node : Node) :
    load a node = load b node := by
  rw [load, load, h.tomlMessage]

theorem SameChoice.settings_eq (h : SameChoice a b config) :
    settings a config = settings b config := by
  cases config with
  | some path => simp only [settings, settingsAt, h.given path rfl, h.load_eq]
  | none =>
      have hhere := h.here rfl
      obtain hmissing | hfound := (a.node "quill.toml").missing_or
      · simp only [settings, ← hhere, h.user rfl hmissing, h.load_eq]
      · rw [settings_of_here hfound, settings_of_here (hhere ▸ hfound), hhere, h.load_eq]

end

section

variable {host : Host} {colored verbose : Bool} {i : Invocation} {s : Settings}

end

end Command

end ScriptScan
