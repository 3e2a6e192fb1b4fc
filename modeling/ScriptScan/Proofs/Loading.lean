import ScriptScan.Proofs.Inputs

namespace ScriptScan

namespace Settings

def Sound (s : Settings) : Prop :=
  (∃ format, s.listingFormat = .ok format) ∧ ∃ choice, s.colorChoice = .ok choice

theorem sound_default : ({} : Settings).Sound := ⟨⟨.text, by decide⟩, ⟨.auto, by decide⟩⟩

variable {message : String → String} {text : String} {s : Settings}

theorem sound_of_known {format : Listing.Format} {choice : ColorChoice}
    (hf : Listing.Format.ofName? s.format = some format)
    (hc : ColorChoice.ofName? s.color = some choice) : s.Sound := by
  constructor
  · exact ⟨format, by simp only [listingFormat, formatNamed, hf]⟩
  · exact ⟨choice, by simp only [colorChoice, hc]⟩

theorem ofText_of_malformed (h : (Toml.parse? text).bind ofToml? = none) :
    ofText message text = .error (.configMalformed (message text)) := by
  rw [ofText, h]

theorem ofText_of_unknownFormat (h : (Toml.parse? text).bind ofToml? = some s)
    (hf : Listing.Format.ofName? s.format = none) :
    ofText message text = .error (.unknownFormat s.format) := by
  rw [ofText, h]
  simp only [validated, listingFormat, formatNamed, hf]
  rfl

theorem ofText_of_unknownColor {format : Listing.Format}
    (h : (Toml.parse? text).bind ofToml? = some s)
    (hf : Listing.Format.ofName? s.format = some format)
    (hc : ColorChoice.ofName? s.color = none) :
    ofText message text = .error (.unknownColor s.color) := by
  rw [ofText, h]
  simp only [validated, listingFormat, formatNamed, colorChoice, hf, hc]
  rfl

theorem ofText_of_known {format : Listing.Format} {choice : ColorChoice}
    (h : (Toml.parse? text).bind ofToml? = some s)
    (hf : Listing.Format.ofName? s.format = some format)
    (hc : ColorChoice.ofName? s.color = some choice) : ofText message text = .ok s := by
  rw [ofText, h]
  simp only [validated, listingFormat, formatNamed, colorChoice, hf, hc]
  rfl

end Settings

namespace Command

/-- What loading a configuration file comes to, which need not be a plain one. The format is judged
before the colour. -/
inductive Loads (message : String → String) : Node → Except Failure Settings → Prop where
  | unreadable {plain : Bool} {reason : String} :
      Loads message (.present plain (.error reason)) (.error (.unreadable reason))
  | notText {plain : Bool} {bytes : ByteArray} : (∀ text : String, bytes ≠ text.toUTF8) →
      Loads message (.present plain (.ok bytes)) (.error .notText)
  | malformed {plain : Bool} {text : String} : (Toml.parse? text).bind Settings.ofToml? = none →
      Loads message (.present plain (.ok text.toUTF8)) (.error (.configMalformed (message text)))
  | unknownFormat {plain : Bool} {text : String} {s : Settings} :
      (Toml.parse? text).bind Settings.ofToml? = some s → Listing.Format.ofName? s.format = none →
      Loads message (.present plain (.ok text.toUTF8)) (.error (.unknownFormat s.format))
  | unknownColor {plain : Bool} {text : String} {s : Settings} {format : Listing.Format} :
      (Toml.parse? text).bind Settings.ofToml? = some s →
      Listing.Format.ofName? s.format = some format → ColorChoice.ofName? s.color = none →
      Loads message (.present plain (.ok text.toUTF8)) (.error (.unknownColor s.color))
  | known {plain : Bool} {text : String} {s : Settings} {format : Listing.Format}
      {choice : ColorChoice} : (Toml.parse? text).bind Settings.ofToml? = some s →
      Listing.Format.ofName? s.format = some format → ColorChoice.ofName? s.color = some choice →
      Loads message (.present plain (.ok text.toUTF8)) (.ok s)

/-- What the choice of a configuration file comes to: the file at the path that is given, else the
one in the working directory, else the user's own one, else the settings by default. -/
inductive Chosen (host : Host) : Option String → Except Failure Settings → Prop where
  | absent {path : String} : host.node path = .missing →
      Chosen host (some path) (.error (.configMissing path))
  | given {path : String} {result : Except Failure Settings} :
      Loads host.tomlMessage (host.node path) result → Chosen host (some path) result
  | here {result : Except Failure Settings} :
      Loads host.tomlMessage (host.node "quill.toml") result → Chosen host none result
  | user {result : Except Failure Settings} : host.node "quill.toml" = .missing →
      Loads host.tomlMessage host.userConfig result → Chosen host none result
  | byDefault : host.node "quill.toml" = .missing → host.userConfig = .missing →
      Chosen host none (.ok {})

section

variable {host : Host} {node : Node} {config : Option String} {result : Except Failure Settings}

theorem Loads.isMissing_eq {message : String → String} (h : Loads message node result) :
    node.isMissing = false := by
  cases h <;> rfl

theorem load_utf8 (host : Host) (plain : Bool) (text : String) :
    load host (.present plain (.ok text.toUTF8)) = Settings.ofText host.tomlMessage text := by
  rw [load, Node.text_utf8]
  rfl

theorem Loads.load_eq (h : Loads host.tomlMessage node result) : load host node = result := by
  cases h with
  | unreadable => rfl
  | notText hbytes => rw [load, Node.text_of_not_text _ hbytes]; rfl
  | malformed h => rw [load_utf8]; exact Settings.ofText_of_malformed h
  | unknownFormat h hf => rw [load_utf8]; exact Settings.ofText_of_unknownFormat h hf
  | unknownColor h hf hc => rw [load_utf8]; exact Settings.ofText_of_unknownColor h hf hc
  | known h hf hc => rw [load_utf8]; exact Settings.ofText_of_known h hf hc

theorem loads_ofText (message : String → String) (plain : Bool) (text : String) :
    Loads message (.present plain (.ok text.toUTF8)) (Settings.ofText message text) := by
  cases h : (Toml.parse? text).bind Settings.ofToml? with
  | none =>
      rw [Settings.ofText_of_malformed h]
      exact .malformed h
  | some s =>
      cases hf : Listing.Format.ofName? s.format with
      | none =>
          rw [Settings.ofText_of_unknownFormat h hf]
          exact .unknownFormat h hf
      | some format =>
          cases hc : ColorChoice.ofName? s.color with
          | none =>
              rw [Settings.ofText_of_unknownColor h hf hc]
              exact .unknownColor h hf hc
          | some choice =>
              rw [Settings.ofText_of_known h hf hc]
              exact .known h hf hc

theorem loads_of_not_missing (host : Host) (h : node.isMissing = false) :
    Loads host.tomlMessage node (load host node) := by
  cases node with
  | missing => cases h
  | present plain content =>
      cases content with
      | error reason => exact .unreadable
      | ok bytes =>
          by_cases htext : ∃ text : String, bytes = text.toUTF8
          · obtain ⟨text, rfl⟩ := htext
            rw [load_utf8]
            exact loads_ofText host.tomlMessage plain text
          · have hbytes : ∀ text : String, bytes ≠ text.toUTF8 := not_exists.mp htext
            rw [load, Node.text_of_not_text plain hbytes]
            exact .notText hbytes

theorem settings_of_here (h : (host.node "quill.toml").isMissing = false) :
    settings host none = load host (host.node "quill.toml") := by
  simp only [settings, List.find?_cons, h, Bool.not_false]

theorem settings_of_user (h : host.node "quill.toml" = .missing)
    (hu : host.userConfig.isMissing = false) :
    settings host none = load host host.userConfig := by
  simp only [settings, List.find?_cons, h, hu, Node.isMissing_missing, Bool.not_false,
    Bool.not_true]

theorem settings_of_missing (h : host.node "quill.toml" = .missing)
    (hu : host.userConfig = .missing) : settings host none = .ok {} := by
  simp only [settings, List.find?_cons, List.find?_nil, h, hu, Node.isMissing_missing,
    Bool.not_true]

theorem settings_of_given {path : String} (h : (host.node path).isMissing = false) :
    settings host (some path) = load host (host.node path) := by
  simp only [settings, settingsAt, h, Bool.false_eq_true, ↓reduceIte]

theorem settings_of_absent {path : String} (h : host.node path = .missing) :
    settings host (some path) = .error (.configMissing path) := by
  simp only [settings, settingsAt, h, Node.isMissing_missing, ↓reduceIte]

theorem Chosen.settings_eq (h : Chosen host config result) : settings host config = result := by
  cases h with
  | absent hpath => exact settings_of_absent hpath
  | given hload => rw [settings_of_given hload.isMissing_eq, hload.load_eq]
  | here hload => rw [settings_of_here hload.isMissing_eq, hload.load_eq]
  | user hhere hload => rw [settings_of_user hhere hload.isMissing_eq, hload.load_eq]
  | byDefault hhere huser => exact settings_of_missing hhere huser

theorem chosen_settings (host : Host) (config : Option String) :
    Chosen host config (settings host config) := by
  cases config with
  | some path =>
      obtain hpath | hpath := (host.node path).missing_or
      · rw [settings_of_absent hpath]
        exact .absent hpath
      · rw [settings_of_given hpath]
        exact .given (loads_of_not_missing host hpath)
  | none =>
      obtain hhere | hhere := (host.node "quill.toml").missing_or
      · obtain huser | huser := host.userConfig.missing_or
        · rw [settings_of_missing hhere huser]
          exact .byDefault hhere huser
        · rw [settings_of_user hhere huser]
          exact .user hhere (loads_of_not_missing host huser)
      · rw [settings_of_here hhere]
        exact .here (loads_of_not_missing host hhere)

theorem chosen_iff : Chosen host config result ↔ settings host config = result := by
  constructor
  · exact Chosen.settings_eq
  · rintro rfl
    exact chosen_settings host config

theorem Loads.sound {message : String → String} {s : Settings} (h : Loads message node (.ok s)) :
    s.Sound := by
  cases h with
  | known _ hf hc => exact Settings.sound_of_known hf hc

theorem sound_of_settings {s : Settings} (h : settings host config = .ok s) : s.Sound := by
  cases chosen_iff.mpr h with
  | given hload => exact hload.sound
  | here hload => exact hload.sound
  | user _ hload => exact hload.sound
  | byDefault => exact Settings.sound_default

end

theorem exists_colorFor {s : Settings} (h : s.Sound) (noColor : Bool) :
    ∃ choice, colorFor noColor s = .ok choice := by
  cases noColor with
  | true => exact ⟨.never, rfl⟩
  | false => exact h.2

end Command

end ScriptScan
