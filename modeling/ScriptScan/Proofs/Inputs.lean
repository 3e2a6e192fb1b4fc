import ScriptScan.Command
import ScriptScan.Proofs.SharedLog

namespace ScriptScan

theorem fromUTF8?_eq_some_iff {bytes : ByteArray} {text : String} :
    String.fromUTF8? bytes = some text ↔ bytes = text.toUTF8 := by
  unfold String.fromUTF8?
  split
  · rename_i hvalid
    rw [Option.some_inj, ← String.toByteArray_inj]
    rfl
  · rename_i hvalid
    constructor
    · intro h
      cases h
    · rintro rfl
      exact absurd text.isValidUTF8 hvalid

namespace Node

theorem text_utf8 (plain : Bool) (text : String) :
    (present plain (.ok text.toUTF8)).text = .ok text := by
  have htext := fromUTF8?_eq_some_iff.mpr (rfl : text.toUTF8 = text.toUTF8)
  simp only [Node.text, htext]

theorem text_of_not_text (plain : Bool) {bytes : ByteArray}
    (h : ∀ text : String, bytes ≠ text.toUTF8) :
    (present plain (.ok bytes)).text = .error .notText := by
  have hbytes : String.fromUTF8? bytes = none := by
    rw [Option.eq_none_iff_forall_ne_some]
    intro text htext
    exact h text (fromUTF8?_eq_some_iff.mp htext)
  simp only [Node.text, hbytes]

theorem isMissing_missing : missing.isMissing = true := rfl

theorem missing_or (n : Node) : n = .missing ∨ n.isMissing = false := by
  cases n with
  | missing => exact .inl rfl
  | present plain content => exact .inr rfl

end Node

namespace Host

def Holds (host : Host) (path text : String) : Prop := host.node path = .file text.toUTF8

def Readable (host : Host) (path : String) : Prop := ∃ text, host.Holds path text

variable {host : Host} {path text : String}

theorem Holds.source_eq (h : host.Holds path text) : host.source path = .ok ⟨path, text⟩ := by
  rw [source, h, Node.file]
  simp only [Node.text_utf8]
  rfl

theorem Holds.unique {text' : String} (h : host.Holds path text) (h' : host.Holds path text') :
    text = text' := by
  have hbytes := Except.ok.inj (Node.present.inj (h.symm.trans h')).2
  exact String.toByteArray_inj.mp hbytes

theorem not_readable_cases (h : ¬ host.Readable path) :
    (host.node path = .missing ∧ host.source path = .error (.inputMissing path)) ∨
      (∃ content, host.node path = .present false content ∧
        host.source path = .error (.inputNotFile path)) ∨
      (∃ reason, host.node path = .present true (.error reason) ∧
        host.source path = .error (.unreadable reason)) ∨
      ∃ bytes, host.node path = .file bytes ∧ host.source path = .error .notText := by
  cases hnode : host.node path with
  | missing => exact .inl ⟨rfl, by rw [source, hnode]⟩
  | present plain content =>
      cases plain with
      | false => exact .inr (.inl ⟨content, rfl, by rw [source, hnode]⟩)
      | true =>
          cases content with
          | error reason =>
              refine .inr (.inr (.inl ⟨reason, rfl, ?_⟩))
              rw [source, hnode]
              rfl
          | ok bytes =>
              have hbytes : ∀ text : String, bytes ≠ text.toUTF8 := by
                rintro text rfl
                exact h ⟨text, hnode⟩
              refine .inr (.inr (.inr ⟨bytes, rfl, ?_⟩))
              rw [source, hnode]
              simp only [Node.text_of_not_text true hbytes]
              rfl

def ofTexts (files : List (String × String)) : Host where
  node path := (files.lookup path).elim .missing fun text => .file text.toUTF8
  userConfig := .missing
  variableNamed _ := none
  terminal := false
  tomlMessage _ := "TOML parse error"

theorem exists_failure (h : ¬ host.Readable path) : ∃ e, host.source path = .error e := by
  obtain ⟨-, h⟩ | ⟨content, -, h⟩ | ⟨reason, -, h⟩ | ⟨bytes, -, h⟩ := not_readable_cases h
  all_goals exact ⟨_, h⟩

end Host

theorem entries_scanInto (text : String) :
    (scanInto Log.empty text).2.entries = (scan text).diagnostics := rfl

theorem errorCount_scanInto (text : String) :
    (scanInto Log.empty text).2.errorCount = (scan text).diagnostics.length :=
  countP_isError_scan text

namespace Arguments

theorem exists_of_bind_eq_ok {α β ε : Type} {x : Except ε α} {f : α → Except ε β} {b : β}
    (h : x >>= f = .ok b) : ∃ a, x = .ok a ∧ f a = .ok b := by
  cases x with
  | error e => cases h
  | ok a => exact ⟨a, rfl, h⟩

/-- A command line that is understood: all of its words are read, and then each part of the
invocation is made of what they gave. -/
theorem exists_of_parse {variableNamed : String → Option String} {words : List String}
    {i : Invocation} (h : parse variableNamed words = .ok i) :
    ∃ p : Progress, (words.foldlM Progress.word Progress.start).bind Progress.settle = .ok p ∧
      command p = .ok i.command ∧ flag p .verbose (variableNamed "QUILLT_VERBOSE") = .ok i.verbose ∧
      flag p .noColor (variableNamed "QUILLT_NO_COLOR") = .ok i.noColor ∧
      path p .config (variableNamed "QUILLT_CONFIG") = .ok i.config := by
  obtain ⟨q, hread, h⟩ := exists_of_bind_eq_ok h
  obtain ⟨p, hsettle, h⟩ := exists_of_bind_eq_ok h
  split at h
  · cases h
  · obtain ⟨command, hcommand, h⟩ := exists_of_bind_eq_ok h
    obtain ⟨verbose, hverbose, h⟩ := exists_of_bind_eq_ok h
    obtain ⟨noColor, hnoColor, h⟩ := exists_of_bind_eq_ok h
    obtain ⟨config, hconfig, h⟩ := exists_of_bind_eq_ok h
    cases h
    refine ⟨p, ?_, hcommand, hverbose, hnoColor, hconfig⟩
    rw [hread]
    exact hsettle

theorem files_ne_nil_of_command {p : Progress} {files : List String}
    (h : command p = .ok (.check files)) : files ≠ [] := by
  unfold command at h
  split at h
  · cases h
  · cases h
    exact List.cons_ne_nil _ _
  · cases h

end Arguments

namespace Command

theorem run?_of_parse {host : Host} {words : List String} {i : Arguments.Invocation}
    (h : Arguments.parse host.variableNamed words = .ok i) :
    run? host words = some (respond (effect host i)) := by
  rw [run?, h]

section Effects

variable {host : Host} {verbose noColor : Bool} {config : Option String} {s : Settings}
  {choice : ColorChoice}

theorem checkAll_eq {colored : Bool} {paths : List String} (h : paths ≠ []) :
    checkAll host colored verbose paths = check host colored verbose {} paths := by
  rw [checkAll, if_neg (mt List.isEmpty_iff.mp h)]

theorem effect_check (hs : settings host config = .ok s) (hc : colorFor noColor s = .ok choice)
    {paths : List String} (hp : paths ≠ []) :
    effect host ⟨verbose, noColor, config, .check paths⟩ =
      check host (choice.enabled host.terminal) (verbose || s.verbose) {} paths := by
  simp only [effect, hs, execute, hc, checkAll_eq hp]

theorem effect_tokens (hs : settings host config = .ok s) (hc : colorFor noColor s = .ok choice)
    {name : Option String} {format : Listing.Format} (hf : formatFor name s = .ok format)
    (path : String) (noEof : Bool) :
    effect host ⟨verbose, noColor, config, .tokens path name noEof⟩ =
      tokens host (choice.enabled host.terminal) format (s.showEof && !noEof) path := by
  simp only [effect, hs, execute, hc, hf]

end Effects

end Command

end ScriptScan
