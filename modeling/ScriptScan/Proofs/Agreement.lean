import ScriptScan.Proofs.Batches

namespace ScriptScan.Command

open Arguments

section

variable {host : Host} {colored verbose : Bool} {path text : String}

theorem tokens_eq (h : host.Holds path text) (format : Listing.Format) (showEof : Bool) :
    tokens host colored format showEof path =
      ⟨⟨Listing.render format showEof (scan text).tokens,
          Report.renderAll colored ⟨path, text⟩ (scan text).diagnostics⟩,
        .ok (({} : Tally).record (scan text).diagnostics.length)⟩ := by
  rw [tokens, h.source_eq, ← errorCount_scanInto]
  rfl

theorem tokens_of_failure {e : Failure} (h : host.source path = .error e) (format : Listing.Format)
    (showEof : Bool) : tokens host colored format showEof path = ⟨.nothing, .error e⟩ := by
  rw [tokens, h]

theorem err_checkSource_of_clean (h : (scan text).diagnostics = []) :
    (checkSource colored verbose ⟨path, text⟩).1.err = "" := by
  simp only [checkSource, entries_scanInto, h, List.isEmpty_nil, ↓reduceIte]
  cases verbose with
  | true => rfl
  | false => rfl

theorem checkSource_of_faulty (h : (scan text).diagnostics ≠ []) :
    (checkSource colored verbose ⟨path, text⟩).1 =
      ⟨"", Report.renderAll colored ⟨path, text⟩ (scan text).diagnostics ++ "\n" ++
        Report.renderClosing colored (scan text).diagnostics.length path⟩ := by
  have hempty : (scan text).diagnostics.isEmpty = false := List.isEmpty_eq_false_iff.mpr h
  have herrors : (scanInto Log.empty text).2.hasErrors = true := (any_isError_scan text).mpr h
  simp only [checkSource, entries_scanInto, hempty, herrors, errorCount_scanInto,
    Bool.false_eq_true, ↓reduceIte, String.append_assoc]

end

/-- Listing the tokens of a file and checking it end with the same status. Where the file cannot be
read, both say the same; where it has mistakes, the check prints what the listing reports, and then
its closing rows. -/
theorem listing_and_checking_agree (host : Host) {listing checking : List String}
    {verbose verbose' noColor noEof : Bool} {config name : Option String} {path : String}
    {s : Settings} {format : Listing.Format}
    (hl : parse host.variableNamed listing =
      .ok ⟨verbose, noColor, config, .tokens path name noEof⟩)
    (hc : parse host.variableNamed checking = .ok ⟨verbose', noColor, config, .check [path]⟩)
    (hs : settings host config = .ok s) (hf : formatFor name s = .ok format) :
    ∃ (listed checked : Response) (choice : ColorChoice),
      run? host listing = some listed ∧ run? host checking = some checked ∧
      colorFor noColor s = .ok choice ∧ listed.exit = checked.exit ∧
      (¬ host.Readable path →
        listed.exit = 2 ∧ listed.printed.out = "" ∧ checked.printed = listed.printed) ∧
      ∀ text, host.Holds path text →
        let diagnostics := (scan text).diagnostics
        let colored := choice.enabled host.terminal
        listed.exit = (if diagnostics = [] then 0 else 1) ∧
        listed.printed = ⟨Listing.render format (s.showEof && !noEof) (scan text).tokens,
          Report.renderAll colored ⟨path, text⟩ diagnostics⟩ ∧
        (diagnostics = [] → listed.printed.err = "" ∧ checked.printed.err = "") ∧
        (diagnostics ≠ [] → checked.printed = ⟨"", listed.printed.err ++ "\n" ++
          Report.renderClosing colored diagnostics.length path⟩) := by
  obtain ⟨choice, hchoice⟩ := exists_colorFor (sound_of_settings hs) noColor
  have hlisted := run?_of_parse hl
  have hchecked := run?_of_parse hc
  rw [effect_tokens hs hchoice hf] at hlisted
  rw [effect_check hs hchoice (List.cons_ne_nil path [])] at hchecked
  refine ⟨_, _, choice, hlisted, hchecked, hchoice, ?_⟩
  by_cases hpath : host.Readable path
  · obtain ⟨text, htext⟩ := hpath
    rw [tokens_eq htext, respond_record, ← checkOne, checkOne_eq htext]
    refine ⟨rfl, fun hnot => absurd ⟨text, htext⟩ hnot, fun text' htext' => ?_⟩
    obtain rfl : text' = text := htext'.unique htext
    refine ⟨rfl, rfl, fun hclean => ?_, fun hfaulty => ?_⟩
    · rw [hclean]
      exact ⟨rfl, err_checkSource_of_clean hclean⟩
    · exact checkSource_of_faulty hfaulty
  · obtain ⟨e, he⟩ := Host.exists_failure hpath
    rw [tokens_of_failure he, check_cons_of_failure he]
    refine ⟨rfl, fun _ => ⟨rfl, rfl, rfl⟩, fun text htext => absurd ⟨text, htext⟩ hpath⟩

/-- A file with a mistake, listed as JSON since the settings say so. -/
theorem listing_and_checking_agree_on_mistake :
    let host := Host.ofTexts [("quill.toml", "output.format = 'JSON'"), ("a.ql", "1 #")]
    ∃ (listed checked : Response) (closing : String),
      run? host ["tokens", "a.ql", "--no-eof"] = some listed ∧
      run? host ["-v", "check", "a.ql"] = some checked ∧ listed.exit = 1 ∧ checked.exit = 1 ∧
      listed.printed.out = Listing.render .json false (scan "1 #").tokens ∧
      checked.printed = ⟨"", listed.printed.err ++ "\n" ++ closing⟩ := by
  intro host
  have hl : parse host.variableNamed ["tokens", "a.ql", "--no-eof"] =
      .ok ⟨false, false, none, .tokens "a.ql" none true⟩ := by decide +kernel
  have hc : parse host.variableNamed ["-v", "check", "a.ql"] =
      .ok ⟨true, false, none, .check ["a.ql"]⟩ := by decide +kernel
  have hs : settings host none = .ok { format := "JSON" } := by decide +kernel
  have hf : formatFor none { format := "JSON" } = .ok .json := by decide +kernel
  have hmistake : (scan "1 #").diagnostics ≠ [] := by decide +kernel
  have htext : host.Holds "a.ql" "1 #" := rfl
  obtain ⟨listed, checked, choice, hlisted, hchecked, -, hexit, -, htexts⟩ :=
    listing_and_checking_agree host hl hc hs hf
  obtain ⟨hone, hprinted, -, hfaulty⟩ := htexts "1 #" htext
  rw [if_neg hmistake] at hone
  refine ⟨listed, checked, _, hlisted, hchecked, hone, hexit ▸ hone, ?_, hfaulty hmistake⟩
  rw [hprinted]
  rfl

end ScriptScan.Command
