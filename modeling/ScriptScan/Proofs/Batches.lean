import ScriptScan.Proofs.Loading

namespace ScriptScan

namespace Printed

theorem append_nothing (p : Printed) : p.append nothing = p := by
  simp [append, nothing]

theorem nothing_append (p : Printed) : nothing.append p = p := by
  simp [append, nothing]

theorem append_assoc (p q r : Printed) : (p.append q).append r = p.append (q.append r) := by
  simp only [append, String.append_assoc]

end Printed

namespace Tally

def recordAll (t : Tally) (texts : List String) : Tally :=
  texts.foldl (fun t text => t.record (scan text).diagnostics.length) t

theorem recordAll_eq (t : Tally) (texts : List String) : t.recordAll texts =
    ⟨t.files + texts.length, t.failed + texts.countP fun text => (scan text).diagnostics ≠ [],
      t.errors + (texts.map fun text => (scan text).diagnostics.length).sum⟩ := by
  induction texts generalizing t with
  | nil => rfl
  | cons text texts ih =>
      have hcons : t.recordAll (text :: texts) =
          (t.record (scan text).diagnostics.length).recordAll texts := rfl
      rw [hcons, ih, record, List.countP_cons]
      by_cases h : (scan text).diagnostics = []
      · simp [h]
        omega
      · simp [h]
        omega

end Tally

namespace Effect

def after (e : Effect) (p : Printed) : Effect := ⟨p.append e.printed, e.result⟩

theorem after_nothing (e : Effect) : e.after .nothing = e := by
  rw [after, Printed.nothing_append]

theorem after_after (e : Effect) (p q : Printed) : (e.after q).after p = e.after (p.append q) := by
  simp only [after, Printed.append_assoc]

end Effect

namespace Command

theorem respond_after (e : Effect) (p : Printed) :
    respond (e.after p) = ⟨(respond e).exit, p.append (respond e).printed⟩ := by
  unfold respond Effect.after
  cases e.result with
  | ok tally => rfl
  | error failure => simp only [Printed.append_assoc]

def printedBy (runs : List Response) : Printed :=
  ⟨String.join (runs.map (·.printed.out)), String.join (runs.map (·.printed.err))⟩

theorem printedBy_cons (r : Response) (runs : List Response) :
    printedBy (r :: runs) = r.printed.append (printedBy runs) := by
  simp only [printedBy, List.map_cons, String.join_cons, Printed.append]

theorem printedBy_concat (runs : List Response) (r : Response) :
    printedBy (runs ++ [r]) = (printedBy runs).append r.printed := by
  simp [printedBy, Printed.append]

section Check

variable {host : Host} {colored verbose : Bool} {path text : String}

theorem check_cons (h : host.Holds path text) (tally : Tally) (paths : List String) :
    check host colored verbose tally (path :: paths) =
      (check host colored verbose (tally.record (scan text).diagnostics.length) paths).after
        (checkSource colored verbose ⟨path, text⟩).1 := by
  have hcount : (checkSource colored verbose ⟨path, text⟩).2 = (scan text).diagnostics.length :=
    errorCount_scanInto text
  rw [check, h.source_eq, ← hcount]
  rfl

theorem check_cons_of_failure {e : Failure} (h : host.source path = .error e) (tally : Tally)
    (paths : List String) :
    check host colored verbose tally (path :: paths) = ⟨.nothing, .error e⟩ := by
  rw [check, h]

theorem status_le_one (p : Prop) [Decidable p] : (if p then 0 else 1) ≤ 1 := by
  split
  · exact Nat.zero_le 1
  · exact Nat.le_refl 1

theorem exit_of_tally (p : Printed) (tally : Tally) :
    (respond ⟨p, .ok tally⟩).exit = if tally.failed = 0 then 0 else 1 := by
  by_cases h : tally.failed = 0
  · simp [respond, Tally.success, h]
  · simp [respond, Tally.success, h]

theorem respond_record (p : Printed) (ds : List Diagnostic) :
    respond ⟨p, .ok (({} : Tally).record ds.length)⟩ = ⟨if ds = [] then 0 else 1, p⟩ := by
  cases ds with
  | nil => rfl
  | cons d ds => simp [respond, Tally.success, Tally.record]

def checkOne (host : Host) (colored verbose : Bool) (path : String) : Response :=
  respond (check host colored verbose {} [path])

theorem checkOne_eq (h : host.Holds path text) : checkOne host colored verbose path =
    ⟨if (scan text).diagnostics = [] then 0 else 1,
      (checkSource colored verbose ⟨path, text⟩).1⟩ := by
  rw [checkOne, check_cons h, respond_after, check, respond_record, Printed.append_nothing]

theorem check_append {before texts : List String} (h : List.Forall₂ host.Holds before texts)
    (tally : Tally) (after : List String) :
    check host colored verbose tally (before ++ after) =
      (check host colored verbose (tally.recordAll texts) after).after
        (printedBy (before.map (checkOne host colored verbose))) := by
  -- The counts vary along the list, but what is printed does not depend on them.
  induction h generalizing tally with
  | nil => exact (Effect.after_nothing _).symm
  | cons hpath hrest ih =>
      rw [List.cons_append, check_cons hpath, ih, Effect.after_after, List.map_cons, printedBy_cons,
        checkOne_eq hpath]
      rfl

theorem check_eq {paths texts : List String} (h : List.Forall₂ host.Holds paths texts)
    (tally : Tally) : check host colored verbose tally paths =
      ⟨printedBy (paths.map (checkOne host colored verbose)), .ok (tally.recordAll texts)⟩ := by
  have hcheck : check host colored verbose tally (paths ++ []) = _ := check_append h tally []
  rw [List.append_nil, check, Effect.after, Printed.append_nothing] at hcheck
  exact hcheck

theorem foldr_max_exit {paths texts : List String} (h : List.Forall₂ host.Holds paths texts) :
    (paths.map fun path => (checkOne host colored verbose path).exit).foldr max 0 =
      if texts.countP (fun text => (scan text).diagnostics ≠ []) = 0 then 0 else 1 := by
  induction h with
  | nil => rfl
  | @cons path text paths texts hpath hrest ih =>
      rw [List.map_cons, List.foldr_cons, ih, checkOne_eq hpath, List.countP_cons]
      by_cases hclean : (scan text).diagnostics = []
      · simp [hclean]
      · rw [if_neg hclean, Nat.max_eq_left (status_le_one _), if_neg]
        simp [hclean]

theorem exists_texts {paths : List String} (h : ∀ path ∈ paths, host.Readable path) :
    ∃ texts, List.Forall₂ host.Holds paths texts := by
  choose! text htext using h
  exact ⟨paths.map text, List.forall₂_map_right_iff.mpr (List.forall₂_same.mpr htext)⟩

end Check

open Arguments

/-- Checking many files prints what checking each of them prints, and exits with the greatest of
their statuses. The first file that cannot be read ends the run, whatever comes after it. -/
theorem checking_files_is_checking_each (host : Host) {words : List String}
    {alone : String → List String} {verbose noColor : Bool} {config : Option String}
    {paths : List String} {s : Settings}
    (hall : parse host.variableNamed words = .ok ⟨verbose, noColor, config, .check paths⟩)
    (halone : ∀ path ∈ paths,
      parse host.variableNamed (alone path) = .ok ⟨verbose, noColor, config, .check [path]⟩)
    (hs : settings host config = .ok s) :
    ∃ (together : Response) (single : String → Response),
      run? host words = some together ∧
      (∀ path ∈ paths, run? host (alone path) = some (single path)) ∧
      (∀ texts, List.Forall₂ host.Holds paths texts →
        together.printed = printedBy (paths.map single) ∧
        together.exit = (paths.map fun path => (single path).exit).foldr max 0 ∧
        together.exit ≤ 1 ∧
        (effect host ⟨verbose, noColor, config, .check paths⟩).result =
          .ok ⟨paths.length, texts.countP fun text => (scan text).diagnostics ≠ [],
            (texts.map fun text => (scan text).diagnostics.length).sum⟩) ∧
      ∀ before path after, paths = before ++ path :: after →
        (∀ p ∈ before, host.Readable p) → ¬ host.Readable path →
        together = ⟨2, printedBy ((before ++ [path]).map single)⟩ := by
  obtain ⟨choice, hchoice⟩ := exists_colorFor (sound_of_settings hs) noColor
  obtain ⟨p, -, hcommand, -⟩ := exists_of_parse hall
  have heffect : effect host ⟨verbose, noColor, config, .check paths⟩ =
      check host (choice.enabled host.terminal) (verbose || s.verbose) {} paths :=
    effect_check hs hchoice (files_ne_nil_of_command hcommand)
  refine ⟨_, checkOne host (choice.enabled host.terminal) (verbose || s.verbose),
    run?_of_parse hall, ?_, ?_, ?_⟩
  · intro path hpath
    rw [run?_of_parse (halone path hpath), effect_check hs hchoice (List.cons_ne_nil path [])]
    rfl
  · intro texts htexts
    rw [heffect, check_eq htexts, Tally.recordAll_eq, exit_of_tally, foldr_max_exit htexts]
    refine ⟨rfl, ?_, status_le_one _, ?_⟩
    · simp
    · simp [htexts.length_eq]
  · intro before path after hpaths hbefore hpath
    obtain ⟨texts, htexts⟩ := exists_texts hbefore
    obtain ⟨e, he⟩ := Host.exists_failure hpath
    rw [heffect, hpaths, check_append htexts, check_cons_of_failure he, respond_after,
      List.map_append, List.map_singleton, printedBy_concat, checkOne, check_cons_of_failure he]
    rfl

/-- A file without mistakes, one with a mistake, one that is missing, and one that is not reached.
-/
theorem checking_files_is_checking_each_up_to_missing :
    let host := Host.ofTexts [("a.ql", "1"), ("b.ql", "#")]
    ∃ (together : Response) (single : String → Response),
      run? host ["-v", "check", "a.ql", "b.ql", "c.ql", "a.ql"] = some together ∧
      run? host ["check", "a.ql", "--verbose"] = some (single "a.ql") ∧
      (single "a.ql").printed = ⟨"a.ql: ok (2 tokens)\n", ""⟩ ∧
      together = ⟨2, printedBy [single "a.ql", single "b.ql", single "c.ql"]⟩ := by
  intro host
  have hall : parse host.variableNamed ["-v", "check", "a.ql", "b.ql", "c.ql", "a.ql"] =
      .ok ⟨true, false, none, .check ["a.ql", "b.ql", "c.ql", "a.ql"]⟩ := by decide +kernel
  have halone : ∀ path ∈ ["a.ql", "b.ql", "c.ql", "a.ql"],
      parse host.variableNamed ["check", path, "--verbose"] =
        .ok ⟨true, false, none, .check [path]⟩ := by decide +kernel
  have hs : settings host none = .ok {} := by decide +kernel
  obtain ⟨together, single, htogether, hsingle, -, hmissing⟩ :=
    checking_files_is_checking_each host hall halone hs
  have hclean : run? host ["check", "a.ql", "--verbose"] =
      some ⟨0, ⟨"a.ql: ok (2 tokens)\n", ""⟩⟩ := by decide +kernel
  have hfirst := hsingle "a.ql" (by simp)
  refine ⟨together, single, htogether, hfirst, ?_, ?_⟩
  · rw [← Option.some_inj.mp (hclean.symm.trans hfirst)]
  · refine hmissing ["a.ql", "b.ql"] "c.ql" ["a.ql"] rfl ?_ ?_
    · rintro path hpath
      obtain rfl | rfl : path = "a.ql" ∨ path = "b.ql" := by simpa using hpath
      · exact ⟨"1", rfl⟩
      · exact ⟨"#", rfl⟩
    · rintro ⟨text, htext⟩
      have hmissing : host.node "c.ql" = .missing := rfl
      cases hmissing.symm.trans htext

end Command

end ScriptScan
