import ScriptScan.Proofs.Causes
import ScriptScan.Proofs.Pulling

namespace ScriptScan

namespace Log

theorem errorCount_reportAll (l : Log) (ds : List Diagnostic) :
    (l.reportAll ds).errorCount = l.errorCount + ds.countP (·.level.isError) :=
  List.countP_append

end Log

theorem isError_of_mem {source : String} {d : Diagnostic} (hd : d ∈ (scan source).diagnostics) :
    d.level.isError = true := by
  rw [(explained_of_mem hd).1]
  rfl

theorem countP_isError_scan (source : String) :
    (scan source).diagnostics.countP (·.level.isError) = (scan source).diagnostics.length := by
  rw [List.countP_eq_length]
  intro d hd
  exact isError_of_mem hd

theorem any_isError_scan (source : String) :
    (scan source).diagnostics.any (·.level.isError) = true ↔ (scan source).diagnostics ≠ [] := by
  rw [List.any_eq_true]
  constructor
  · rintro ⟨d, hd, -⟩
    exact List.ne_nil_of_mem hd
  · intro hne
    obtain ⟨d, hd⟩ := List.exists_mem_of_ne_nil _ hne
    exact ⟨d, hd, isError_of_mem hd⟩

namespace Scanner

theorem drain_of_finished {s : Scanner} (hf : s.finished = true) : s.drain.1 = [] := by
  rw [Scanner.drain]
  split
  · rfl
  · rename_i hf'
    rw [hf] at hf'
    cases hf'

theorem Pulled.append_drain {log : Log} {source : String} {s : Scanner} :
    ∀ returned : List Token, Pulled log source returned s → (∀ t ∈ returned, t.isEof = false) →
      returned ++ s.drain.1 = (scan source).tokens := by
  fun_induction Scanner.drain s with
  | case1 s hf =>
      intro returned h hwords
      obtain ⟨t, ht, hend⟩ := h.finished_iff.mp hf
      rw [hwords t ht] at hend
      cases hend
  | case2 s hf step later ih =>
      intro returned h hwords
      have hall : returned.filter isWord = returned := by
        rw [List.filter_eq_self]
        intro t ht
        simp [isWord, hwords t ht]
      cases hend : step.1.isEof with
      | true =>
          -- The end has been handed out, so the rest of the run is empty.
          have hlast : step.1 ∈ returned ++ [step.1] := by simp
          have hdone : later.1 = [] :=
            drain_of_finished (h.nextToken.finished_iff.mpr ⟨_, hlast, hend⟩)
          rw [hdone, h.nextToken.tokens_eq hlast hend, ← h.isEof_nextToken_iff.mp hend, hall]
      | false =>
          have hlater := ih _ h.nextToken ?_
          · rw [List.append_assoc] at hlater
            exact hlater
          · intro t ht
            obtain ht | ht := List.mem_append.mp ht
            · exact hwords t ht
            · rw [List.mem_singleton.mp ht]
              exact hend

theorem drain_ofString (log : Log) (source : String) :
    (ofString log source).drain.1 = (scan source).tokens ∧
      (ofString log source).drain.2.log = log.reportAll (scan source).diagnostics := by
  have h : Pulled log source [] (ofString log source) := ⟨[], progress_ofString log source⟩
  constructor
  · exact Pulled.append_drain [] h (by simp)
  · exact ((Pulled.drain [] h).complete (finished_drain _)).2

end Scanner

open Scanner

end ScriptScan
