import Typikon.Draft.Finding

/-!
What settling findings asks of an index, and what remains of them. Some findings are certain and
remain; those that are questions remain unless the index has the entry.
-/

namespace Typikon

namespace Index

variable {σ : Type}

/-- An index that lists the entries it is asked for. -/
def logged (index : Index σ) : Index (σ × List Entry)
  | entry, (state, log) =>
    let (answer, next) := index entry state
    (answer, next, log ++ [entry])

end Index

namespace Finding

variable {σ : Type} (index : Index σ)

/-- The entries that an index is asked for to settle findings, up to its first failure. -/
def asked : List Finding → σ → List Entry
  | [], _ => []
  | finding :: findings, state =>
    match finding.question? with
    | none => asked findings state
    | some entry =>
      match index entry state with
      | (.error _, _) => [entry]
      | (.ok _, next) => entry :: asked findings next

theorem settle_logged (findings : List Finding) (state : σ) (log : List Entry) :
    settle index.logged findings (state, log) =
      ((settle index findings state).1, (settle index findings state).2,
        log ++ asked index findings state) := by
  induction findings generalizing state log with
  | nil => simp [settle, asked]
  | cons finding findings ih =>
    unfold settle asked
    cases finding.question? with
    | none => simp [ih]
    | some entry =>
      rcases h : index entry state with ⟨answer, next⟩
      cases answer with
      | error e => simp [Index.logged, h]
      | ok found => simp [Index.logged, h, ih]

variable {index} {finding : Finding} {findings : List Finding} {diagnostics : List Diagnostic}
  {state next : σ}

/-- A finding remains unless it is a question. -/
theorem settle_cons_cases (h : settle index (finding :: findings) state = (.ok diagnostics, next)) :
    ∃ between rest, settle index findings between = (.ok rest, next) ∧
      (diagnostics = finding.diagnostic :: rest ∨
        finding.question?.isSome ∧ diagnostics = rest) := by
  unfold settle at h
  cases hquestion : finding.question? with
  | none =>
    simp only [hquestion] at h
    rcases hrest : settle index findings state with ⟨e | rest, last⟩
    · simp [hrest, Except.map] at h
    · obtain ⟨rfl, rfl⟩ : finding.diagnostic :: rest = diagnostics ∧ last = next := by
        simpa [hrest, Except.map] using h
      exact ⟨state, rest, hrest, .inl rfl⟩
  | some entry =>
    simp only [hquestion] at h
    rcases hanswer : index entry state with ⟨e | found, between⟩
    · simp [hanswer] at h
    · rcases hrest : settle index findings between with ⟨e | rest, last⟩
      · cases found <;> simp [hanswer, hrest, Except.map] at h
      · cases found with
        | false =>
          obtain ⟨rfl, rfl⟩ : finding.diagnostic :: rest = diagnostics ∧ last = next := by
            simpa [hanswer, hrest, Except.map] using h
          exact ⟨between, rest, hrest, .inl rfl⟩
        | true =>
          obtain ⟨rfl, rfl⟩ : rest = diagnostics ∧ last = next := by
            simpa [hanswer, hrest] using h
          exact ⟨between, rest, hrest, .inr ⟨rfl, rfl⟩⟩

/-- What remains of findings is some of what they suppose. -/
theorem sublist_of_settle_eq_ok (h : settle index findings state = (.ok diagnostics, next)) :
    diagnostics.Sublist (findings.map diagnostic) := by
  induction findings generalizing diagnostics state with
  | nil =>
    cases h
    exact .slnil
  | cons finding findings ih =>
    obtain ⟨between, rest, hrest, rfl | ⟨-, rfl⟩⟩ := settle_cons_cases h
    · exact (ih hrest).cons_cons finding.diagnostic
    · exact (ih hrest).cons finding.diagnostic

/-- What is certain remains. -/
theorem map_diagnostic_sublist_of_settle_eq_ok {certain : List Finding}
    (hsublist : certain.Sublist findings) (hcertain : ∀ finding ∈ certain, finding.question? = none)
    (h : settle index findings state = (.ok diagnostics, next)) :
    (certain.map diagnostic).Sublist diagnostics := by
  induction hsublist generalizing diagnostics state with
  | slnil => exact List.nil_sublist diagnostics
  | cons finding _ ih =>
    obtain ⟨between, rest, hrest, rfl | ⟨-, rfl⟩⟩ := settle_cons_cases h
    · exact (ih hcertain hrest).cons finding.diagnostic
    · exact ih hcertain hrest
  | cons_cons finding _ ih =>
    obtain ⟨hfirst, hothers⟩ := List.forall_mem_cons.mp hcertain
    obtain ⟨between, rest, hrest, rfl | ⟨hquestion, rfl⟩⟩ := settle_cons_cases h
    · exact (ih hothers hrest).cons_cons finding.diagnostic
    · rw [hfirst] at hquestion
      cases hquestion

/-- If nothing remains, all was questions. -/
theorem isSome_question?_of_settle_eq_nil (h : settle index findings state = (.ok [], next)) :
    ∀ finding ∈ findings, finding.question?.isSome := by
  induction findings generalizing state with
  | nil => simp
  | cons finding findings ih =>
    obtain ⟨between, rest, hrest, hremain | ⟨hquestion, rfl⟩⟩ := settle_cons_cases h
    · cases hremain
    · exact List.forall_mem_cons.2 ⟨hquestion, ih hrest⟩

end Finding

end Typikon
