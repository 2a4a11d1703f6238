import Typikon.Compilation

/-!
Indexes that answer every question. Against such an index the questions of a template are all
settled, and it compiles to the document of its finished draft.
-/

namespace Typikon

namespace Index

variable {σ : Type}

def after (index : Index σ) (state : σ) (entries : List Entry) : σ :=
  entries.foldl (fun state entry => (index entry state).2) state

/-- From a state on, an index answers whatever it is asked, after whatever it was asked before. -/
def NeverFails (index : Index σ) (state : σ) : Prop :=
  ∀ entries entry, ∃ found, (index entry (index.after state entries)).1 = .ok found

variable {index : Index σ} {state : σ}

theorem NeverFails.answer (h : index.NeverFails state) (entry : Entry) :
    ∃ found next, index entry state = (.ok found, next) ∧ index.NeverFails next := by
  obtain ⟨found, hfound⟩ := h [] entry
  refine ⟨found, (index entry state).2, Prod.ext hfound rfl, ?_⟩
  intro entries later
  exact h (entry :: entries) later

theorem neverFails_full (state : Unit) : full.NeverFails state := by
  intro entries entry
  exact ⟨true, rfl⟩

end Index

namespace Finding

variable {σ : Type} {index : Index σ} {state : σ}

theorem exists_settle_eq_ok (findings : List Finding) (h : index.NeverFails state) :
    ∃ diagnostics, (settle index findings state).1 = .ok diagnostics := by
  induction findings generalizing state with
  | nil => exact ⟨[], rfl⟩
  | cons finding findings ih =>
    unfold settle
    cases finding.question? with
    | none =>
      obtain ⟨rest, hrest⟩ := ih h
      exact ⟨finding.diagnostic :: rest, by simp [hrest, Except.map]⟩
    | some entry =>
      obtain ⟨found, next, hanswer, hnext⟩ := h.answer entry
      obtain ⟨rest, hrest⟩ := ih hnext
      simp only [hanswer]
      cases found with
      | true => exact ⟨rest, hrest⟩
      | false => exact ⟨finding.diagnostic :: rest, by simp [hrest, Except.map]⟩

end Finding

namespace Compilation

variable {σ : Type} {index : Index σ} {state : σ} {name : String} {defaults : Defaults}

/-- What is compiled is a finished draft with what remains of its findings. -/
theorem exists_settle_of_build_eq_ok {steps : Draft → Draft} {c : Compilation}
    (h : (build index name defaults steps state).1 = .ok c) :
    ∃ d diagnostics next, Draft.start name defaults.calendar defaults.date = .ok d ∧
      Finding.settle index (steps d).finish.findings state = (.ok diagnostics, next) ∧
      c = ⟨(steps d).finish.document,
        Diagnostic.tellAll (steps d).finish.document.id diagnostics⟩ := by
  unfold build at h
  split at h
  next cause hstart => cases h
  next d hstart =>
    unfold ofDraft at h
    dsimp only at h
    split at h
    next e next hsettle => cases h
    next diagnostics next hsettle =>
      cases h
      exact ⟨d, diagnostics, next, hstart, hsettle, rfl⟩

theorem exists_build_eq_ok (steps : Draft → Draft) {d : Draft}
    (hstart : Draft.start name defaults.calendar defaults.date = .ok d)
    (hindex : index.NeverFails state) :
    ∃ c, (build index name defaults steps state).1 = .ok c ∧
      c.document = (steps d).finish.document := by
  obtain ⟨diagnostics, hsettle⟩ :=
    Finding.exists_settle_eq_ok (steps d).finish.findings hindex
  refine ⟨⟨(steps d).finish.document,
    Diagnostic.tellAll (steps d).finish.document.id diagnostics⟩, ?_, rfl⟩
  simp only [build, hstart, ofDraft]
  split
  next e next hanswer => simp [hanswer] at hsettle
  next others next hanswer =>
    obtain rfl : others = diagnostics := by simpa [hanswer] using hsettle
    rfl

end Compilation

end Typikon
