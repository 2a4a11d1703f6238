import Typikon.Proofs.Draft.Questions
import Typikon.Proofs.Index.Answering

/-!
The first failure of an index. Listed questions are all answered, or one of them is the first to
fail; what comes of settling findings depends on nothing else about the answers.
-/

namespace Typikon

namespace Index

variable {σ : Type} (index : Index σ)

/-- From a state on, an index answers listed questions, one after another. -/
def AnswersAll : List Entry → σ → Prop
  | [], _ => True
  | entry :: entries, state =>
    (∃ found, (index entry state).1 = .ok found) ∧ AnswersAll entries (index entry state).2

/-- From a state on, an index answers some questions and then fails at one. -/
structure FailsAfter (before : List Entry) (entry : Entry) (state : σ) (cause : IndexError)
    (next : σ) : Prop where
  answered : index.AnswersAll before state
  failure : index entry (index.after state before) = (.error cause, next)

variable {index} {state : σ}

theorem FailsAfter.cons {before : List Entry} {first entry : Entry} {cause : IndexError} {next : σ}
    (hfirst : ∃ found, (index first state).1 = .ok found)
    (h : index.FailsAfter before entry (index first state).2 cause next) :
    index.FailsAfter (first :: before) entry state cause next :=
  ⟨⟨hfirst, h.answered⟩, h.failure⟩

theorem answersAll_or_failsAfter (index : Index σ) (entries : List Entry) (state : σ) :
    index.AnswersAll entries state ∨
      ∃ before entry later cause next, entries = before ++ entry :: later ∧
        index.FailsAfter before entry state cause next := by
  induction entries generalizing state with
  | nil => exact .inl trivial
  | cons first entries ih =>
    cases hanswer : (index first state).1 with
    | error cause =>
      exact .inr ⟨[], first, entries, cause, (index first state).2, rfl, trivial,
        Prod.ext hanswer rfl⟩
    | ok found =>
      have hfirst : ∃ found, (index first state).1 = .ok found := ⟨found, hanswer⟩
      obtain hall | ⟨before, entry, later, cause, next, rfl, hfails⟩ := ih (index first state).2
      · exact .inl ⟨hfirst, hall⟩
      · exact .inr ⟨first :: before, entry, later, cause, next, rfl, hfails.cons hfirst⟩

end Index

namespace Finding

variable {σ : Type} {index : Index σ} {findings : List Finding} {state : σ}

section Cons

variable {finding : Finding} {entry : Entry} {found : Bool}

theorem settle_cons_of_certain (h : finding.question? = none) :
    settle index (finding :: findings) state =
      ((settle index findings state).1.map (finding.diagnostic :: ·),
        (settle index findings state).2) := by
  rw [settle, h]

theorem settle_cons_of_answer (h : finding.question? = some entry)
    (hanswer : (index entry state).1 = .ok found) :
    settle index (finding :: findings) state =
      (if found then (settle index findings (index entry state).2).1
        else (settle index findings (index entry state).2).1.map (finding.diagnostic :: ·),
        (settle index findings (index entry state).2).2) := by
  have hpair : index entry state = (.ok found, (index entry state).2) := Prod.ext hanswer rfl
  rw [settle, h]
  dsimp only
  rw [hpair]

theorem asked_cons_of_answer (h : finding.question? = some entry)
    (hanswer : (index entry state).1 = .ok found) :
    asked index (finding :: findings) state =
      entry :: asked index findings (index entry state).2 := by
  have hpair : index entry state = (.ok found, (index entry state).2) := Prod.ext hanswer rfl
  rw [asked, h]
  dsimp only
  rw [hpair]

end Cons

/-- If all questions are answered, all are asked and the findings are settled. -/
theorem settle_of_answersAll (h : index.AnswersAll (findings.filterMap question?) state) :
    (∃ diagnostics, settle index findings state =
        (.ok diagnostics, index.after state (findings.filterMap question?))) ∧
      asked index findings state = findings.filterMap question? := by
  induction findings generalizing state with
  | nil => exact ⟨⟨[], rfl⟩, rfl⟩
  | cons finding findings ih =>
    cases hquestion : finding.question? with
    | none =>
      rw [List.filterMap_cons_none hquestion] at h ⊢
      obtain ⟨⟨rest, hsettle⟩, hasked⟩ := ih h
      rw [settle_cons_of_certain hquestion, hsettle, asked, hquestion]
      exact ⟨⟨finding.diagnostic :: rest, rfl⟩, hasked⟩
    | some entry =>
      rw [List.filterMap_cons_some hquestion] at h ⊢
      obtain ⟨⟨found, hanswer⟩, hrest⟩ := h
      obtain ⟨⟨rest, hsettle⟩, hasked⟩ := ih hrest
      rw [settle_cons_of_answer hquestion hanswer, hsettle, asked_cons_of_answer hquestion hanswer,
        hasked]
      cases found with
      | true => exact ⟨⟨rest, rfl⟩, rfl⟩
      | false => exact ⟨⟨finding.diagnostic :: rest, rfl⟩, rfl⟩

/-- The first question that fails is the last one to be asked, and its failure is what comes of the
findings. -/
theorem settle_of_failsAfter {before later : List Entry} {entry : Entry} {cause : IndexError}
    {next : σ} (hquestions : findings.filterMap question? = before ++ entry :: later)
    (h : index.FailsAfter before entry state cause next) :
    settle index findings state = (.error cause, next) ∧
      asked index findings state = before ++ [entry] := by
  induction findings generalizing state before with
  | nil => simp at hquestions
  | cons finding findings ih =>
    cases hquestion : finding.question? with
    | none =>
      rw [List.filterMap_cons_none hquestion] at hquestions
      obtain ⟨hsettle, hasked⟩ := ih hquestions h
      rw [settle_cons_of_certain hquestion, hsettle, asked, hquestion]
      exact ⟨rfl, hasked⟩
    | some first =>
      rw [List.filterMap_cons_some hquestion] at hquestions
      cases before with
      | nil =>
        obtain ⟨rfl, -⟩ := List.cons.inj hquestions
        have hfailure : index first state = (.error cause, next) := h.failure
        simp [settle, asked, hquestion, hfailure]
      | cons _ before =>
        obtain ⟨rfl, hrest⟩ := List.cons.inj hquestions
        obtain ⟨⟨found, hanswer⟩, hbefore⟩ := h.answered
        obtain ⟨hsettle, hasked⟩ := ih hrest ⟨hbefore, h.failure⟩
        rw [settle_cons_of_answer hquestion hanswer, hsettle,
          asked_cons_of_answer hquestion hanswer, hasked]
        cases found <;> exact ⟨rfl, rfl⟩

end Finding

end Typikon
