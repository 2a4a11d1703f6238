import Typikon.Index.EntrySet
import Typikon.Proofs.Index.Failing

/-!
Two indexes that are asked the same questions. If one has whatever the other has, less remains of
findings under it, and all that is gone are questions.
-/

namespace Typikon

namespace Index

variable {σ τ : Type} {index : Index σ} {state : σ} {wider : Index τ} {state' : τ}

/-- After the same questions, an index has only what another one has. -/
def Within (index : Index σ) (state : σ) (wider : Index τ) (state' : τ) : Prop :=
  ∀ entries entry, (index entry (index.after state entries)).1 = .ok true →
    (wider entry (wider.after state' entries)).1 = .ok true

theorem Within.answer (h : index.Within state wider state') (entry : Entry) :
    index.Within (index entry state).2 wider (wider entry state').2 :=
  fun entries later => h (entry :: entries) later

theorem within_full (index : Index σ) (state : σ) : index.Within state full () :=
  fun _ _ _ => rfl

end Index

namespace EntrySet

theorem after_index (set : EntrySet) (entries : List Entry) : index.after set entries = set := by
  induction entries with
  | nil => rfl
  | cons entry entries ih => exact ih

theorem neverFails_index (set : EntrySet) : index.NeverFails set := by
  intro entries entry
  rw [after_index]
  exact ⟨set.has entry, rfl⟩

theorem within_index_iff {set wider : EntrySet} :
    index.Within set index wider ↔ ∀ entry, set.has entry = true → wider.has entry = true := by
  simp [Index.Within, after_index, index]

end EntrySet

namespace Finding

variable {σ τ : Type} {index : Index σ} {state : σ} {wider : Index τ} {state' : τ}

/-- Settling findings by an index and by a wider one. What remains only under the first are
questions that the wider one has the entry of. -/
theorem exists_settle_sublist (findings : List Finding) (hindex : index.NeverFails state)
    (hwider : wider.NeverFails state') (hwithin : index.Within state wider state') :
    ∃ diagnostics fewer extra, (settle index findings state).1 = .ok diagnostics ∧
      (settle wider findings state').1 = .ok fewer ∧ fewer.Sublist diagnostics ∧
      diagnostics.Perm (fewer ++ extra) ∧
      extra.Sublist ((findings.filter (·.question?.isSome)).map diagnostic) := by
  induction findings generalizing state state' with
  | nil => exact ⟨[], [], [], rfl, rfl, .slnil, .nil, .slnil⟩
  | cons finding findings ih =>
    cases hquestion : finding.question? with
    | none =>
      have hrest : (finding :: findings).filter (·.question?.isSome) =
          findings.filter (·.question?.isSome) := by simp [hquestion]
      obtain ⟨rest, fewer, extra, hsettle, hsettle', hsublist, hperm, hextra⟩ :=
        ih hindex hwider hwithin
      rw [settle_cons_of_certain hquestion, settle_cons_of_certain hquestion, hsettle, hsettle',
        hrest]
      exact ⟨_, _, extra, rfl, rfl, hsublist.cons_cons _, hperm.cons _, hextra⟩
    | some entry =>
      have hrest : (finding :: findings).filter (·.question?.isSome) =
          finding :: findings.filter (·.question?.isSome) := by simp [hquestion]
      obtain ⟨found, next, hanswer, hnext⟩ := hindex.answer entry
      obtain ⟨found', next', hanswer', hnext'⟩ := hwider.answer entry
      have hafter := hwithin.answer entry
      have hfound := hwithin [] entry
      rw [hanswer, hanswer'] at hafter
      change (index entry state).1 = .ok true → (wider entry state').1 = .ok true at hfound
      rw [hanswer, hanswer'] at hfound
      obtain ⟨rest, fewer, extra, hsettle, hsettle', hsublist, hperm, hextra⟩ :=
        ih hnext hnext' hafter
      rw [settle_cons_of_answer hquestion (congrArg Prod.fst hanswer),
        settle_cons_of_answer hquestion (congrArg Prod.fst hanswer'), hanswer, hanswer', hsettle,
        hsettle', hrest, List.map_cons]
      cases found with
      | true =>
        obtain rfl : found' = true := by simpa using hfound
        exact ⟨rest, fewer, extra, rfl, rfl, hsublist, hperm, hextra.cons _⟩
      | false =>
        cases found' with
        | true =>
          exact ⟨_, fewer, finding.diagnostic :: extra, rfl, rfl, hsublist.cons _,
            (hperm.cons _).trans List.perm_middle.symm, hextra.cons_cons _⟩
        | false =>
          exact ⟨_, _, extra, rfl, rfl, hsublist.cons_cons _, hperm.cons _, hextra.cons _⟩

end Finding

end Typikon
