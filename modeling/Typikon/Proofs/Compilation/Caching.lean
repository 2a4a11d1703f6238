import Typikon.Proofs.Compilation.Tasks
import Typikon.Proofs.Index.Caching

/-!
Compiling through a cache. Compilations that follow one another share an index and its cache, which
is kept also when one of them fails. What comes of them is what the index alone would have given,
and the index is asked only once for what it answers.
-/

namespace Typikon

namespace Task

variable {σ τ : Type} {related : σ → τ → Prop} {index : Index σ} {other : Index τ} {state : σ}
  {state' : τ}

/-- Indexes that answer the same for entries without slashes of their own compile a task the same
way. -/
theorem compile_of_simulates (hindex : Index.Simulates Entry.IsPlain related index other)
    (task : Task) (hstate : related state state') :
    (task.compile index state).1 = (task.compile other state').1 ∧
      related (task.compile index state).2 (task.compile other state').2 := by
  rw [compile_eq_build, compile_eq_build, Compilation.build, Compilation.build]
  cases hstart : Draft.start task.name task.defaults.calendar task.defaults.date with
  | error cause => exact ⟨rfl, hstate⟩
  | ok d =>
    obtain ⟨hanswers, hnext⟩ := Finding.settle_of_simulates hindex
      (task.source.isPlain_of_mem_questions (Compilation.findings_start hstart)) hstate
    dsimp only
    rw [Compilation.ofDraft_apply, Compilation.ofDraft_apply, hanswers]
    exact ⟨rfl, hnext⟩

theorem compileAll_of_simulates (hindex : Index.Simulates Entry.IsPlain related index other)
    (tasks : List Task) (hstate : related state state') :
    (compileAll index tasks state).1 = (compileAll other tasks state').1 ∧
      related (compileAll index tasks state).2 (compileAll other tasks state').2 := by
  induction tasks generalizing state state' with
  | nil => exact ⟨rfl, hstate⟩
  | cons task tasks ih =>
    obtain ⟨hresult, hbetween⟩ := task.compile_of_simulates hindex hstate
    obtain ⟨hresults, hlast⟩ := ih hbetween
    refine ⟨?_, hlast⟩
    simp only [compileAll, hresult, hresults]

theorem compileAll_of_preserves {invariant : σ → Prop}
    (hindex : Index.Preserves Entry.IsPlain invariant index) (tasks : List Task) (start : σ)
    (hstart : invariant start) : invariant (compileAll index tasks start).2 :=
  (compileAll_of_simulates hindex.simulates tasks ⟨rfl, hstart⟩).2.2

/-- What an index is asked when tasks are compiled through a cache that is empty at first. -/
def record (index : Index σ) (tasks : List Task) (state : σ) :
    List (Entry × Except IndexError Bool) :=
  (compileAll index.recorded.cached tasks ((state, []), ∅)).2.1.2

/-- A cache cannot be told from what comes of a compilation. If the answers of an index depend on
the entry alone, all tasks that share a cache come to what they come to without it, the same
failures included, and the index is asked at most once for each entry that it answers for. Whatever
its answers depend on, an index is asked again for an entry only after failures, and recording that
changes nothing. -/
theorem compileAll_cached (index : Index σ) (state : σ) (tasks : List Task) :
    (∀ answer, index.Answers answer state →
      (∀ name defaults text,
        (Compilation.ofText index.cached name defaults text (state, ∅)).1 =
          (Compilation.ofText index name defaults text state).1) ∧
      (compileAll index.cached tasks (state, ∅)).1 = (compileAll index tasks state).1 ∧
      ∀ entry found, answer entry = .ok found →
        ((record index tasks state).map Prod.fst).count entry ≤ 1) ∧
      (compileAll index.recorded.cached tasks ((state, []), ∅)).1 =
        (compileAll index.cached tasks (state, ∅)).1 ∧
      Index.AsksOnce (record index tasks state) := by
  have honce : Index.AsksOnce (record index tasks state) :=
    (compileAll_of_preserves (index.preserves_asksOnce _) tasks ((state, []), ∅)
      ⟨by simp, Index.asksOnce_nil⟩).2
  refine ⟨fun answer hanswer => ⟨?_, ?_, ?_⟩, ?_, honce⟩
  · intro name defaults text
    exact (compile_of_simulates (index.simulates_cached answer) ⟨name, defaults, .text text⟩
      ⟨hanswer, Index.agrees_empty answer, hanswer⟩).1
  · exact (compileAll_of_simulates (index.simulates_cached answer) tasks
      ⟨hanswer, Index.agrees_empty answer, hanswer⟩).1
  · intro entry found hfound
    have hrecord := compileAll_of_preserves (index.preserves_recorded _ answer) tasks
      ((state, []), ∅) ⟨hanswer, by simp⟩
    exact honce.count_le_one hrecord.2 hfound
  · exact (compileAll_of_simulates (index.simulates_recorded _) tasks ⟨rfl, rfl⟩).1

/-- An index that fails for the Octoechos, has all else, and counts its questions. -/
def downForOctoechos : Index Nat
  | entry, count =>
    (if IsOctoechosTopic entry.topic then .error (.unavailable "down") else .ok true, count + 1)

theorem compileAll_cached_downForOctoechos :
    let task : Task := ⟨"t", ⟨.gregorian, ⟨737425⟩⟩, .text Compilation.oopsText⟩
    downForOctoechos ⟨"me", "first"⟩ 0 = (.ok true, 1) ∧
      downForOctoechos ⟨"oc.m3.d4", "k"⟩ 1 = (.error (.unavailable "down"), 2) ∧
      (compileAll downForOctoechos.cached [task, task] (0, ∅)).1 =
        (compileAll downForOctoechos [task, task] 0).1 ∧
      ((record downForOctoechos [task, task] 0).map Prod.fst).count ⟨"me", "first"⟩ ≤ 1 := by
  intro task
  have hanswers : downForOctoechos.Answers
      (fun entry => if IsOctoechosTopic entry.topic then .error (.unavailable "down") else .ok true)
      0 :=
    fun _ _ => rfl
  obtain ⟨hcached, -⟩ := compileAll_cached downForOctoechos 0 [task, task]
  obtain ⟨-, hresults, hcount⟩ := hcached _ hanswers
  exact ⟨rfl, rfl, hresults, hcount _ true rfl⟩

end Task

end Typikon
