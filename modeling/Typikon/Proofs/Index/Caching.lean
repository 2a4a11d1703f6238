import Typikon.Proofs.Index.Failing
import Typikon.Proofs.Index.Path

/-!
Caches of answers. A cache knows entries by their paths, which tell apart entries without slashes of
their own. As long as no other entries are asked for, an index whose answers depend on the entry
alone answers the same through a cache, and no index is asked again for what it has answered.
-/

namespace Typikon

namespace Index

variable {σ τ : Type}

/-- Asked for entries of a kind, two indexes in related states answer the same, and stay related. -/
def Simulates (kind : Entry → Prop) (related : σ → τ → Prop) (index : Index σ) (other : Index τ) :
    Prop :=
  ∀ entry state state', kind entry → related state state' →
    (index entry state).1 = (other entry state').1 ∧
      related (index entry state).2 (other entry state').2

/-- Asked for entries of a kind, an index keeps to an invariant of its states. -/
def Preserves (kind : Entry → Prop) (invariant : σ → Prop) (index : Index σ) : Prop :=
  ∀ entry state, kind entry → invariant state → invariant (index entry state).2

/-- From a state on, the answers of an index depend on the entry alone. A failure is an answer
too. -/
def Answers (index : Index σ) (answer : Entry → Except IndexError Bool) (state : σ) : Prop :=
  ∀ entries entry, (index entry (index.after state entries)).1 = answer entry

/-- An index that records what it is asked and what it answers. -/
def recorded (index : Index σ) : Index (σ × List (Entry × Except IndexError Bool))
  | entry, (state, record) =>
    let (answer, next) := index entry state
    (answer, next, record ++ [(entry, answer)])

/-- A cache has no answers but those that an index gives. -/
def Agrees (answer : Entry → Except IndexError Bool) (cache : Std.HashMap String Bool) : Prop :=
  ∀ entry, entry.IsPlain → ∀ found, cache[entry.path]? = some found → answer entry = .ok found

/-- A record has every entry again only after failures. -/
def AsksOnce (record : List (Entry × Except IndexError Bool)) : Prop :=
  record.Pairwise fun earlier later =>
    earlier.1 = later.1 → ∃ cause, earlier.2 = .error cause

variable {index : Index σ} {answer : Entry → Except IndexError Bool} {state : σ}

theorem Answers.apply (h : index.Answers answer state) (entry : Entry) :
    (index entry state).1 = answer entry :=
  h [] entry

theorem Answers.next (h : index.Answers answer state) (entry : Entry) :
    index.Answers answer (index entry state).2 :=
  fun entries later => h (entry :: entries) later

theorem agrees_empty (answer : Entry → Except IndexError Bool) : Agrees answer ∅ := by
  intro entry _ found hfound
  simp at hfound

theorem Agrees.insert {cache : Std.HashMap String Bool} {entry : Entry} {found : Bool}
    (h : Agrees answer cache) (hplain : entry.IsPlain) (hanswer : answer entry = .ok found) :
    Agrees answer (cache.insert entry.path found) := by
  intro other hother kept hkept
  rw [Std.HashMap.getElem?_insert] at hkept
  by_cases hpath : entry.path = other.path
  · obtain rfl := hplain.eq_of_path_eq hother hpath
    simp only [beq_self_eq_true, ↓reduceIte, Option.some.injEq] at hkept
    rw [hanswer, hkept]
  · rw [if_neg (by simpa using hpath)] at hkept
    exact h other hother kept hkept

section Cached

variable {entry : Entry} {cache : Std.HashMap String Bool}

theorem cached_of_some {found : Bool} (h : cache[entry.path]? = some found) :
    index.cached entry (state, cache) = (.ok found, state, cache) := by
  rw [cached, h]

theorem cached_of_none (h : cache[entry.path]? = none) :
    index.cached entry (state, cache) =
      ((index entry state).1, (index entry state).2,
        match (index entry state).1 with
        | .ok found => cache.insert entry.path found
        | .error _ => cache) := by
  rw [cached, h]
  dsimp only
  rcases index entry state with ⟨cause | found, next⟩ <;> rfl

end Cached

/-- Through a cache an index answers as it would have answered itself. -/
theorem simulates_cached (index : Index σ) (answer : Entry → Except IndexError Bool) :
    Simulates Entry.IsPlain
      (fun (s : σ × Std.HashMap String Bool) state =>
        index.Answers answer s.1 ∧ Agrees answer s.2 ∧ index.Answers answer state)
      index.cached index := by
  rintro entry ⟨kept, cache⟩ state hplain ⟨hkept, hcache, hstate⟩
  have hanswer := hkept.apply entry
  rw [hstate.apply entry]
  cases hlookup : cache[entry.path]? with
  | some found =>
    rw [cached_of_some hlookup]
    exact ⟨(hcache entry hplain found hlookup).symm, hkept, hcache, hstate.next entry⟩
  | none =>
    rw [cached_of_none hlookup, hanswer]
    refine ⟨rfl, hkept.next entry, ?_, hstate.next entry⟩
    cases hfound : answer entry with
    | error cause => exact hcache
    | ok found => exact hcache.insert hplain hfound

/-- Recording changes no answer, whatever cache stands before it. -/
theorem simulates_recorded (kind : Entry → Prop) (index : Index σ) :
    Simulates kind
      (fun (s : (σ × List (Entry × Except IndexError Bool)) × Std.HashMap String Bool) t =>
        s.1.1 = t.1 ∧ s.2 = t.2)
      index.recorded.cached index.cached := by
  rintro entry ⟨⟨state, record⟩, cache⟩ ⟨_, _⟩ - ⟨rfl, rfl⟩
  cases hlookup : cache[entry.path]? with
  | some found =>
    rw [cached_of_some hlookup, cached_of_some hlookup]
    exact ⟨rfl, rfl, rfl⟩
  | none =>
    rw [cached_of_none hlookup, cached_of_none hlookup]
    exact ⟨rfl, rfl, rfl⟩

/-- What an index has answered is in the cache, so it is not asked for it again. -/
theorem preserves_asksOnce (kind : Entry → Prop) (index : Index σ) :
    Preserves kind
      (fun (s : (σ × List (Entry × Except IndexError Bool)) × Std.HashMap String Bool) =>
        (∀ entry found, (entry, .ok found) ∈ s.1.2 → s.2[entry.path]? ≠ none) ∧ AsksOnce s.1.2)
      index.recorded.cached := by
  rintro entry ⟨⟨state, record⟩, cache⟩ - ⟨hknown, honce⟩
  cases hlookup : cache[entry.path]? with
  | some found =>
    rw [cached_of_some hlookup]
    exact ⟨hknown, honce⟩
  | none =>
    have hfailed : ∀ earlier ∈ record, earlier.1 = entry → ∃ cause, earlier.2 = .error cause := by
      rintro ⟨_, cause | found⟩ hmem rfl
      · exact ⟨cause, rfl⟩
      · exact absurd hlookup (hknown _ found hmem)
    rw [cached_of_none hlookup]
    constructor
    · intro other kept hmem
      rcases List.mem_append.1 hmem with hearlier | hnow
      · have hother := hknown other kept hearlier
        dsimp only [recorded]
        split
        · rw [Std.HashMap.getElem?_insert]
          split
          · exact Option.some_ne_none _
          · exact hother
        · exact hother
      · obtain ⟨rfl, hkept⟩ := Prod.mk.inj (List.mem_singleton.1 hnow)
        dsimp only [recorded]
        rw [← hkept, Std.HashMap.getElem?_insert_self]
        exact Option.some_ne_none kept
    · refine List.pairwise_append.2 ⟨honce, List.pairwise_singleton _ _, ?_⟩
      intro earlier hearlier later hlater
      obtain rfl := List.mem_singleton.1 hlater
      exact hfailed earlier hearlier

/-- The answers in a record are those of the index. -/
theorem preserves_recorded (kind : Entry → Prop) (index : Index σ)
    (answer : Entry → Except IndexError Bool) :
    Preserves kind
      (fun (s : (σ × List (Entry × Except IndexError Bool)) × Std.HashMap String Bool) =>
        index.Answers answer s.1.1 ∧ ∀ asked ∈ s.1.2, asked.2 = answer asked.1)
      index.recorded.cached := by
  rintro entry ⟨⟨state, record⟩, cache⟩ - ⟨hanswers, hrecord⟩
  cases hlookup : cache[entry.path]? with
  | some found =>
    rw [cached_of_some hlookup]
    exact ⟨hanswers, hrecord⟩
  | none =>
    rw [cached_of_none hlookup]
    refine ⟨hanswers.next entry, ?_⟩
    intro asked hasked
    obtain hearlier | hnow := List.mem_append.1 hasked
    · exact hrecord asked hearlier
    · obtain rfl := List.mem_singleton.1 hnow
      exact hanswers.apply entry

theorem asksOnce_nil : AsksOnce [] :=
  .nil

theorem AsksOnce.count_le_one {record : List (Entry × Except IndexError Bool)} {entry : Entry}
    {found : Bool} (h : AsksOnce record) (hanswers : ∀ asked ∈ record, asked.2 = answer asked.1)
    (hfound : answer entry = .ok found) : (record.map Prod.fst).count entry ≤ 1 := by
  induction record with
  | nil => simp
  | cons first later ih =>
    obtain ⟨hfirst, hlater⟩ := List.pairwise_cons.1 h
    obtain ⟨hanswer, hrest⟩ := List.forall_mem_cons.1 hanswers
    rw [List.map_cons, List.count_cons]
    by_cases hentry : first.1 = entry
    · have hnone : entry ∉ later.map Prod.fst := by
        intro hmem
        obtain ⟨again, hagain, heq⟩ := List.mem_map.1 hmem
        obtain ⟨cause, hcause⟩ := hfirst again hagain (hentry.trans heq.symm)
        rw [hanswer, hentry, hfound] at hcause
        cases hcause
      have hone : (later.map Prod.fst).count entry + (if first.1 == entry then 1 else 0) = 1 := by
        rw [List.count_eq_zero_of_not_mem hnone, if_pos (beq_iff_eq.2 hentry)]
      exact Nat.le_of_eq hone
    · rw [if_neg (by simpa using hentry)]
      exact ih hlater hrest

theorem Preserves.simulates {kind : Entry → Prop} {invariant : σ → Prop}
    (h : Preserves kind invariant index) :
    Simulates kind (fun state state' => state = state' ∧ invariant state) index index := by
  rintro entry state _ hkind ⟨rfl, hinvariant⟩
  exact ⟨rfl, rfl, h entry state hkind hinvariant⟩

end Index

namespace Finding

variable {σ τ : Type} {kind : Entry → Prop} {related : σ → τ → Prop} {index : Index σ}
  {other : Index τ} {findings : List Finding} {state : σ} {state' : τ}

theorem settle_cons_of_failure {finding : Finding} {entry : Entry} {cause : IndexError}
    (h : finding.question? = some entry) (hfailure : (index entry state).1 = .error cause) :
    settle index (finding :: findings) state = (.error cause, (index entry state).2) := by
  have hpair : index entry state = (.error cause, (index entry state).2) := Prod.ext hfailure rfl
  rw [settle, h]
  dsimp only
  rw [hpair]

/-- Indexes that answer the same settle findings the same way. -/
theorem settle_of_simulates (hindex : Index.Simulates kind related index other)
    (hkind : ∀ entry ∈ findings.filterMap question?, kind entry) (hstate : related state state') :
    (settle index findings state).1 = (settle other findings state').1 ∧
      related (settle index findings state).2 (settle other findings state').2 := by
  induction findings generalizing state state' with
  | nil => exact ⟨rfl, hstate⟩
  | cons finding findings ih =>
    cases hquestion : finding.question? with
    | none =>
      rw [List.filterMap_cons_none hquestion] at hkind
      obtain ⟨hanswers, hnext⟩ := ih hkind hstate
      rw [settle_cons_of_certain hquestion, settle_cons_of_certain hquestion, hanswers]
      exact ⟨rfl, hnext⟩
    | some entry =>
      rw [List.filterMap_cons_some hquestion] at hkind
      obtain ⟨hentry, hlater⟩ := List.forall_mem_cons.1 hkind
      obtain ⟨hanswer, hbetween⟩ := hindex entry state state' hentry hstate
      cases hfound : (index entry state).1 with
      | error cause =>
        rw [settle_cons_of_failure hquestion hfound,
          settle_cons_of_failure hquestion (hanswer.symm.trans hfound)]
        exact ⟨rfl, hbetween⟩
      | ok found =>
        obtain ⟨hanswers, hnext⟩ := ih hlater hbetween
        rw [settle_cons_of_answer hquestion hfound,
          settle_cons_of_answer hquestion (hanswer.symm.trans hfound), hanswers]
        exact ⟨rfl, hnext⟩

end Finding

end Typikon
