import Typikon.Proofs.Index.Caching

/-!
What a cache replies after any questions. It keeps the first answer under every path, and gives it
again to whatever entry has that path. So it replies as the index itself does as long as entries of
one path have one answer. Failures are not kept.
-/

namespace Typikon.Index

variable {σ : Type} {index : Index σ} {answer : Entry → Except IndexError Bool} {state : σ}
  {cache : Std.HashMap String Bool}

/-- What an index replies to questions that are put to it one after another. -/
def replies (index : Index σ) : List Entry → σ → List (Except IndexError Bool)
  | [], _ => []
  | entry :: entries, state =>
    (index entry state).1 :: replies index entries (index entry state).2

/-- What questions have made known of a path: the first answer for an entry that has it. -/
def known? (answer : Entry → Except IndexError Bool) (asked : List Entry) (path : String) :
    Option Bool :=
  asked.findSome? fun entry => if entry.path = path then (answer entry).toOption else none

/-! ### One question -/

section Step

variable (entry : Entry)

theorem fst_cached (h : index.Answers answer state) :
    (index.cached entry (state, cache)).1 = cache[entry.path]?.elim (answer entry) .ok := by
  cases hlookup : cache[entry.path]? with
  | some found => rw [cached_of_some hlookup, Option.elim_some]
  | none => rw [cached_of_none hlookup, h.apply entry, Option.elim_none]

/-- The index beneath a cache is asked what the cache does not know. -/
theorem fst_snd_cached :
    (index.cached entry (state, cache)).2.1 =
      if cache[entry.path]?.isSome then state else (index entry state).2 := by
  cases hlookup : cache[entry.path]? with
  | some found => rw [cached_of_some hlookup, Option.isSome_some, if_pos rfl]
  | none => simp [cached_of_none hlookup]

theorem getElem?_snd_snd_cached (h : index.Answers answer state) (path : String) :
    (index.cached entry (state, cache)).2.2[path]? =
      cache[path]?.or (if entry.path = path then (answer entry).toOption else none) := by
  cases hlookup : cache[entry.path]? with
  | some found =>
    rw [cached_of_some hlookup]
    split
    next hpath =>
      rw [← hpath, hlookup, Option.some_or]
    · rw [Option.or_none]
  | none =>
    rw [cached_of_none hlookup, h.apply entry]
    cases hanswer : answer entry with
    | error cause => simp [Except.toOption]
    | ok found =>
      rw [Std.HashMap.getElem?_insert]
      by_cases hpath : entry.path = path
      · simp [← hpath, hlookup, Except.toOption]
      · simp [hpath]

theorem Answers.cached (h : index.Answers answer state) :
    index.Answers answer (index.cached entry (state, cache)).2.1 := by
  rw [fst_snd_cached]
  split
  · exact h
  · exact h.next entry

end Step

/-! ### A history of questions -/

theorem Answers.after_cached (h : index.Answers answer state) (asked : List Entry) :
    index.Answers answer (index.cached.after (state, cache) asked).1 := by
  induction asked generalizing state cache with
  | nil => exact h
  | cons entry asked ih => exact ih (h.cached entry)

/-- After questions a cache holds what it held before, and otherwise what they have made known. -/
theorem getElem?_snd_after_cached (h : index.Answers answer state) (asked : List Entry)
    (path : String) :
    (index.cached.after (state, cache) asked).2[path]? =
      cache[path]?.or (known? answer asked path) := by
  induction asked generalizing state cache with
  | nil => simp [after, known?]
  | cons entry asked ih =>
    calc
      (index.cached.after (state, cache) (entry :: asked)).2[path]? =
          (index.cached entry (state, cache)).2.2[path]?.or (known? answer asked path) :=
        ih (h.cached entry)
      _ = cache[path]?.or (known? answer (entry :: asked) path) := by
        rw [getElem?_snd_snd_cached entry h, Option.or_assoc, known?, known?, List.findSome?_cons]
        cases (if entry.path = path then (answer entry).toOption else none) <;> rfl

/-- A cache suits an entry if what it holds under the path is the answer for that very entry. -/
def Suits (answer : Entry → Except IndexError Bool) (cache : Std.HashMap String Bool)
    (entry : Entry) : Prop :=
  ∀ found, cache[entry.path]? = some found → answer entry = .ok found

/-- What is answered for an entry is the answer for another one, if they have the same path. -/
def SpeaksFor (answer : Entry → Except IndexError Bool) (earlier later : Entry) : Prop :=
  earlier.path = later.path → ∀ found, answer earlier = .ok found → answer later = .ok found

theorem fst_cached_eq_iff (entry : Entry) (h : index.Answers answer state) :
    (index.cached entry (state, cache)).1 = answer entry ↔ Suits answer cache entry := by
  rw [fst_cached entry h, Suits]
  cases cache[entry.path]? <;> simp [eq_comm]

theorem suits_snd_snd_cached_iff {entry : Entry} (h : index.Answers answer state)
    (hentry : Suits answer cache entry) (later : Entry) :
    Suits answer (index.cached entry (state, cache)).2.2 later ↔
      Suits answer cache later ∧ SpeaksFor answer entry later := by
  rw [Suits, Suits, SpeaksFor, getElem?_snd_snd_cached entry h]
  by_cases hpath : entry.path = later.path
  · rw [Suits, hpath] at hentry
    cases hkept : cache[later.path]? with
    | some kept =>
      have hanswer := hentry kept hkept
      simp [hpath, hanswer]
    | none => cases answer entry <;> simp [hpath, Except.toOption]
  · simp [hpath]

/-- A cache replies what the index answers just if it suits all entries that are asked for, and the
answer for each of them is also that for the later ones of its path. -/
theorem replies_cached_eq_iff (h : index.Answers answer state) (entries : List Entry) :
    index.cached.replies entries (state, cache) = entries.map answer ↔
      (∀ entry ∈ entries, Suits answer cache entry) ∧ entries.Pairwise (SpeaksFor answer) := by
  induction entries generalizing state cache with
  | nil => simp [replies]
  | cons entry entries ih =>
    rw [replies, List.map_cons, List.cons.injEq, fst_cached_eq_iff entry h, ih (h.cached entry),
      List.forall_mem_cons, List.pairwise_cons, and_assoc]
    refine and_congr_right fun hentry => ?_
    simp only [suits_snd_snd_cached_iff h hentry, forall_and, and_assoc]

/-- A cache over an index whose answers depend on the entry alone, empty at first, replies to each
question with the first answer that was given under the path of the entry, and does not ask. If none
was given yet it asks the index for that entry and replies what it answers, failures included. So
all replies are the answers of the index just if no two of the entries that share a path have
different answers, as entries without slashes of their own cannot. -/
theorem replies_cached (h : index.Answers answer state) (entries : List Entry) :
    (∀ entry,
      let asked := index.cached.after (state, ∅) entries
      let known := known? answer entries entry.path
      (index.cached entry asked).1 = known.elim (answer entry) .ok ∧
        (index.cached entry asked).2.1 =
          if known.isSome then asked.1 else (index entry asked.1).2) ∧
    (index.cached.replies entries (state, ∅) = entries.map answer ↔
      entries.Pairwise fun earlier later => earlier.path = later.path →
        ∀ found, answer earlier = .ok found → answer later = .ok found) ∧
    ((∀ entry ∈ entries, entry.IsPlain) →
      index.cached.replies entries (state, ∅) = entries.map answer) := by
  have hreplies : index.cached.replies entries (state, ∅) = entries.map answer ↔
      entries.Pairwise (SpeaksFor answer) := by
    rw [replies_cached_eq_iff h]
    simp [Suits]
  refine ⟨fun entry => ?_, hreplies, fun hplain => ?_⟩
  · have hknown : (index.cached.after (state, ∅) entries).2[entry.path]? = _ :=
      getElem?_snd_after_cached h entries entry.path
    rw [Std.HashMap.getElem?_empty, Option.none_or] at hknown
    rw [← hknown]
    exact ⟨fst_cached entry (h.after_cached entries), fst_snd_cached entry⟩
  · refine hreplies.2 (List.pairwise_of_forall_mem_list ?_)
    intro earlier hearlier later hlater hpath found hfound
    obtain rfl := (hplain earlier hearlier).eq_of_path_eq (hplain later hlater) hpath
    exact hfound

/-- Answers of an index that has all entries of one topic, which has a slash, and that fails for the
empty topic. -/
def nestedTopic (entry : Entry) : Except IndexError Bool :=
  if entry.topic = "" then .error (.unavailable "no topic") else .ok (entry.topic = "a/b")

def ofNestedTopic : Index Unit
  | entry, state => (nestedTopic entry, state)

theorem answers_ofNestedTopic : ofNestedTopic.Answers nestedTopic () :=
  fun _ _ => rfl

/-- The second entry has the path of the first, and its reply is the answer for the first. -/
theorem not_replies_cached_sharedPath :
    ofNestedTopic.Answers nestedTopic () ∧
      ofNestedTopic.cached.replies [⟨"a/b", "c"⟩, ⟨"a", "b/c"⟩] ((), ∅) ≠
        [⟨"a/b", "c"⟩, ⟨"a", "b/c"⟩].map nestedTopic := by
  refine ⟨answers_ofNestedTopic, fun hreplies => ?_⟩
  obtain ⟨-, hspeaks⟩ := (replies_cached_eq_iff answers_ofNestedTopic _).1 hreplies
  obtain ⟨hfirst, -⟩ := List.pairwise_cons.1 hspeaks
  have hfound : nestedTopic ⟨"a", "b/c"⟩ = .ok true :=
    hfirst ⟨"a", "b/c"⟩ List.mem_cons_self rfl true rfl
  cases hfound

theorem replies_cached_sharedPath :
    ofNestedTopic.Answers nestedTopic () ∧
      (∀ asked, asked = ofNestedTopic.cached.after ((), ∅) [⟨"a/b", "c"⟩, ⟨"", "c"⟩] →
        (ofNestedTopic.cached ⟨"a", "b/c"⟩ asked).1 = .ok true ∧
          (ofNestedTopic.cached ⟨"", "c"⟩ asked).1 = .error (.unavailable "no topic")) ∧
      (∀ entry ∈ [⟨"a", "b"⟩, ⟨"", "c"⟩], Entry.IsPlain entry) ∧
      ofNestedTopic.cached.replies [⟨"a", "b"⟩, ⟨"", "c"⟩] ((), ∅) =
        [.ok false, .error (.unavailable "no topic")] := by
  obtain ⟨hlater, -, -⟩ := replies_cached answers_ofNestedTopic [⟨"a/b", "c"⟩, ⟨"", "c"⟩]
  obtain ⟨-, -, hreplies⟩ := replies_cached answers_ofNestedTopic [⟨"a", "b"⟩, ⟨"", "c"⟩]
  have hplain : ∀ entry ∈ [⟨"a", "b"⟩, ⟨"", "c"⟩], Entry.IsPlain entry := by
    rintro entry (_ | ⟨_, _ | ⟨_, ⟨⟩⟩⟩)
    · exact ⟨by decide, by decide⟩
    · exact ⟨by decide, by decide⟩
  refine ⟨answers_ofNestedTopic, ?_, hplain, hreplies hplain⟩
  rintro asked rfl
  exact ⟨(hlater ⟨"a", "b/c"⟩).1, (hlater ⟨"", "c"⟩).1⟩

end Typikon.Index
