import Typikon.Index.Entry

/-!
The paths of entries. A path is that of an entry just if it has exactly one slash, whatever else is
in it. The topic is what stands before the slash, and the key what stands after it.
-/

namespace Typikon.Entry

/-- What the first slash of a text divides. Without a slash all of it is the topic. -/
def divide (path : String) : Entry where
  topic := .ofList (path.toList.takeWhile (· ≠ '/'))
  key := .ofList ((path.toList.dropWhile (· ≠ '/')).drop 1)

theorem divide_of_toList_eq {path : String} {topic key : List Char} (htopic : '/' ∉ topic)
    (h : path.toList = topic ++ '/' :: key) : divide path = ⟨.ofList topic, .ofList key⟩ := by
  have hother : ∀ c ∈ topic, decide (c ≠ '/') = true := by
    intro c hc
    simpa using fun hslash : c = '/' => htopic (hslash ▸ hc)
  rw [divide, h, List.takeWhile_append_of_pos hother, List.dropWhile_append_of_pos hother]
  simp

theorem ofPath_of_not_mem {path : String} (h : '/' ∉ path.toList) :
    ofPath path = .error (.noSlash path) := by
  rw [ofPath, List.splitOn_eq_singleton h]

theorem ofPath_of_toList_eq {path : String} {topic key : List Char} (htopic : '/' ∉ topic)
    (hkey : '/' ∉ key) (h : path.toList = topic ++ '/' :: key) :
    ofPath path = .ok ⟨.ofList topic, .ofList key⟩ := by
  rw [ofPath, h, List.splitOn_append_cons_self_of_not_mem htopic, List.splitOn_eq_singleton hkey]

theorem ofPath_of_two_slashes {path : String} {first second rest : List Char} (hfirst : '/' ∉ first)
    (hsecond : '/' ∉ second) (h : path.toList = first ++ '/' :: (second ++ '/' :: rest)) :
    ofPath path = .error (.manySlashes path) := by
  obtain ⟨part, parts, hparts⟩ := List.exists_cons_of_ne_nil (List.splitOn_ne_nil '/' rest)
  rw [ofPath, h, List.splitOn_append_cons_self_of_not_mem hfirst,
    List.splitOn_append_cons_self_of_not_mem hsecond, hparts]

/-- A path with exactly one slash is that of the entry which the slash divides, and no other path is
that of an entry. -/
theorem ofPath_eq_ok_iff {path : String} {e : Entry} :
    ofPath path = .ok e ↔ path.toList.count '/' = 1 ∧ e = divide path := by
  by_cases hslash : '/' ∈ path.toList
  · obtain ⟨topic, key, hpath, htopic⟩ := List.eq_append_cons_of_mem hslash
    rw [divide_of_toList_eq htopic hpath, hpath, List.count_append, List.count_cons_self,
      List.count_eq_zero_of_not_mem htopic]
    by_cases hmore : '/' ∈ key
    · obtain ⟨second, rest, rfl, hsecond⟩ := List.eq_append_cons_of_mem hmore
      rw [ofPath_of_two_slashes htopic hsecond hpath, List.count_append, List.count_cons_self]
      constructor
      · intro h
        cases h
      · rintro ⟨hcount, -⟩
        omega
    · rw [ofPath_of_toList_eq htopic hmore hpath, List.count_eq_zero_of_not_mem hmore]
      simp [eq_comm]
  · rw [ofPath_of_not_mem hslash, List.count_eq_zero_of_not_mem hslash]
    simp

/-- A path with a slash that is not that of an entry has another. -/
theorem ofPath_of_count_ne_one {path : String} (hslash : '/' ∈ path.toList)
    (hcount : path.toList.count '/' ≠ 1) : ofPath path = .error (.manySlashes path) := by
  obtain ⟨topic, key, hpath, htopic⟩ := List.eq_append_cons_of_mem hslash
  have hmore : '/' ∈ key := by
    rw [hpath, List.count_append, List.count_cons_self, List.count_eq_zero_of_not_mem htopic]
      at hcount
    exact List.count_pos_iff.1 (by omega)
  obtain ⟨second, rest, rfl, hsecond⟩ := List.eq_append_cons_of_mem hmore
  exact ofPath_of_two_slashes htopic hsecond hpath

/-- An entry without slashes of its own. -/
structure IsPlain (e : Entry) : Prop where
  topic : '/' ∉ e.topic.toList
  key : '/' ∉ e.key.toList

theorem toList_path (e : Entry) : e.path.toList = e.topic.toList ++ '/' :: e.key.toList := by
  simp [path]

theorem IsPlain.ofPath_path {e : Entry} (h : e.IsPlain) : ofPath e.path = .ok e := by
  rw [ofPath_of_toList_eq h.topic h.key e.toList_path, String.ofList_toList, String.ofList_toList]

theorem IsPlain.count_path {e : Entry} (h : e.IsPlain) : e.path.toList.count '/' = 1 :=
  (ofPath_eq_ok_iff.1 h.ofPath_path).1

/-- Entries without slashes of their own can be told by their paths. Others cannot: the path of
`a/b` and `c` is that of `a` and `b/c`. -/
theorem IsPlain.eq_of_path_eq {e e' : Entry} (h : e.IsPlain) (h' : e'.IsPlain)
    (hpath : e.path = e'.path) : e = e' := by
  have hread : ofPath e.path = .ok e' := by rw [hpath, h'.ofPath_path]
  exact Except.ok.inj (h.ofPath_path.symm.trans hread)

theorem isPlain_divide {path : String} (h : path.toList.count '/' = 1) : (divide path).IsPlain := by
  have hslash : '/' ∈ path.toList := List.count_pos_iff.1 (by omega)
  obtain ⟨topic, key, hpath, htopic⟩ := List.eq_append_cons_of_mem hslash
  rw [hpath, List.count_append, List.count_cons_self, List.count_eq_zero_of_not_mem htopic] at h
  have hkey : '/' ∉ key := List.count_eq_zero.1 (by omega)
  rw [divide_of_toList_eq htopic hpath]
  constructor <;> simpa

end Typikon.Entry
