import Typikon.Diagnostic

/-!
The order in which diagnostics are told: that of their locations, and at one location the order of
their discovery. Syntax errors are discovered before all else, so at one location they come first.
-/

namespace Typikon

namespace Location

theorem le_refl (a : Location) : a.le a = true := by
  simp [le]

theorem le_total (a b : Location) : (a.le b || b.le a) = true := by
  simp only [le, Bool.or_eq_true, Bool.and_eq_true, decide_eq_true_eq, beq_iff_eq]
  omega

theorem le_trans {a b c : Location} (hab : a.le b = true) (hbc : b.le c = true) :
    a.le c = true := by
  simp only [le, Bool.or_eq_true, Bool.and_eq_true, decide_eq_true_eq, beq_iff_eq] at *
  omega

end Location

namespace Diagnostic

/-- A list has the diagnostics of another in the order of their locations, and those at one location
as the other has them. -/
structure IsStableSort (sorted ds : List Diagnostic) : Prop where
  perm : sorted.Perm ds
  ordered : sorted.Pairwise fun a b => a.location.le b.location = true
  stable : ∀ loc, sorted.filter (·.location = loc) = ds.filter (·.location = loc)

theorem location_le_trans (a b c : Diagnostic) (hab : a.location.le b.location = true)
    (hbc : b.location.le c.location = true) : a.location.le c.location = true :=
  Location.le_trans hab hbc

theorem location_le_total (a b : Diagnostic) :
    (a.location.le b.location || b.location.le a.location) = true :=
  Location.le_total a.location b.location

theorem filter_location_sublist_sort (ds : List Diagnostic) (loc : Location) :
    (ds.filter (·.location = loc)).Sublist (sort ds) := by
  refine List.sublist_mergeSort location_le_trans location_le_total ?_ List.filter_sublist
  have hsame : ∀ a ∈ ds.filter (·.location = loc), a.location = loc := by
    intro a ha
    simpa using (List.mem_filter.1 ha).2
  refine List.pairwise_of_forall_mem_list ?_
  intro a ha b hb
  rw [hsame a ha, hsame b hb]
  exact Location.le_refl loc

theorem isStableSort_sort (ds : List Diagnostic) : IsStableSort (sort ds) ds where
  perm := List.mergeSort_perm ds _
  ordered := List.pairwise_mergeSort location_le_trans location_le_total ds
  stable := by
    intro loc
    have hsublist :
        (ds.filter (·.location = loc)).Sublist ((sort ds).filter (·.location = loc)) := by
      simpa using (filter_location_sublist_sort ds loc).filter (·.location = loc)
    have hlength : (ds.filter (·.location = loc)).length =
        ((sort ds).filter (·.location = loc)).length :=
      ((List.mergeSort_perm ds _).filter _).length_eq.symm
    exact (hsublist.eq_of_length hlength).symm

namespace IsStableSort

variable {sorted ds : List Diagnostic}

theorem sublist_of_location_eq (h : IsStableSort sorted ds) {a b : Diagnostic}
    (hab : [a, b].Sublist sorted) (hloc : a.location = b.location) : [a, b].Sublist ds := by
  have hkept : [a, b].filter (·.location = b.location) = [a, b] := by simp [hloc]
  have hfiltered := hab.filter (·.location = b.location)
  rw [hkept, h.stable] at hfiltered
  exact hfiltered.trans List.filter_sublist

/-- If all syntax errors were found first, they come first at each location. -/
theorem syntactic_first {first second : List Diagnostic} (h : IsStableSort sorted (first ++ second))
    (hfirst : ∀ d ∈ first, d.kind = .syntactic) (hsecond : ∀ d ∈ second, d.kind = .semantic) :
    sorted.Pairwise fun a b =>
      a.location = b.location → b.kind = .syntactic → a.kind = .syntactic := by
  have hfound :
      (first ++ second).Pairwise fun a b => b.kind = .syntactic → a.kind = .syntactic := by
    refine List.pairwise_append.2 ⟨?_, ?_, ?_⟩
    · exact List.pairwise_of_forall_mem_list fun a ha _ _ _ => hfirst a ha
    · refine List.pairwise_of_forall_mem_list fun a _ b hb hsyntactic => ?_
      simp [hsecond b hb] at hsyntactic
    · exact fun a ha _ _ _ => hfirst a ha
  refine List.pairwise_iff_forall_sublist.2 ?_
  intro a b hab hloc
  exact List.pairwise_iff_forall_sublist.1 hfound (h.sublist_of_location_eq hab hloc)

end IsStableSort

/-- A diagnostic that is found first is told before all others that are not above it. -/
theorem sort_cons (d : Diagnostic) (ds : List Diagnostic) :
    sort (d :: ds) =
      (sort ds).filter (fun e => !d.location.le e.location) ++
        d :: (sort ds).filter (fun e => d.location.le e.location) := by
  obtain ⟨above, below, hcons, hsort, habove⟩ :=
    List.mergeSort_cons location_le_trans location_le_total d ds
  have hordered := List.pairwise_mergeSort location_le_trans location_le_total (d :: ds)
  rw [hcons] at hordered
  have hbelow : ∀ e ∈ below, d.location.le e.location = true :=
    (List.pairwise_cons.1 (List.pairwise_append.1 hordered).2.1).1
  have hnotAbove : above.filter (fun e => d.location.le e.location) = [] :=
    List.filter_eq_nil_iff.2 fun e he => by simpa using habove e he
  have hnotBelow : below.filter (fun e => !d.location.le e.location) = [] :=
    List.filter_eq_nil_iff.2 fun e he => by simpa using hbelow e he
  unfold sort
  rw [hcons, hsort, List.filter_append, List.filter_append, List.filter_eq_self.2 habove,
    List.filter_eq_self.2 hbelow, hnotAbove, hnotBelow, List.append_nil, List.nil_append]

/-- Diagnostics that are some of others are told in the same order among them. -/
theorem sort_sublist {ds ds' : List Diagnostic} (h : ds.Sublist ds') :
    (sort ds).Sublist (sort ds') := by
  induction h with
  | slnil => exact List.Sublist.refl _
  | cons d _ ih =>
    obtain ⟨above, below, hcons, hsort, -⟩ :=
      List.mergeSort_cons location_le_trans location_le_total d _
    refine ih.trans ?_
    unfold sort
    rw [hcons, hsort]
    exact (List.Sublist.refl above).append (List.sublist_cons_self d below)
  | cons_cons d _ ih =>
    rw [sort_cons, sort_cons]
    exact (ih.filter _).append ((ih.filter _).cons_cons d)

theorem tellAll_sublist {ds ds' : List Diagnostic} (id : String) (h : ds.Sublist ds') :
    (tellAll id ds).Sublist (tellAll id ds') :=
  (sort_sublist h).map (tell id)

theorem tellAll_perm (id : String) (ds : List Diagnostic) :
    (tellAll id ds).Perm (ds.map (tell id)) :=
  (isStableSort_sort ds).perm.map (tell id)

theorem tellAll_perm_append {ds fewer extra : List Diagnostic} (id : String)
    (h : ds.Perm (fewer ++ extra)) :
    (tellAll id ds).Perm (tellAll id fewer ++ extra.map (tell id)) := by
  calc
    (tellAll id ds).Perm (ds.map (tell id)) := tellAll_perm id ds
    List.Perm _ (fewer.map (tell id) ++ extra.map (tell id)) := by
      rw [← List.map_append]
      exact h.map (tell id)
    List.Perm _ (tellAll id fewer ++ extra.map (tell id)) :=
      (tellAll_perm id fewer).symm.append_right _

theorem tellAll_eq_nil_iff {id : String} {ds : List Diagnostic} : tellAll id ds = [] ↔ ds = [] := by
  rw [tellAll, ← List.length_eq_zero_iff, List.length_map, (isStableSort_sort ds).perm.length_eq,
    List.length_eq_zero_iff]

theorem templateId_of_mem_tellAll {id : String} {ds : List Diagnostic} {e : TemplateError}
    (h : e ∈ tellAll id ds) : e.templateId = id := by
  obtain ⟨d, -, rfl⟩ := List.mem_map.1 h
  rfl

end Diagnostic

end Typikon
