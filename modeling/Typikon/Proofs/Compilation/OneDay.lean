import Typikon.Proofs.Compilation.Questions
import Typikon.Proofs.Draft.DateState
import Typikon.Proofs.Draft.References

/-!
The days that a compiled text speaks of. The dates in its headers and footers are all that of its
liturgical day. Its relative references are resolved as they are met, so each is for the day that is
in force where its leaf stands; that is the day of the document unless the date is set after it.
-/

namespace Typikon

namespace Compilation

variable {σ : Type} {index : Index σ} {state : σ} {name text : String} {defaults : Defaults}
  {c : Compilation}

theorem document_of_ofText_eq_ok (h : (ofText index name defaults text state).1 = .ok c) :
    ∃ d, Draft.start name defaults.calendar defaults.date = .ok d ∧
      c.document = (d.nodes (Template.ofText text).items).finish.document := by
  rw [ofText_apply] at h
  cases hstart : Draft.start name defaults.calendar defaults.date with
  | error cause =>
    rw [walk, discover, hstart] at h
    cases h
  | ok d =>
    rw [walk_apply hstart] at h
    cases hsettle : (Finding.settle index (d.nodes (Template.ofText text).items).finish.findings
        state).1 with
    | error e =>
      rw [hsettle] at h
      cases h
    | ok diagnostics =>
      rw [hsettle] at h
      cases h
      exact ⟨d, rfl, rfl⟩

theorem refersOnly_start {d : Draft}
    (hstart : Draft.start name defaults.calendar defaults.date = .ok d) (p : Reference → Prop) :
    d.RefersOnly p := by
  obtain ⟨day, -, rfl⟩ := Draft.eq_of_start_eq_ok hstart
  exact ⟨nofun, nofun, nofun, by simp, nofun, nofun⟩

/-- The relative references of a finished draft are those of leaves. -/
theorem exists_leaf_of_relative {d : Draft}
    (hstart : Draft.start name defaults.calendar defaults.date = .ok d) {items : List Node}
    {path resolved : String} {mode day : Option Nat}
    (h : .relative path resolved mode day ∈ (d.nodes items).finish.document.allReferences) :
    ∃ leaf ∈ d.dating.leaves (Node.preorderOfAll items),
      leaf.resolution.reference = .relative path resolved mode day := by
  let ofLeaf (r : Reference) : Prop :=
    ∀ path resolved mode day, r = .relative path resolved mode day →
      ∃ leaf ∈ d.dating.leaves (Node.preorderOfAll items), leaf.resolution.reference = r
  have hversion : ofLeaf Paragraph.versionReference := nofun
  have hevents : (d.events (Node.eventsOfAll items)).RefersOnly ofLeaf := by
    refine (refersOnly_start hstart ofLeaf).events hversion ?_
    rw [Node.filterMap_entered?_eventsOfAll]
    exact fun leaf hleaf _ _ _ _ _ => ⟨leaf, hleaf, rfl⟩
  rw [← Draft.events_eventsOfAll] at h
  exact (hevents.finish hversion).document _ h path resolved mode day rfl

/-- A text that compiles has one day that its headers and footers tell. Each of its relative
references is that of a leaf, for the day in force where the leaf stands: if nothing is wrong with
the leaf, it is resolved to the topic of that day. The day is that of the document unless a property
that sets the date follows. -/
theorem dates_and_references_of_day (h : (ofText index name defaults text state).1 = .ok c) :
    ∃ first, LiturgicalDay.ofDate defaults.calendar defaults.date = .ok first ∧
      let initial := Dating.initial defaults.calendar defaults.date first
      let heads := Node.preorderOfAll (Template.ofText text).items
      c.document.liturgicalDay = (initial.afterHeads heads).day ∧
      (∀ style date, .date style date ∈ c.document.pdf.layout.insertions →
        date = some c.document.liturgicalDay.date) ∧
      ∀ path resolved mode day, .relative path resolved mode day ∈ c.document.allReferences →
        ∃ before loc overrides after,
          heads = before ++ (loc, .atom (.content (.relative path overrides))) :: after ∧
          let there := (initial.afterHeads before).day
          (Resolution.ofContent there (.relative path overrides)).reference =
            .relative path resolved mode day ∧
          ((Resolution.ofContent there (.relative path overrides)).problems = [] →
            path.toList.count '/' = 1 ∧
            mode = Override.effective? overrides .mode 8 ∧
            day = Override.effective? overrides .day 7 ∧
            resolved = there.topic (Entry.divide path).topic mode day ++ "/" ++
              (Entry.divide path).key) ∧
          ((∀ head ∈ after, ¬head.2.SetsDate) → there = c.document.liturgicalDay) := by
  obtain ⟨d, hstart, hdocument⟩ := document_of_ofText_eq_ok h
  obtain ⟨first, hfirst, -⟩ := Draft.eq_of_start_eq_ok hstart
  have hdating := dating_start hfirst hstart
  rw [← Draft.events_eventsOfAll] at hdocument
  have hday : c.document.liturgicalDay =
      ((Dating.initial defaults.calendar defaults.date first).afterHeads
        (Node.preorderOfAll (Template.ofText text).items)).day := by
    rw [← hdating, ← Node.filterMap_entered?_eventsOfAll, ← Draft.dating_events, hdocument]
    exact congrArg DateState.liturgicalDay (Draft.dateState_finish _)
  refine ⟨first, hfirst, hday, ?_, ?_⟩
  · intro style date hdate
    rw [hdocument, Draft.layout_finish] at hdate
    rw [hdocument]
    exact PageLayout.eq_of_date_mem_insertions_withDate hdate
  · intro path resolved mode day hreference
    rw [hdocument, Draft.events_eventsOfAll] at hreference
    obtain ⟨⟨loc, there, content⟩, hleaf, hresolution⟩ := exists_leaf_of_relative hstart hreference
    obtain ⟨overrides, rfl⟩ := Resolution.exists_eq_of_reference_relative hresolution
    rw [hdating] at hleaf
    obtain ⟨before, after, hheads, rfl⟩ := Dating.exists_eq_append_of_mem_leaves hleaf
    refine ⟨before, loc, overrides, after, hheads, hresolution, ?_, ?_⟩
    · intro hproblems
      obtain ⟨hcount, hresolved⟩ := Resolution.reference_of_problems_eq_nil hproblems
      cases hresolved.symm.trans hresolution
      exact ⟨hcount, rfl, rfl, rfl⟩
    · intro hafter
      rw [hday, hheads, Dating.afterHeads_append, Dating.afterHeads_cons,
        Dating.afterHeads_of_forall_not_setsDate _ hafter]
      rfl

/-- A text that names its day, 21 March 2020, after its paragraph. -/
def belatedText : String :=
  "\x7b p.hymn rid \"oc.*/k\" \x7d\nMonth = 3\nDay = 21"

theorem exists_ofText_belatedText :
    ∃ c, (ofText Index.full "t" ⟨.gregorian, ⟨737425⟩⟩ belatedText ()).1 = .ok c ∧
      c.errors = [] ∧
      c.document.allReferences = [.relative "oc.*/k" "oc.m3.d4/k" none none] ∧
      c.document.liturgicalDay.topic (Entry.divide "oc.*/k").topic none none ++ "/" ++
        (Entry.divide "oc.*/k").key = "oc.m6.d7/k" := by
  have hcompiled : (ofText Index.full "t" ⟨.gregorian, ⟨737425⟩⟩ belatedText ()).1.toOption.map
      (fun c => (c.errors, c.document.allReferences,
        c.document.liturgicalDay.topic (Entry.divide "oc.*/k").topic none none ++ "/" ++
          (Entry.divide "oc.*/k").key)) =
      some ([], [.relative "oc.*/k" "oc.m3.d4/k" none none], "oc.m6.d7/k") := by
    decide +kernel
  obtain ⟨c, hc, hshown⟩ := Option.map_eq_some_iff.1 hcompiled
  obtain ⟨herrors, hreferences, htopic⟩ := by simpa only [Prod.mk.injEq] using hshown
  refine ⟨c, ?_, herrors, hreferences, htopic⟩
  cases hanswer : (ofText Index.full "t" ⟨.gregorian, ⟨737425⟩⟩ belatedText ()).1 with
  | error e =>
    rw [hanswer] at hc
    cases hc
  | ok c' =>
    rw [hanswer] at hc
    cases hc
    rfl

theorem dates_and_references_of_day_belated :
    ∃ c first before loc overrides after,
      (ofText Index.full "t" ⟨.gregorian, ⟨737425⟩⟩ belatedText ()).1 = .ok c ∧
      LiturgicalDay.ofDate .gregorian ⟨737425⟩ = .ok first ∧
      Node.preorderOfAll (Template.ofText belatedText).items =
        before ++ (loc, .atom (.content (.relative "oc.*/k" overrides))) :: after ∧
      (Resolution.ofContent ((Dating.initial .gregorian ⟨737425⟩ first).afterHeads before).day
        (.relative "oc.*/k" overrides)).reference = .relative "oc.*/k" "oc.m3.d4/k" none none := by
  obtain ⟨c, hcompiled, -, hreferences, -⟩ := exists_ofText_belatedText
  obtain ⟨first, hfirst, -, -, hrelative⟩ := dates_and_references_of_day hcompiled
  have hmem : .relative "oc.*/k" "oc.m3.d4/k" none none ∈ c.document.allReferences := by
    rw [hreferences]
    exact List.mem_cons_self
  obtain ⟨before, loc, overrides, after, hheads, hreference, -⟩ := hrelative _ _ _ _ hmem
  exact ⟨c, first, before, loc, overrides, after, hcompiled, hfirst, hheads, hreference⟩

/-- The reference is for the day before the text names its own, and no error tells of it. -/
theorem not_resolved_for_day_of_document :
    ∃ c, (ofText Index.full "t" ⟨.gregorian, ⟨737425⟩⟩ belatedText ()).1 = .ok c ∧
      c.errors = [] ∧
      ¬∀ path resolved mode day, .relative path resolved mode day ∈ c.document.allReferences →
        resolved = c.document.liturgicalDay.topic (Entry.divide path).topic mode day ++ "/" ++
          (Entry.divide path).key := by
  obtain ⟨c, hcompiled, herrors, hreferences, htopic⟩ := exists_ofText_belatedText
  refine ⟨c, hcompiled, herrors, ?_⟩
  intro hresolved
  have hmem : .relative "oc.*/k" "oc.m3.d4/k" none none ∈ c.document.allReferences := by
    rw [hreferences]
    exact List.mem_cons_self
  have hday := hresolved _ _ _ _ hmem
  rw [htopic] at hday
  exact absurd hday (by decide)

end Compilation

end Typikon
