import Typikon.Proofs.Compilation.Questions
import Typikon.Proofs.Index.Comparing

/-!
What an index decides. Between indexes that answer whatever they are asked, the document is the
same, and so are all errors but those of leaves whose entry one of them lacks.
-/

namespace Typikon

namespace Leaf

/-- The diagnostic of a leaf whose entry is missing. -/
def missing (l : Leaf) (entry : Entry) : Diagnostic :=
  ⟨.semantic, l.location, (ReferenceProblem.missingEntry entry).message⟩

end Leaf

namespace Finding

theorem exists_asks?_of_isSome_question? {finding : Finding} (h : finding.question?.isSome) :
    ∃ loc entry, finding.asks? = some (loc, entry) ∧
      finding.diagnostic = ⟨.semantic, loc, (ReferenceProblem.missingEntry entry).message⟩ := by
  cases finding with
  | unlessFound loc entry => exact ⟨loc, entry, rfl, rfl⟩
  | told _ => cases h
  | certain _ _ => cases h

end Finding

namespace Compilation

variable {σ τ : Type} {name text : String} {defaults : Defaults} {day : LiturgicalDay} {d : Draft}

theorem ofText_of_settle_eq_ok {index : Index σ} {state : σ} {diagnostics : List Diagnostic}
    (hstart : Draft.start name defaults.calendar defaults.date = .ok d)
    (hsettle :
      (Finding.settle index (d.nodes (Template.ofText text).items).finish.findings state).1 =
        .ok diagnostics) :
    (ofText index name defaults text state).1 =
      .ok (Discovery.compilation ⟨(d.nodes (Template.ofText text).items).finish.document,
        (Template.ofText text).errors.map SyntaxError.diagnostic ++ diagnostics⟩) := by
  obtain ⟨-, -, htext⟩ := compiles_of_settle hstart (Prod.ext hsettle rfl) rfl []
  rw [htext]
  rfl

/-- A question of the finished draft is that of a leaf. -/
theorem exists_leaf_of_question
    (hday : LiturgicalDay.ofDate defaults.calendar defaults.date = .ok day)
    (hstart : Draft.start name defaults.calendar defaults.date = .ok d) {t : Template}
    {finding : Finding} (hfinding : finding ∈ (d.nodes t.items).finish.findings)
    (hquestion : finding.question?.isSome) :
    ∃ leaf ∈ t.leaves (.initial defaults.calendar defaults.date day),
      ∃ entry, leaf.content.wanted? leaf.day = some entry ∧
        finding.diagnostic = leaf.missing entry := by
  obtain ⟨loc, entry, hasks, hdiagnostic⟩ := Finding.exists_asks?_of_isSome_question? hquestion
  have hmem : (loc, entry) ∈ (d.nodes t.items).finish.questions :=
    List.mem_filterMap.2 ⟨finding, hfinding, hasks⟩
  rw [questions_finish_nodes hday hstart] at hmem
  obtain ⟨leaf, hleaf, hasked⟩ := List.mem_filterMap.1 hmem
  obtain ⟨_, hentry, hpair⟩ := Option.map_eq_some_iff.1 hasked
  cases hpair
  exact ⟨leaf, hleaf, entry, hentry, hdiagnostic⟩

/-- Errors of a text under an index and under a wider one. -/
theorem exists_ofText_sublist {index : Index σ} {state : σ} {wider : Index τ} {state' : τ}
    (hday : LiturgicalDay.ofDate defaults.calendar defaults.date = .ok day)
    (hindex : index.NeverFails state) (hwider : wider.NeverFails state')
    (hwithin : index.Within state wider state') (name text : String) :
    ∃ c c', (ofText index name defaults text state).1 = .ok c ∧
      (ofText wider name defaults text state').1 = .ok c' ∧ c'.errors.Sublist c.errors ∧
      ∃ extra, c.errors.Perm (c'.errors ++ extra) ∧
        ∀ e ∈ extra,
          ∃ leaf ∈ (Template.ofText text).leaves (.initial defaults.calendar defaults.date day),
          ∃ entry, leaf.content.wanted? leaf.day = some entry ∧
            e = (leaf.missing entry).tell c.document.id := by
  obtain ⟨d, hstart, -⟩ := Draft.exists_start_eq_ok hday name
  let finished := (d.nodes (Template.ofText text).items).finish
  let syntactic := (Template.ofText text).errors.map SyntaxError.diagnostic
  obtain ⟨diagnostics, fewer, extra, hsettle, hsettle', hsublist, hperm, hextra⟩ :=
    Finding.exists_settle_sublist finished.findings hindex hwider hwithin
  refine ⟨_, _, ofText_of_settle_eq_ok hstart hsettle, ofText_of_settle_eq_ok hstart hsettle',
    Diagnostic.tellAll_sublist _ (hsublist.append_left syntactic),
    extra.map (Diagnostic.tell finished.document.id), ?_, ?_⟩
  · refine Diagnostic.tellAll_perm_append finished.document.id ?_
    rw [List.append_assoc]
    exact hperm.append_left syntactic
  · intro e he
    obtain ⟨diagnostic, hdiagnostic, rfl⟩ := List.mem_map.1 he
    obtain ⟨finding, hfinding, rfl⟩ := List.mem_map.1 (hextra.subset hdiagnostic)
    obtain ⟨hmem, hquestion⟩ := List.mem_filter.1 hfinding
    obtain ⟨leaf, hleaf, entry, hentry, hmissing⟩ :=
      exists_leaf_of_question hday hstart hmem hquestion
    rw [hmissing]
    exact ⟨leaf, hleaf, entry, hentry, rfl⟩

theorem map_document_map_compilation {ε : Type} (x : Except ε Discovery) :
    (x.map Discovery.compilation).map Compilation.document = x.map Discovery.document := by
  cases x <;> rfl

theorem ofText_eq_map_streamText (index : Index σ) (name : String) (defaults : Defaults)
    (text : String) (state : σ) :
    (ofText index name defaults text state).1 =
      (streamText index name defaults text state).1.map Discovery.compilation := by
  rw [ofText_eq, Asking.map_apply]

/-- Though the questions are asked on the way, the document is the one that the draft comes to
without them. -/
theorem exists_streamText_eq_ok {index : Index σ} {state : σ} (hindex : index.NeverFails state)
    (hstart : Draft.start name defaults.calendar defaults.date = .ok d) (text : String) :
    ∃ found, (streamText index name defaults text state).1 = .ok found ∧
      found.document = (d.nodes (Template.ofText text).items).finish.document := by
  obtain ⟨diagnostics, hsettle⟩ := Finding.exists_settle_eq_ok
    (d.nodes (Template.ofText text).items).finish.findings hindex
  refine ⟨.precededBy ((Template.ofText text).errors.map SyntaxError.diagnostic)
    ⟨_, diagnostics⟩, ?_, rfl⟩
  rw [streamText_eq_walk, Asking.map_apply, walk_apply hstart, hsettle]
  rfl

/-- Under indexes that answer whatever they are asked, a text compiles to the same document, also
where each answer is known before the next event is taken. An index that has what another one has
leaves some of the errors that the other one leaves, in their order. The index that has every entry
thus leaves the least; all other errors under an index tell of the missing entry of a leaf. -/
theorem document_eq_and_errors_sublist (name : String) (defaults : Defaults) (text : String)
    {index : Index σ} {state : σ} {other : Index τ} {state' : τ}
    (hindex : index.NeverFails state) (hother : other.NeverFails state') :
    (streamText index name defaults text state).1.map Discovery.document =
      (streamText other name defaults text state').1.map Discovery.document ∧
    (ofText index name defaults text state).1.map Compilation.document =
      (ofText other name defaults text state').1.map Compilation.document ∧
    ∀ day, LiturgicalDay.ofDate defaults.calendar defaults.date = .ok day →
      ∃ c c' least, (ofText index name defaults text state).1 = .ok c ∧
        (ofText other name defaults text state').1 = .ok c' ∧
        (ofText Index.full name defaults text ()).1 = .ok least ∧
        (streamText index name defaults text state).1.map Discovery.compilation = .ok c ∧
        (streamText other name defaults text state').1.map Discovery.compilation = .ok c' ∧
        (streamText Index.full name defaults text ()).1.map Discovery.compilation = .ok least ∧
        (index.Within state other state' → c'.errors.Sublist c.errors) ∧
        least.errors.Sublist c.errors ∧
        ∃ extra, c.errors.Perm (least.errors ++ extra) ∧
          ∀ e ∈ extra,
            ∃ leaf ∈ (Template.ofText text).leaves (.initial defaults.calendar defaults.date day),
            ∃ entry, leaf.content.wanted? leaf.day = some entry ∧
              e = (leaf.missing entry).tell c.document.id := by
  have hdocument : (streamText index name defaults text state).1.map Discovery.document =
      (streamText other name defaults text state').1.map Discovery.document := by
    cases hstart : Draft.start name defaults.calendar defaults.date with
    | error cause =>
      simp only [streamText, discover, hstart]
      rfl
    | ok d =>
      obtain ⟨found, hfound, hdocument⟩ := exists_streamText_eq_ok hindex hstart text
      obtain ⟨found', hfound', hdocument'⟩ := exists_streamText_eq_ok hother hstart text
      rw [hfound, hfound']
      exact congrArg Except.ok (hdocument.trans hdocument'.symm)
  refine ⟨hdocument, ?_, ?_⟩
  · rw [ofText_eq_map_streamText, ofText_eq_map_streamText, map_document_map_compilation,
      map_document_map_compilation, hdocument]
  · intro day hday
    obtain ⟨c, least, hc, hleast, hsublist, hextra⟩ := exists_ofText_sublist hday hindex
      (Index.neverFails_full ()) (Index.within_full index state) name text
    obtain ⟨c', -, hc', -⟩ := exists_ofText_sublist hday hother
      (Index.neverFails_full ()) (Index.within_full other state') name text
    refine ⟨c, c', least, hc, hc', hleast, (ofText_eq_map_streamText ..).symm.trans hc,
      (ofText_eq_map_streamText ..).symm.trans hc', (ofText_eq_map_streamText ..).symm.trans hleast,
      ?_, hsublist, hextra⟩
    intro hwithin
    obtain ⟨_, _, hsame, hsame', hfewer, -⟩ :=
      exists_ofText_sublist hday hindex hother hwithin name text
    cases hsame.symm.trans hc
    cases hsame'.symm.trans hc'
    exact hfewer

theorem document_eq_and_errors_sublist_oops :
    EntrySet.index.NeverFails .empty ∧ EntrySet.index.NeverFails (.ofPaths ["me/first"]) ∧
      EntrySet.index.Within .empty EntrySet.index (.ofPaths ["me/first"]) ∧
      ∃ c c', (ofText EntrySet.index "t" ⟨.gregorian, ⟨737425⟩⟩ oopsText .empty).1 = .ok c ∧
        (ofText EntrySet.index "t" ⟨.gregorian, ⟨737425⟩⟩ oopsText
          (.ofPaths ["me/first"])).1 = .ok c' ∧
        c'.document = c.document ∧ c'.errors.Sublist c.errors := by
  have hwithin : EntrySet.index.Within .empty EntrySet.index (.ofPaths ["me/first"]) := by
    rw [EntrySet.within_index_iff]
    simp [EntrySet.empty, EntrySet.has]
  obtain ⟨-, hdocument, herrors⟩ := document_eq_and_errors_sublist "t" ⟨.gregorian, ⟨737425⟩⟩
    oopsText (EntrySet.neverFails_index .empty) (EntrySet.neverFails_index (.ofPaths ["me/first"]))
  obtain ⟨c, c', -, hc, hc', -, -, -, -, hsublist, -⟩ := herrors _ rfl
  rw [hc, hc'] at hdocument
  exact ⟨EntrySet.neverFails_index _, EntrySet.neverFails_index _, hwithin, c, c', hc, hc',
    (Except.ok.inj hdocument).symm, hsublist hwithin⟩

end Compilation

end Typikon
