import Typikon.Compilation
import Typikon.Proofs.Diagnostic.Order
import Typikon.Proofs.Draft.ConservationOfTree
import Typikon.Proofs.Draft.Questions
import Typikon.Proofs.Index.Answering

/-!
What a compilation without errors has kept. Each leaf and directive that is entered is one piece of
the document, except the references of lookups that are dropped without a diagnostic. Lookups are
dropped when another one is entered before they are left, and when they are left outside a slot,
which they can be even though they were entered in one.
-/

namespace Typikon.Compilation

variable {σ : Type} {index : Index σ} {state : σ} {name : String} {defaults : Defaults}
  {events : List Event} {d : Draft} {c : Compilation}

theorem finish_of_ofEvents_eq_ok
    (hstart : Draft.start name defaults.calendar defaults.date = .ok d)
    (hcompiled : (ofEvents index name defaults events state).1 = .ok c) :
    c.document = (d.events events).finish.document ∧
      (c.errors = [] → (d.events events).finish.IsClean) := by
  obtain ⟨started, diagnostics, next, hstarted, hsettle, rfl⟩ :=
    exists_settle_of_build_eq_ok hcompiled
  obtain rfl : started = d := Except.ok.inj (hstarted.symm.trans hstart)
  refine ⟨rfl, fun hclean => ?_⟩
  obtain rfl := Diagnostic.tellAll_eq_nil_iff.1 hclean
  exact Finding.isSome_question?_of_settle_eq_nil hsettle

theorem inOrder_start (hstart : Draft.start name defaults.calendar defaults.date = .ok d) :
    d.InOrder ∧ d.BetweenItems ∧ d.pieces = [] := by
  obtain ⟨day, -, rfl⟩ := Draft.eq_of_start_eq_ok hstart
  exact ⟨⟨.inl rfl, .inl rfl, nofun⟩, ⟨⟨rfl, rfl⟩, rfl⟩, rfl⟩

theorem exists_perm_pieces_append_dropped
    (hstart : Draft.start name defaults.calendar defaults.date = .ok d)
    (hcompiled : (ofEvents index name defaults events state).1 = .ok c)
    (hclean : c.errors = []) :
    ∃ pieces,
      List.Forall₂ (fun entered piece => entered.2.Becomes entered.1 piece)
        (d.dating.entered events) pieces ∧
      pieces.Perm (c.document.pieces ++ (d.droppedAll events).map .lookup) := by
  obtain ⟨hdocument, hfinish⟩ := finish_of_ofEvents_eq_ok hstart hcompiled
  obtain ⟨hinOrder, -, hnone⟩ := inOrder_start hstart
  have hfinished : (d.events events).finish.IsClean := hfinish hclean
  have hevents : (d.events events).IsClean := fun finding hfinding =>
    hfinished finding ((Draft.findings_prefix_finish _).subset hfinding)
  obtain ⟨pieces, hpieces, -, hperm⟩ := hinOrder.gains_events hevents
  rw [hnone, List.nil_append, ← Draft.pieces_document_finish hfinished, ← hdocument] at hperm
  exact ⟨pieces, hpieces, hperm⟩

/-- If events compile without errors, the leaves and directives that they enter are the pieces of
the document, each one once, and the references of lookups that were dropped. So all are kept just
if none was dropped. -/
theorem perm_pieces_append_dropped
    (hstart : Draft.start name defaults.calendar defaults.date = .ok d)
    (hcompiled : (ofEvents index name defaults events state).1 = .ok c)
    (hclean : c.errors = []) :
    (∃ pieces,
      List.Forall₂ (fun entered piece => entered.2.Becomes entered.1 piece)
        (d.dating.entered events) pieces ∧
      pieces.Perm (c.document.pieces ++ (d.droppedAll events).map .lookup)) ∧
    ((∃ pieces,
      List.Forall₂ (fun entered piece => entered.2.Becomes entered.1 piece)
        (d.dating.entered events) pieces ∧
      pieces.Perm c.document.pieces) ↔ d.droppedAll events = []) := by
  obtain ⟨pieces, hpieces, hperm⟩ := exists_perm_pieces_append_dropped hstart hcompiled hclean
  refine ⟨⟨pieces, hpieces, hperm⟩, ?_, ?_⟩
  · -- Each list has as many pieces as atoms were entered, so there is no room for dropped ones.
    rintro ⟨kept, hkept, hall⟩
    have hlength : kept.length = pieces.length := hkept.length_eq.symm.trans hpieces.length_eq
    rw [hall.length_eq, hperm.length_eq, List.length_append, List.length_map] at hlength
    exact List.eq_nil_of_length_eq_zero (by omega)
  · intro hdropped
    rw [hdropped, List.map_nil, List.append_nil] at hperm
    exact ⟨pieces, hpieces, hperm⟩

/-- Events of a header in which a lookup is entered before another one is left. -/
def overtakenLookup : List Event :=
  [.enter ⟨1, 1⟩ (.group (.pageBlock .header .both)),
    .enter ⟨1, 14⟩ (.group (.position "left")),
    .enter ⟨1, 19⟩ (.group (.lookup (some 1))),
    .enter ⟨1, 27⟩ (.atom (.content (.absolute "titles/matins"))),
    .enter ⟨1, 47⟩ (.group (.lookup (some 2))),
    .enter ⟨1, 55⟩ (.atom (.content (.absolute "titles/vespers"))),
    .exit ⟨1, 47⟩ (.group (.lookup (some 2))),
    .enter ⟨1, 79⟩ (.atom (.directive "Date")),
    .exit ⟨1, 14⟩ (.group (.position "left")),
    .exit ⟨1, 1⟩ (.group (.pageBlock .header .both))]

theorem perm_pieces_append_dropped_overtakenLookup :
    ∃ d c, Draft.start "t" .gregorian ⟨737425⟩ = .ok d ∧
      (ofEvents Index.full "t" ⟨.gregorian, ⟨737425⟩⟩ overtakenLookup ()).1 = .ok c ∧
      c.errors = [] ∧
      d.droppedAll overtakenLookup = [.absolute "titles/matins"] ∧
      ∃ pieces,
        List.Forall₂ (fun entered piece => entered.2.Becomes entered.1 piece)
          (d.dating.entered overtakenLookup) pieces ∧
        pieces.Perm (c.document.pieces ++ [.lookup (.absolute "titles/matins")]) := by
  obtain ⟨d, hstart⟩ : ∃ d, Draft.start "t" .gregorian ⟨737425⟩ = .ok d := ⟨_, rfl⟩
  obtain ⟨c, hcompiled⟩ :
      ∃ c, (ofEvents Index.full "t" ⟨.gregorian, ⟨737425⟩⟩ overtakenLookup ()).1 = .ok c := ⟨_, rfl⟩
  have hclean : c.errors = [] := by
    cases hcompiled
    exact Diagnostic.tellAll_eq_nil_iff.2 rfl
  have hdropped : d.droppedAll overtakenLookup = [.absolute "titles/matins"] := by
    cases hstart
    rfl
  have hkept := (perm_pieces_append_dropped hstart hcompiled hclean).1
  rw [hdropped] at hkept
  exact ⟨d, c, hstart, hcompiled, hclean, hdropped, hkept⟩

/-- A header with a lookup that holds a position after its reference. Leaving the inner position
leaves the slot, so the lookup is left outside of it. -/
def strandedLookup : List Node :=
  [.group ⟨1, 1⟩ (.pageBlock .header .both)
    [.group ⟨1, 14⟩ (.position "left")
      [.group ⟨1, 19⟩ (.lookup (some 1))
        [.atom ⟨1, 27⟩ (.content (.absolute "titles/matins")),
          .group ⟨1, 47⟩ (.position "right") []]]]]

/-- The reference of the lookup is nowhere in the document, and no error tells of it. -/
theorem not_kept_strandedLookup :
    ∃ d c, Draft.start "t" .gregorian ⟨737425⟩ = .ok d ∧
      (ofEvents Index.full "t" ⟨.gregorian, ⟨737425⟩⟩
        (Node.eventsOfAll strandedLookup) ()).1 = .ok c ∧
      c.errors = [] ∧
      ¬∃ pieces,
        List.Forall₂ (fun entered piece => entered.2.Becomes entered.1 piece)
          (d.dating.entered (Node.eventsOfAll strandedLookup)) pieces ∧
        pieces.Perm c.document.pieces := by
  refine ⟨_, _, rfl, rfl, Diagnostic.tellAll_eq_nil_iff.2 rfl, ?_⟩
  rintro ⟨pieces, hpieces, hperm⟩
  have hlength := hpieces.length_eq.trans hperm.length_eq
  exact absurd hlength (by decide)

/-- A template that nests as the grammar allows loses nothing if it compiles without errors. -/
theorem perm_pieces_of_nestIn {items : List Node}
    (hstart : Draft.start name defaults.calendar defaults.date = .ok d)
    (hnest : Node.NestIn .template items)
    (hcompiled : (ofNodes index name defaults items state).1 = .ok c) (hclean : c.errors = []) :
    ∃ pieces,
      List.Forall₂ (fun entered piece => entered.2.Becomes entered.1 piece)
        (d.dating.entered (Node.eventsOfAll items)) pieces ∧
      pieces.Perm c.document.pieces := by
  obtain ⟨-, hbetween, -⟩ := inOrder_start hstart
  have hstreamed : (ofEvents index name defaults (Node.eventsOfAll items) state).1 = .ok c := by
    rw [← hcompiled]
    simp only [ofEvents, ofNodes, Draft.events_eventsOfAll]
  obtain ⟨pieces, hpieces, hperm⟩ := exists_perm_pieces_append_dropped hstart hstreamed hclean
  rw [hbetween.droppedAll_of_items hnest, List.map_nil, List.append_nil] at hperm
  exact ⟨pieces, hpieces, hperm⟩

end Typikon.Compilation
