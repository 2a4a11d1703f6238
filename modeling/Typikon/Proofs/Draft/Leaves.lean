import Typikon.Proofs.Document.Resolving
import Typikon.Proofs.Draft.Entered
import Typikon.Proofs.Draft.Findings
import Typikon.Proofs.Draft.Walk
import Typikon.Proofs.Template.Preorder

/-!
The leaves of a template. Each is resolved for the day that is in force where it stands, and most
ask an index for one entry. No other node asks for any, so the questions of a draft are those of the
leaves that it has entered, one after another.
-/

namespace Typikon

def Node.Head.content? : Node.Head → Option Content
  | .atom (.content content) => some content
  | _ => none

theorem Node.Head.content?_eq_some_iff {head : Node.Head} {content : Content} :
    head.content? = some content ↔ head = .atom (.content content) := by
  unfold content?
  split <;> simp_all

/-- Whether a node is a property that can change the day. -/
def Node.Head.SetsDate : Node.Head → Prop
  | .atom (.property name _) => name ∈ ["Calendar", "Month", "Day", "Year"]
  | _ => False

theorem Property.word_of_ofWord?_eq_some {name : String} {property : Property}
    (h : Property.ofWord? name = some property) : property.word = name := by
  simpa using List.find?_some h

/-- A leaf of a template, with the day that is in force where it stands. -/
structure Leaf where
  location : Location
  day : LiturgicalDay
  content : Content

namespace Leaf

def resolution (l : Leaf) : Resolution :=
  .ofContent l.day l.content

/-- What a leaf asks an index, and where it stands. -/
def question? (l : Leaf) : Option (Location × Entry) :=
  (l.content.wanted? l.day).map (l.location, ·)

theorem filterMap_question?_singleton (l : Leaf) :
    [l].filterMap question? = ((l.content.wanted? l.day).map (l.location, ·)).toList := by
  rw [List.filterMap_cons, question?]
  cases l.content.wanted? l.day <;> rfl

end Leaf

namespace Dating

/-- What is in force after a node is entered. -/
def afterHead (t : Dating) : Node.Head → Dating
  | .atom (.property name value) => t.set name value
  | _ => t

/-- What is in force after nodes that are entered one after another. -/
def afterHeads (t : Dating) (heads : List (Location × Node.Head)) : Dating :=
  heads.foldl (fun t head => t.afterHead head.2) t

/-- The leaves among nodes that are entered one after another. -/
def leaves (t : Dating) : List (Location × Node.Head) → List Leaf
  | [] => []
  | (loc, head) :: heads =>
    (head.content?.map (⟨loc, t.day, ·⟩)).toList ++ (t.afterHead head).leaves heads

theorem afterEvent_enter (t : Dating) (loc : Location) (head : Node.Head) :
    t.afterEvent (.enter loc head) = t.afterHead head := by
  unfold afterEvent afterHead
  split <;> simp_all

theorem afterHeads_cons (t : Dating) (head : Location × Node.Head)
    (heads : List (Location × Node.Head)) :
    t.afterHeads (head :: heads) = (t.afterHead head.2).afterHeads heads := rfl

theorem leaves_append (t : Dating) (first second : List (Location × Node.Head)) :
    t.leaves (first ++ second) = t.leaves first ++ (t.afterHeads first).leaves second := by
  induction first generalizing t with
  | nil => rfl
  | cons head first ih =>
    rw [List.cons_append, leaves, leaves, ih, List.append_assoc, afterHeads_cons]

/-- A leaf is for the day that the nodes before it have put in force. -/
theorem exists_eq_append_of_mem_leaves {t : Dating} {heads : List (Location × Node.Head)}
    {leaf : Leaf} (h : leaf ∈ t.leaves heads) :
    ∃ before after, heads = before ++ (leaf.location, .atom (.content leaf.content)) :: after ∧
      leaf.day = (t.afterHeads before).day := by
  induction heads generalizing t with
  | nil => cases h
  | cons head heads ih =>
    rw [leaves, List.mem_append] at h
    rcases h with hfirst | hrest
    · obtain ⟨content, hcontent, rfl⟩ := Option.map_eq_some_iff.1 (Option.mem_toList.1 hfirst)
      have hhead := Node.Head.content?_eq_some_iff.1 hcontent
      exact ⟨[], heads, congrArg (· :: heads) (Prod.ext rfl hhead), rfl⟩
    · obtain ⟨before, after, rfl, hday⟩ := ih hrest
      exact ⟨head :: before, after, rfl, hday⟩

theorem reference_afterHead (t : Dating) (head : Node.Head) :
    (t.afterHead head).reference = t.reference := by
  unfold afterHead set adopt
  repeat' split
  all_goals rfl

theorem reference_afterHeads (t : Dating) (heads : List (Location × Node.Head)) :
    (t.afterHeads heads).reference = t.reference := by
  induction heads generalizing t with
  | nil => rfl
  | cons head heads ih => rw [afterHeads_cons, ih, reference_afterHead]

theorem afterHeads_append (t : Dating) (first second : List (Location × Node.Head)) :
    t.afterHeads (first ++ second) = (t.afterHeads first).afterHeads second :=
  List.foldl_append

theorem afterHead_of_not_setsDate (t : Dating) {head : Node.Head} (h : ¬head.SetsDate) :
    t.afterHead head = t := by
  unfold afterHead
  split
  next name value =>
    have hnone : t.dates.change? name value = none := by
      unfold DateProperties.change?
      split
      case h_5 => rfl
      all_goals
        next hword =>
          refine absurd ?_ h
          rw [← Property.word_of_ofWord?_eq_some hword]
          simp [Node.Head.SetsDate, Property.word]
    rw [set, hnone]
  · rfl

theorem afterHeads_of_forall_not_setsDate (t : Dating) {heads : List (Location × Node.Head)}
    (h : ∀ head ∈ heads, ¬head.2.SetsDate) : t.afterHeads heads = t := by
  induction heads with
  | nil => rfl
  | cons head heads ih =>
    rw [afterHeads_cons, t.afterHead_of_not_setsDate (h head List.mem_cons_self)]
    exact ih fun other hother => h other (List.mem_cons_of_mem head hother)

end Dating

/-- The question that a finding is, if it is one, and where it is asked. -/
def Finding.asks? : Finding → Option (Location × Entry)
  | .told _ => none
  | .certain _ _ => none
  | .unlessFound loc entry => some (loc, entry)

namespace Finding

theorem question?_eq_map_asks? (finding : Finding) :
    finding.question? = finding.asks?.map Prod.snd := by
  cases finding <;> rfl

theorem filterMap_question?_eq (findings : List Finding) :
    findings.filterMap question? = (findings.filterMap asks?).map Prod.snd := by
  rw [List.map_filterMap]
  exact congrArg (findings.filterMap ·) (funext question?_eq_map_asks?)

theorem filterMap_asks?_ofResolution (loc : Location) (mode day : Option Location)
    (r : Resolution) :
    (ofResolution loc mode day r).filterMap asks? = (r.entry?.map (loc, ·)).toList := by
  have hproblems (location : ReferenceProblem → Location) :
      (r.problems.map fun problem => certain (location problem) (.reference problem)).filterMap
        asks? = [] := by
    rw [List.filterMap_map]
    exact List.filterMap_eq_nil_iff.2 fun problem _ => rfl
  rw [ofResolution, List.filterMap_append, hproblems, List.nil_append]
  cases r.entry? <;> rfl

end Finding

namespace Draft

/-- The questions that a draft has yet to settle, in the order in which they came up. -/
def questions (d : Draft) : List (Location × Entry) :=
  d.findings.filterMap Finding.asks?

theorem questions_applyAll (d : Draft) (edits : List Edit) :
    (d.applyAll edits).questions =
      d.questions ++ (edits.flatMap Edit.found).filterMap Finding.asks? := by
  rw [questions, findings_applyAll, List.filterMap_append, questions]

/-- Edits that find nothing but certain things leave the questions as they are. -/
theorem questions_applyAll_of_certain (d : Draft) {edits : List Edit}
    (h : ∀ e ∈ edits, ∀ finding ∈ e.found, finding.asks? = none) :
    (d.applyAll edits).questions = d.questions := by
  have hnone : (edits.flatMap Edit.found).filterMap Finding.asks? = [] :=
    List.filterMap_eq_nil_iff.mpr (List.forall_mem_flatMap.mpr h)
  rw [questions_applyAll, hnone, List.append_nil]

theorem questions_exit (d : Draft) (loc : Location) (head : Node.Head) :
    (d.event (.exit loc head)).questions = d.questions := by
  rw [event_eq]
  refine d.questions_applyAll_of_certain fun e he finding hfinding => ?_
  obtain ⟨problem, rfl⟩ := d.found_on_exit loc head e he finding hfinding
  rfl

theorem questions_finish (d : Draft) : d.finish.questions = d.questions := by
  rw [finish_eq]
  refine d.questions_applyAll_of_certain fun e he finding hfinding => ?_
  obtain ⟨loc, problem, rfl⟩ := d.found_at_end e he finding hfinding
  rfl

theorem filterMap_asks?_leafFindings (d : Draft) (loc : Location) (content : Content) :
    (d.leafFindings loc content).filterMap Finding.asks? =
      ((content.wanted? d.document.liturgicalDay).map (loc, ·)).toList := by
  rw [← Resolution.entry?_ofContent]
  exact Finding.filterMap_asks?_ofResolution loc _ _ _

theorem questions_leaf (d : Draft) (loc : Location) (content : Content) :
    (d.event (.enter loc (.atom (.content content)))).questions =
      d.questions ++
        ((content.wanted? d.document.liturgicalDay).map (loc, ·)).toList := by
  have hplaced (here : Draft) (reference : Reference) :
      ((here.placeEdits loc content reference).flatMap Edit.found).filterMap
        Finding.asks? = [] := by
    rw [List.filterMap_eq_nil_iff, List.forall_mem_flatMap]
    intro e he finding hfinding
    obtain ⟨problem, rfl⟩ := here.found_placeEdits loc content reference e he finding hfinding
    rfl
  have hfound (here : Draft) :
      ((here.leafFindings loc content).map Edit.find).flatMap Edit.found =
        here.leafFindings loc content := by
    rw [List.flatMap_map]
    exact List.flatMap_singleton' _
  rw [event_eq, edits, enterEdits, questions_applyAll, List.flatMap_cons, List.flatMap_append,
    List.filterMap_append, List.filterMap_append, hplaced, hfound, filterMap_asks?_leafFindings]
  exact congrArg (d.questions ++ ·) (List.append_nil _)

theorem questions_enter (d : Draft) (loc : Location) (head : Node.Head) :
    (d.event (.enter loc head)).questions =
      d.questions ++ (d.dating.leaves [(loc, head)]).filterMap Leaf.question? := by
  cases hhead : head.content? with
  | none =>
    have hcertain : ∀ e ∈ d.edits (.enter loc head), ∀ finding ∈ e.found,
        finding.asks? = none := by
      intro e he finding hfinding
      obtain ⟨problem, rfl⟩ | ⟨content, rfl, -⟩ := d.found_on_enter loc head e he finding hfinding
      · rfl
      · cases hhead
    rw [event_eq, d.questions_applyAll_of_certain hcertain, Dating.leaves, hhead]
    simp [Dating.leaves]
  | some content =>
    obtain rfl := Node.Head.content?_eq_some_iff.mp hhead
    have hleaves : d.dating.leaves [(loc, .atom (.content content))] =
        [⟨loc, d.document.liturgicalDay, content⟩] := rfl
    rw [hleaves, Leaf.filterMap_question?_singleton]
    exact questions_leaf d loc content

theorem dating_events (d : Draft) (events : List Event) :
    (d.events events).dating = d.dating.afterHeads (events.filterMap Event.entered?) := by
  induction events generalizing d with
  | nil => rfl
  | cons event events ih =>
    rw [events_cons, ih, dating_event]
    cases event with
    | enter loc head =>
      rw [Dating.afterEvent_enter]
      rfl
    | exit loc head => rfl

/-- The questions of a draft are those of the leaves that it has entered. -/
theorem questions_events (d : Draft) (events : List Event) :
    (d.events events).questions =
      d.questions ++
        (d.dating.leaves (events.filterMap Event.entered?)).filterMap Leaf.question? := by
  induction events generalizing d with
  | nil => simp [Dating.leaves]
  | cons event events ih =>
    rw [events_cons, ih]
    cases event with
    | exit loc head =>
      rw [dating_event]
      exact congrArg (· ++ _) (d.questions_exit loc head)
    | enter loc head =>
      have hentered : (Event.enter loc head :: events).filterMap Event.entered? =
          [(loc, head)] ++ events.filterMap Event.entered? := rfl
      rw [dating_event, Dating.afterEvent_enter, hentered, Dating.leaves_append,
        List.filterMap_append, ← List.append_assoc, ← questions_enter]
      rfl

end Draft

end Typikon
