import Typikon.Proofs.Draft.Findings
import Typikon.Proofs.Draft.Walk
import Typikon.Proofs.Template.Traversal

/-!
Drafts that ask their questions as they come up. A draft leaves its questions to the end; one that
asks an index after every event, and ends at the first failure, asks the same questions in the same
order and ends up the same. It can be led through a tree by recursion or from a stack.
-/

namespace Typikon

/-- What asks an index, and fails at its first failure. -/
abbrev Asking (σ α : Type) : Type :=
  ExceptT IndexError (StateM σ) α

variable {σ : Type}

theorem Asking.bind_apply {α β : Type} (x : Asking σ α) (f : α → Asking σ β) (state : σ) :
    (x >>= f) state =
      match x state with
      | (.ok a, state) => f a state
      | (.error e, state) => (.error e, state) := by
  change ExceptT.bindCont f (x state).1 (x state).2 = _
  obtain ⟨answer, next⟩ := x state
  cases answer <;> rfl

theorem Asking.map_apply {ε α β : Type} (f : α → β) (x : ExceptT ε (StateM σ) α) (state : σ) :
    (f <$> x) state = ((x state).1.map f, (x state).2) := by
  change ((match (x state).1 with
    | .ok a => pure (.ok (f a))
    | .error e => pure (.error e) : StateM σ (Except ε β)) (x state).2) = _
  obtain ⟨answer, next⟩ := x state
  cases answer <;> rfl

namespace Finding

variable (index : Index σ)

def ask (findings : List Finding) : Asking σ (List Diagnostic) :=
  settle index findings

def askEntry (entry : Entry) : Asking σ Bool :=
  index entry

@[simp]
theorem ask_nil : ask index [] = pure [] := rfl

theorem ask_cons_of_question?_eq_none {finding : Finding} (h : finding.question? = none)
    (findings : List Finding) :
    ask index (finding :: findings) = (finding.diagnostic :: ·) <$> ask index findings := by
  funext state
  rw [Asking.map_apply]
  unfold ask
  rw [settle, h]

theorem ask_cons_of_question?_eq_some {finding : Finding} {entry : Entry}
    (h : finding.question? = some entry) (findings : List Finding) :
    ask index (finding :: findings) =
      askEntry index entry >>= fun found =>
        (fun rest => if found then rest else finding.diagnostic :: rest) <$>
          ask index findings := by
  funext state
  rw [Asking.bind_apply]
  unfold ask askEntry
  rw [settle, h]
  dsimp only
  obtain ⟨answer, next⟩ := index entry state
  cases answer with
  | error e => rfl
  | ok found =>
    dsimp only
    rw [Asking.map_apply]
    obtain ⟨answer, next⟩ := settle index findings next
    cases answer <;> cases found <;> rfl

theorem ask_append (first second : List Finding) :
    ask index (first ++ second) =
      ask index first >>= fun told => (told ++ ·) <$> ask index second := by
  induction first with
  | nil => simp
  | cons finding first ih =>
    cases h : finding.question? with
    | none =>
      simp only [List.cons_append, ask_cons_of_question?_eq_none index h, ih]
      simp
    | some entry =>
      simp only [List.cons_append, ask_cons_of_question?_eq_some index h, ih, map_eq_pure_bind,
        bind_assoc, pure_bind]
      refine bind_congr fun found => bind_congr fun told => ?_
      cases found <;> simp

theorem ask_of_forall_question?_eq_none {findings : List Finding}
    (h : ∀ finding ∈ findings, finding.question? = none) :
    ask index findings = pure (findings.map diagnostic) := by
  induction findings with
  | nil => rfl
  | cons finding findings ih =>
    rw [ask_cons_of_question?_eq_none index (h finding List.mem_cons_self),
      ih fun later hlater => h later (List.mem_cons_of_mem finding hlater), map_pure,
      List.map_cons]

@[simp]
theorem ask_map_told (diagnostics : List Diagnostic) :
    ask index (diagnostics.map .told) = pure diagnostics := by
  have hnone : ∀ finding ∈ diagnostics.map Finding.told, finding.question? = none := by
    intro finding hfinding
    obtain ⟨told, -, rfl⟩ := List.mem_map.1 hfinding
    rfl
  rw [ask_of_forall_question?_eq_none index hnone, List.map_map]
  exact congrArg pure (List.map_id _)

end Finding

namespace Draft

variable (index : Index σ)

/-- The draft with its questions put to an index, and what then remains of its findings. -/
def settled (d : Draft) : Asking σ Draft := do
  let diagnostics ← Finding.ask index d.findings
  return { d with findings := diagnostics.map .told }

mutual

/-- Takes a tree by recursion, asking at each node what there is to ask. -/
def walk (d : Draft) : Node → Asking σ Draft
  | .atom loc a => do
    let entered ← (d.enter loc (.atom a)).settled index
    (entered.exit loc (.atom a)).settled index
  | .group loc g children => do
    let entered ← (d.enter loc (.group g)).settled index
    let filled ← entered.walkAll children
    (filled.exit loc (.group g)).settled index

def walkAll (d : Draft) : List Node → Asking σ Draft
  | [] => return d
  | node :: nodes => do
    let next ← d.walk node
    next.walkAll nodes

end

/-- Takes events, asking at each what there is to ask. -/
def take (d : Draft) (events : List Event) : Asking σ Draft :=
  events.foldlM (fun d event => (d.event event).settled index) d

/-- Takes the events that a stack yields, asking at each what there is to ask. -/
def drain (d : Draft) (pending : List Pending) : Asking σ Draft :=
  match h : Pending.next? pending with
  | none => return d
  | some (event, rest) =>
    have := Pending.length_remaining_lt_of_next? h
    do
      let next ← (d.event event).settled index
      next.drain rest
termination_by (Pending.remaining pending).length
decreasing_by exact this

theorem settled_precededBy (d : Draft) (earlier : List Finding) :
    (d.precededBy earlier).settled index = do
      let told ← Finding.ask index earlier
      let next ← d.settled index
      return next.precededBy (told.map .told) := by
  simp [settled, Finding.ask_append, precededBy]

/-- What a draft does after its questions are settled, it does before as well. -/
theorem settled_bind {step : Draft → Draft}
    (hstep : ∀ (d : Draft) earlier, step (d.precededBy earlier) = (step d).precededBy earlier)
    (d : Draft) :
    (d.settled index >>= fun next => (step next).settled index) = (step d).settled index := by
  let bare : Draft := { d with findings := [] }
  have hbare : ∀ findings, { d with findings } = bare.precededBy findings := by
    intro findings
    simp [precededBy, bare]
  calc
    (d.settled index >>= fun next => (step next).settled index) =
        Finding.ask index d.findings >>= fun told =>
          ((step bare).precededBy (told.map .told)).settled index := by
      simp [settled, hbare, hstep]
    _ = ((step bare).precededBy d.findings).settled index := by
      simp [settled_precededBy]
    _ = (step d).settled index := by
      rw [← hstep, ← hbare]

theorem settled_eq_pure_of_findings_eq {d : Draft} {diagnostics : List Diagnostic}
    (h : d.findings = diagnostics.map .told) : d.settled index = pure d := by
  simp only [settled, h, Finding.ask_map_told, pure_bind]
  rw [← h]

theorem settled_bind_enter (d : Draft) (loc : Location) (head : Node.Head) :
    (d.settled index >>= fun next => (next.enter loc head).settled index) =
      (d.enter loc head).settled index :=
  settled_bind index (event_precededBy · · (.enter loc head)) d

theorem settled_bind_exit (d : Draft) (loc : Location) (head : Node.Head) :
    (d.settled index >>= fun next => (next.exit loc head).settled index) =
      (d.exit loc head).settled index :=
  settled_bind index (event_precededBy · · (.exit loc head)) d

mutual

theorem walk_eq (d : Draft) :
    (node : Node) → (d.settled index >>= (·.walk index node)) = (d.node node).settled index
  | .atom loc a => by
    simp only [walk, Draft.node]
    rw [← bind_assoc, settled_bind_enter, settled_bind_exit]
  | .group loc g children => by
    simp only [walk, Draft.node]
    rw [← bind_assoc, settled_bind_enter, ← bind_assoc, walkAll_eq, settled_bind_exit]

theorem walkAll_eq (d : Draft) :
    (nodes : List Node) →
      (d.settled index >>= (·.walkAll index nodes)) = (d.nodes nodes).settled index
  | [] => by
    simp only [walkAll, Draft.nodes, bind_pure]
  | node :: nodes => by
    simp only [walkAll, Draft.nodes]
    rw [← bind_assoc, walk_eq, walkAll_eq]

end

theorem take_cons (d : Draft) (event : Event) (events : List Event) :
    d.take index (event :: events) = (d.event event).settled index >>= (·.take index events) := by
  simp [take]

theorem take_eq (d : Draft) (events : List Event) :
    (d.settled index >>= (·.take index events)) = (d.events events).settled index := by
  induction events generalizing d with
  | nil => simp [take]
  | cons event events ih =>
    simp only [take_cons]
    rw [← bind_assoc, settled_bind index (event_precededBy · · event), ih, events_cons]

/-- A stack leads through the events that it has yet to yield. -/
theorem drain_eq_take (d : Draft) (pending : List Pending) :
    d.drain index pending = d.take index (Pending.remaining pending) := by
  fun_induction drain index d pending with
  | case1 d pending h =>
    obtain rfl := Pending.next?_eq_none_iff.1 h
    rfl
  | case2 d pending event rest h hlt ih =>
    rw [Pending.remaining_of_next? h]
    simp only [take_cons, ih]

theorem nodes_precededBy (d : Draft) (earlier : List Finding) (nodes : List Node) :
    (d.precededBy earlier).nodes nodes = (d.nodes nodes).precededBy earlier := by
  simp only [← events_eventsOfAll, events_precededBy]

section Start

variable {d : Draft} {diagnostics : List Diagnostic}

theorem walkAll_of_findings_eq (h : d.findings = diagnostics.map .told) (nodes : List Node) :
    d.walkAll index nodes = (d.nodes nodes).settled index := by
  rw [← walkAll_eq, settled_eq_pure_of_findings_eq index h, pure_bind]

theorem take_of_findings_eq (h : d.findings = diagnostics.map .told) (events : List Event) :
    d.take index events = (d.events events).settled index := by
  rw [← take_eq, settled_eq_pure_of_findings_eq index h, pure_bind]

theorem drain_of_findings_eq (h : d.findings = diagnostics.map .told) (nodes : List Node) :
    d.drain index (nodes.map .enter) = (d.nodes nodes).settled index := by
  rw [drain_eq_take, Pending.remaining_map_enter, take_of_findings_eq index h, events_eventsOfAll]

end Start

end Draft

end Typikon
