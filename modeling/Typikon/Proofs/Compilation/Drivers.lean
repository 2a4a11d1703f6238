import Typikon.Compilation
import Typikon.Proofs.Diagnostic.Order
import Typikon.Proofs.Draft.Asking
import Typikon.Proofs.Draft.Questions

/-!
Three ways through a template. A template is compiled from its nodes by recursion, from its events
as a stack yields them, or from its text, which is read first. All ask an index as questions come up
and end at its first failure. They come to the same, after the same questions; from a text there are
the syntax errors besides, which are told before what else is wrong at their locations.
-/

namespace Typikon

/-- A document, and the diagnostics of its template in the order of discovery. -/
structure Discovery where
  document : Document
  diagnostics : List Diagnostic

namespace Discovery

/-- What a draft comes to when all its questions are settled. -/
def ofDraft (d : Draft) : Discovery :=
  ⟨d.finish.document, d.finish.findings.map Finding.diagnostic⟩

def compilation (found : Discovery) : Compilation :=
  ⟨found.document, Diagnostic.tellAll found.document.id found.diagnostics⟩

/-- With diagnostics from the reading of the template before all others. -/
def precededBy (earlier : List Diagnostic) (found : Discovery) : Discovery :=
  { found with diagnostics := earlier ++ found.diagnostics }

@[simp]
theorem ofDraft_precededBy (d : Draft) (diagnostics : List Diagnostic) :
    ofDraft (d.precededBy (diagnostics.map .told)) = (ofDraft d).precededBy diagnostics := by
  have htold : Finding.diagnostic ∘ Finding.told = id := rfl
  simp [ofDraft, precededBy, Draft.finish_precededBy, htold]

/-- Finishing a draft asks nothing, so its questions can be settled before as well as after. -/
theorem ofDraft_settled {σ : Type} (index : Index σ) (d : Draft) :
    ofDraft <$> d.settled index = mk d.finish.document <$> Finding.ask index d.finish.findings := by
  let bare : Draft := { d with findings := [] }
  have hbare : ∀ findings, { d with findings } = bare.precededBy findings := by
    intro findings
    simp [Draft.precededBy, bare]
  have hcertain : bare.finish.FindsOnly (·.question? = none) := by
    refine Draft.FindsOnly.finish (fun _ _ => rfl) ?_
    simp [Draft.FindsOnly, bare]
  have hfinish : d.finish = bare.finish.precededBy d.findings := by
    rw [← Draft.finish_precededBy, ← hbare]
  calc
    ofDraft <$> d.settled index =
        (fun told => (ofDraft bare).precededBy told) <$> Finding.ask index d.findings := by
      simp [Draft.settled, hbare]
    _ = mk d.finish.document <$> Finding.ask index d.finish.findings := by
      simp [hfinish, ofDraft, precededBy, Finding.ask_append,
        Finding.ask_of_forall_question?_eq_none index hcertain]

end Discovery

namespace Compilation

variable {σ : Type}

/-- What asks an index and fails when that does, or when there is no day to compile for. -/
abbrev Compiling (σ α : Type) : Type :=
  ExceptT CompileError (StateM σ) α

theorem Compiling.adapt_apply {α : Type} (x : Asking σ α) (state : σ) :
    (ExceptT.adapt CompileError.index x : Compiling σ α) state =
      ((x state).1.mapError .index, (x state).2) := rfl

def discover (name : String) (defaults : Defaults) (steps : Draft → Asking σ Draft) :
    Compiling σ Discovery :=
  match Draft.start name defaults.calendar defaults.date with
  | .error cause => throw (.date cause)
  | .ok d => ExceptT.adapt .index (.ofDraft <$> steps d)

section Drivers

variable (index : Index σ) (name : String) (defaults : Defaults)

/-- Compiles nodes by recursion. -/
def walk (items : List Node) : Compiling σ Discovery :=
  discover name defaults (·.walkAll index items)

/-- Compiles nodes by the events that a stack yields. -/
def stream (items : List Node) : Compiling σ Discovery :=
  discover name defaults (·.drain index (items.map .enter))

/-- Compiles a text: reads it, and then compiles by the events that a stack yields. -/
def streamText (text : String) : Compiling σ Discovery :=
  let template := Template.ofText text
  discover name defaults fun d =>
    (d.tell (template.errors.map SyntaxError.diagnostic)).drain index (template.items.map .enter)

/-- The entries that an index is asked for when nodes are compiled. -/
def asked (items : List Node) (state : σ) : List Entry :=
  match Draft.start name defaults.calendar defaults.date with
  | .error _ => []
  | .ok d => Finding.asked index (d.nodes items).finish.findings state

end Drivers

variable {index : Index σ} {name : String} {defaults : Defaults}

theorem findings_start {d : Draft}
    (hstart : Draft.start name defaults.calendar defaults.date = .ok d) : d.findings = [] := by
  obtain ⟨day, -, rfl⟩ := Draft.eq_of_start_eq_ok hstart
  rfl

theorem discover_congr {steps steps' : Draft → Asking σ Draft}
    (h : ∀ d : Draft, d.findings = [] → steps d = steps' d) :
    discover name defaults steps = discover name defaults steps' := by
  unfold discover
  cases hstart : Draft.start name defaults.calendar defaults.date with
  | error cause => rfl
  | ok d => simp only [h d (findings_start hstart)]

theorem discover_eq_map {steps steps' : Draft → Asking σ Draft} (f : Discovery → Discovery)
    (h : ∀ d : Draft, d.findings = [] →
      Discovery.ofDraft <$> steps d = f <$> Discovery.ofDraft <$> steps' d) :
    discover name defaults steps = f <$> discover name defaults steps' := by
  funext state
  unfold discover
  cases hstart : Draft.start name defaults.calendar defaults.date with
  | error cause => rfl
  | ok d =>
    simp only [h d (findings_start hstart), Asking.map_apply, Compiling.adapt_apply]
    cases (steps' d state).1 <;> rfl

theorem ofDraft_eq (d : Draft) :
    ofDraft index d =
      Discovery.compilation <$>
        (ExceptT.adapt .index (.ofDraft <$> d.settled index) : Compiling σ Discovery) := by
  rw [Discovery.ofDraft_settled]
  funext state
  rw [Asking.map_apply, Compiling.adapt_apply, Asking.map_apply]
  unfold ofDraft Finding.ask
  dsimp only
  obtain ⟨answer, next⟩ := Finding.settle index d.finish.findings state
  cases answer <;> rfl

/-- Leaving all questions to the end comes to the same as settling them before. -/
theorem build_eq (steps : Draft → Draft) :
    build index name defaults steps =
      Discovery.compilation <$> discover name defaults fun d => (steps d).settled index := by
  funext state
  unfold build discover
  cases Draft.start name defaults.calendar defaults.date with
  | error cause => rfl
  | ok d => exact congrFun (ofDraft_eq (steps d)) state

theorem walk_eq (items : List Node) :
    walk index name defaults items =
      discover name defaults fun d => (d.nodes items).settled index :=
  discover_congr fun _ hd => Draft.walkAll_of_findings_eq index (hd.trans List.map_nil.symm) items

theorem stream_eq_walk (items : List Node) :
    stream index name defaults items = walk index name defaults items := by
  rw [walk_eq]
  exact discover_congr fun _ hd =>
    Draft.drain_of_findings_eq index (hd.trans List.map_nil.symm) items

theorem ofNodes_eq (items : List Node) :
    ofNodes index name defaults items =
      Discovery.compilation <$> walk index name defaults items := by
  rw [walk_eq]
  exact build_eq (·.nodes items)

theorem ofEvents_eq (items : List Node) :
    ofEvents index name defaults (Node.eventsOfAll items) =
      Discovery.compilation <$> stream index name defaults items := by
  rw [stream_eq_walk, walk_eq]
  simp only [← Draft.events_eventsOfAll]
  exact build_eq (·.events (Node.eventsOfAll items))

theorem findings_tell {d : Draft} (hd : d.findings = []) (diagnostics : List Diagnostic) :
    (d.tell diagnostics).findings = diagnostics.map .told := by
  simp [Draft.tell, Draft.addFindings, hd]

theorem tell_eq_precededBy {d : Draft} (hd : d.findings = []) (diagnostics : List Diagnostic) :
    d.tell diagnostics = d.precededBy (diagnostics.map .told) := by
  simp [Draft.tell, Draft.addFindings, Draft.precededBy, hd]

theorem streamText_eq (text : String) :
    streamText index name defaults text =
      discover name defaults fun d =>
        ((d.tell ((Template.ofText text).errors.map SyntaxError.diagnostic)).nodes
          (Template.ofText text).items).settled index := by
  refine discover_congr fun d hd => ?_
  have htold := findings_tell hd ((Template.ofText text).errors.map SyntaxError.diagnostic)
  exact Draft.drain_of_findings_eq index htold _

theorem ofText_eq (text : String) :
    ofText index name defaults text =
      Discovery.compilation <$> streamText index name defaults text := by
  rw [streamText_eq]
  simp only [← Draft.events_eventsOfAll]
  exact build_eq _

/-- The syntax errors of a text come before what is discovered in its nodes, and change nothing. -/
theorem streamText_eq_walk (text : String) :
    streamText index name defaults text =
      Discovery.precededBy ((Template.ofText text).errors.map SyntaxError.diagnostic) <$>
        walk index name defaults (Template.ofText text).items := by
  rw [streamText_eq, walk_eq]
  refine discover_eq_map _ fun d hd => ?_
  rw [tell_eq_precededBy hd, Draft.nodes_precededBy, Draft.settled_precededBy,
    Finding.ask_map_told, pure_bind]
  simp only [bind_pure_comp, Functor.map_map, Discovery.ofDraft_precededBy]

theorem walk_apply {d : Draft} (hstart : Draft.start name defaults.calendar defaults.date = .ok d)
    (items : List Node) (state : σ) :
    walk index name defaults items state =
      (((Finding.settle index (d.nodes items).finish.findings state).1.map
          (Discovery.mk (d.nodes items).finish.document)).mapError .index,
        (Finding.settle index (d.nodes items).finish.findings state).2) := by
  rw [walk_eq]
  unfold discover
  rw [hstart]
  dsimp only
  rw [Discovery.ofDraft_settled, Compiling.adapt_apply, Asking.map_apply]
  rfl

theorem semantic_of_walk_eq_ok {items : List Node} {state : σ} {found : Discovery}
    (h : (walk index name defaults items state).1 = .ok found) :
    ∀ d ∈ found.diagnostics, d.kind = .semantic := by
  cases hstart : Draft.start name defaults.calendar defaults.date with
  | error cause =>
    rw [walk, discover, hstart] at h
    cases h
  | ok d =>
    have hsemantic : (d.nodes items).finish.FindsOnly (·.diagnostic.kind = .semantic) := by
      refine Draft.FindsOnly.finish (fun _ _ => rfl) ?_
      rw [← Draft.events_eventsOfAll]
      refine Draft.FindsOnly.events (fun _ _ => rfl) (fun _ _ => rfl) ?_ _
      simp [Draft.FindsOnly, findings_start hstart]
    rw [walk_apply hstart] at h
    rcases hsettle : Finding.settle index (d.nodes items).finish.findings state with
      ⟨e | diagnostics, next⟩
    · rw [hsettle] at h
      cases h
    · rw [hsettle] at h
      cases h
      intro diagnostic hdiagnostic
      have hmem := (Finding.sublist_of_settle_eq_ok hsettle).subset hdiagnostic
      obtain ⟨finding, hfinding, rfl⟩ := List.mem_map.1 hmem
      exact hsemantic finding hfinding

theorem walk_logged (items : List Node) (state : σ) (log : List Entry) :
    walk index.logged name defaults items (state, log) =
      ((walk index name defaults items state).1, (walk index name defaults items state).2,
        log ++ asked index name defaults items state) := by
  cases hstart : Draft.start name defaults.calendar defaults.date with
  | error cause =>
    simp only [walk, discover, asked, hstart, List.append_nil]
    rfl
  | ok d =>
    simp only [walk_apply hstart, asked, hstart, Finding.settle_logged]

theorem ofText_apply (text : String) (state : σ) :
    ofText index name defaults text state =
      (((walk index name defaults (Template.ofText text).items state).1.map
          (Discovery.precededBy ((Template.ofText text).errors.map SyntaxError.diagnostic))).map
        Discovery.compilation,
      (walk index name defaults (Template.ofText text).items state).2) := by
  rw [ofText_eq, Asking.map_apply, streamText_eq_walk, Asking.map_apply]

theorem syntactic_of_mem_map_diagnostic {errors : List SyntaxError} {d : Diagnostic}
    (h : d ∈ errors.map SyntaxError.diagnostic) : d.kind = .syntactic := by
  obtain ⟨e, -, rfl⟩ := List.mem_map.1 h
  rfl

/-- Compiling nodes by recursion and by the events of a stack comes to the same, failures included,
after the same questions. Compiling a text comes to that with its syntax errors besides: all errors
stand in the order of their locations, those at one location in the order of discovery, and each
tells the identifier that the document has in the end. -/
theorem drivers_agree (index : Index σ) (name : String) (defaults : Defaults) :
    (∀ items,
      ofNodes index name defaults items =
          Discovery.compilation <$> walk index name defaults items ∧
        ofEvents index name defaults (Node.eventsOfAll items) =
          Discovery.compilation <$> stream index name defaults items ∧
        stream index name defaults items = walk index name defaults items ∧
        ∀ state log,
          walk index.logged name defaults items (state, log) =
              ((walk index name defaults items state).1, (walk index name defaults items state).2,
                log ++ asked index name defaults items state) ∧
            stream index.logged name defaults items (state, log) =
              walk index.logged name defaults items (state, log)) ∧
      ∀ text,
        ofText index name defaults text =
            Discovery.compilation <$> streamText index name defaults text ∧
          (∀ state log,
            (streamText index.logged name defaults text (state, log)).2 =
              (walk index.logged name defaults (Template.ofText text).items (state, log)).2) ∧
          ∀ state,
            match walk index name defaults (Template.ofText text).items state with
            | (.error e, next) => ofText index name defaults text state = (.error e, next)
            | (.ok found, next) =>
              ∃ c sorted, ofText index name defaults text state = (.ok c, next) ∧
                c.document = found.document ∧
                Diagnostic.IsStableSort sorted
                  ((Template.ofText text).errors.map SyntaxError.diagnostic ++
                    found.diagnostics) ∧
                (∀ d ∈ found.diagnostics, d.kind = .semantic) ∧
                (sorted.Pairwise fun a b =>
                  a.location = b.location → b.kind = .syntactic → a.kind = .syntactic) ∧
                c.errors = sorted.map (Diagnostic.tell c.document.id) ∧
                ∀ e ∈ c.errors, e.templateId = c.document.id := by
  refine ⟨fun items => ⟨ofNodes_eq items, ofEvents_eq items, stream_eq_walk items, ?_⟩,
    fun text => ⟨ofText_eq text, ?_, ?_⟩⟩
  · intro state log
    exact ⟨walk_logged items state log, by rw [stream_eq_walk]⟩
  · intro state log
    rw [streamText_eq_walk, Asking.map_apply]
  · intro state
    have htext : ofText index name defaults text state = _ := ofText_apply text state
    rcases hwalk : walk index name defaults (Template.ofText text).items state with
      ⟨e | found, next⟩
    · rw [hwalk] at htext
      exact htext
    · rw [hwalk] at htext
      have hsemantic : ∀ d ∈ found.diagnostics, d.kind = .semantic :=
        semantic_of_walk_eq_ok (congrArg Prod.fst hwalk)
      have hsort := Diagnostic.isStableSort_sort
        ((Template.ofText text).errors.map SyntaxError.diagnostic ++ found.diagnostics)
      exact ⟨_, _, htext, rfl, hsort, hsemantic,
        hsort.syntactic_first (fun _ => syntactic_of_mem_map_diagnostic) hsemantic, rfl,
        fun _ => Diagnostic.templateId_of_mem_tellAll⟩

end Compilation

end Typikon
