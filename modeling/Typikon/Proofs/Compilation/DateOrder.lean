import Mathlib.Data.List.Infix
import Typikon.Proofs.Compilation.Tasks
import Typikon.Proofs.Draft.DateOrder

/-!
Templates that give a whole date. Where all combinations of date properties on the way name a day,
the template is for the day that is given and nothing is found wrong with the properties. Otherwise
the first one without a day is reported and discarded, and what was in force before it stays.
-/

namespace Typikon

def Event.head : Event → Node.Head
  | .enter _ head => head
  | .exit _ head => head

/-- The draft of a source before some of its events. -/
def Source.draftBefore (source : Source) (d : Draft) (before : List Event) : Draft :=
  (d.tell source.diagnostics).events before

/-- A document shows a given date, and is for its liturgical day. -/
structure Document.Shows (doc : Document) (g : GivenDate) : Prop where
  calendar : doc.calendar = g.calendar
  year : doc.year = some g.label.year
  month : doc.month = some g.label.month
  day : doc.day = some g.label.day
  liturgicalDay : LiturgicalDay.ofLabel g.calendar g.label = .ok doc.liturgicalDay

namespace Draft

/-- Nothing is open in a draft, and it is not for a service. -/
structure IsBare (d : Draft) : Prop where
  paragraph : d.paragraph = none
  spans : d.spans = []
  block : d.block = none
  lookup : d.lookup = none
  type : d.document.type ≠ .service

section Property

variable {d : Draft} {name : String} {value : Value} {dates : DateProperties}

theorem setProperty_at_of_change? (loc : Location)
    (h : d.dates.change? name value = some dates) :
    setProperty { d with last := loc } name value = setDates { d with last := loc } dates :=
  setProperty_of_change?_eq_some h

/-- A property that makes a combination which names a day is taken. -/
theorem enter_of_liturgicalDay_eq_ok {day : LiturgicalDay} (loc : Location)
    (hchange : d.dates.change? name value = some dates)
    (hday : dates.liturgicalDay d.reference = .ok day) :
    d.enter loc (.atom (.property name value)) =
      { d with
        last := loc
        dates
        document := { d.document with
          calendar := dates.calendar
          month := dates.month
          day := dates.day
          year := dates.shownYear day
          liturgicalDay := day } } := by
  refine property_eq_of_ok ?_ loc
  rw [setProperty_at_of_change? loc hchange, setDates, hday]

/-- One that makes a combination without a day is reported, and does nothing else. -/
theorem enter_of_liturgicalDay_eq_error {cause : CalendarError} (loc : Location)
    (hchange : d.dates.change? name value = some dates)
    (hday : dates.liturgicalDay d.reference = .error cause) :
    d.enter loc (.atom (.property name value)) =
      report { d with last := loc } loc (.date cause) := by
  refine property_eq_of_error ?_ loc
  rw [setProperty_at_of_change? loc hchange, setDates, hday]

end Property

theorem IsBare.findings_finish {d : Draft} (h : d.IsBare) : d.finish.findings = d.findings := by
  have hclose : d.closeAll = d := by
    simp [closeAll, reportIf, h.lookup, h.spans, h.paragraph, h.block]
  have hservice : d.isUndatedService = false := by
    simp [isUndatedService, h.type]
  unfold finish
  dsimp only
  rw [hclose, hservice]
  rfl

end Draft

namespace Source

/-- Nothing is found when a date property is entered. -/
def Takes (source : Source) (d : Draft) : Prop :=
  ∀ before loc head after, source.stream = before ++ .enter loc head :: after → head.SetsDate →
    ((source.draftBefore d before).enter loc head).findings =
      (source.draftBefore d before).findings

/-- The property that makes the first combination without a day is reported and does nothing else.
The parts that are given before it are taken. -/
def Refuses (source : Source) (d : Draft) (g : GivenDate) (default : Reckoning)
    (order : List DatePart) : Prop :=
  ∃ before loc head after given part later cause,
    source.stream = before ++ .enter loc head :: after ∧ order = given ++ part :: later ∧
    g.Gives part head ∧ g.NamesDays default d.reference given ∧
    (g.properties default (given ++ [part])).liturgicalDay d.reference = .error cause ∧
    (source.draftBefore d before).dates = g.properties default given ∧
    (source.draftBefore d before).enter loc head =
      Draft.report { source.draftBefore d before with last := loc } loc (.date cause)

variable {source : Source} {d : Draft} {g : GivenDate} {default : Reckoning}
  {order given : List DatePart} {before after : List Event} {loc : Location} {head : Node.Head}

theorem dates_draftBefore (hreal : g.IsReal) (hdates : d.dates = g.properties default [])
    (hgives : g.GivesInTurn given (before.filterMap Event.entered?))
    (hnames : g.NamesDays default d.reference given) :
    (source.draftBefore d before).dates = g.properties default given ∧
      (source.draftBefore d before).reference = d.reference := by
  have hdating : (source.draftBefore d before).dating =
      d.dating.afterHeads (before.filterMap Event.entered?) :=
    Draft.dating_events (d.tell source.diagnostics) before
  have hafter := hgives.dates_afterHeads hreal (show d.dating.dates = _ from hdates) hnames
  exact ⟨(congrArg Dating.dates hdating).trans hafter,
    (congrArg Dating.reference hdating).trans (Dating.reference_afterHeads _ _)⟩

/-- A node that is entered is entered by an event. -/
theorem exists_stream_eq {hb ha : List (Location × Node.Head)}
    (h : source.heads = hb ++ (loc, head) :: ha) :
    ∃ before after, source.stream = before ++ .enter loc head :: after ∧
      before.filterMap Event.entered? = hb := by
  obtain ⟨first, rest, hstream, rfl, hrest⟩ := List.filterMap_eq_append_iff.1 h
  obtain ⟨skipped, event, after, rfl, hskipped, hevent, -⟩ := List.filterMap_eq_cons_iff.1 hrest
  cases event with
  | exit _ _ => cases hevent
  | enter _ _ =>
    cases hevent
    refine ⟨first ++ skipped, after, by rw [hstream, List.append_assoc], ?_⟩
    rw [List.filterMap_append, List.filterMap_eq_nil_iff.2 hskipped, List.append_nil]

/-- A date property of a source gives one of the parts, those before it the parts before that. -/
theorem exists_gives (hgives : g.GivesInTurn order source.heads)
    (hstream : source.stream = before ++ .enter loc head :: after) (hdate : head.SetsDate) :
    ∃ given part later, order = given ++ part :: later ∧
      g.GivesInTurn given (before.filterMap Event.entered?) ∧ g.Gives part head := by
  rw [heads, hstream, List.filterMap_append, List.filterMap_cons] at hgives
  exact hgives.exists_of_append_cons hdate

/-- Where all combinations name days, every date property makes one of them. -/
theorem exists_change?_of_namesDays (hreal : g.IsReal) (hdates : d.dates = g.properties default [])
    (hgives : g.GivesInTurn order source.heads) (hnames : g.NamesDays default d.reference order)
    (hstream : source.stream = before ++ .enter loc head :: after) (hdate : head.SetsDate) :
    ∃ name value dates day, head = .atom (.property name value) ∧
      (source.draftBefore d before).dates.change? name value = some dates ∧
      dates.liturgicalDay (source.draftBefore d before).reference = .ok day := by
  obtain ⟨given, part, later, rfl, hbefore, hgive⟩ := exists_gives hgives hstream hdate
  obtain ⟨name, value, rfl, hchange⟩ := hgive.exists_change? hreal default given
  obtain ⟨hhere, hreference⟩ := dates_draftBefore hreal hdates hbefore
    (hnames.of_prefix (List.prefix_append given (part :: later)))
  obtain ⟨day, hday⟩ := hnames (given ++ [part]) ⟨later, by simp⟩
  refine ⟨name, value, _, day, rfl, ?_, hreference.symm ▸ hday⟩
  rw [hhere]
  exact hchange

theorem refuses_of_not_namesDays (hreal : g.IsReal) (hdates : d.dates = g.properties default [])
    (hreference : ∃ day, LiturgicalDay.ofDate default d.reference = .ok day)
    (hgives : g.GivesInTurn order source.heads)
    (hnames : ¬g.NamesDays default d.reference order) :
    source.Refuses d g default order := by
  obtain ⟨given, part, later, cause, rfl, hgiven, hcause⟩ :=
    GivenDate.exists_first_of_not_namesDays hreference hnames
  obtain ⟨hb, loc, head, ha, hheads, hbefore, hgive⟩ := hgives.exists_eq_append_cons
  obtain ⟨before, after, hstream, rfl⟩ := exists_stream_eq hheads
  obtain ⟨hhere, href⟩ := dates_draftBefore hreal hdates hbefore hgiven
  obtain ⟨name, value, rfl, hchange⟩ := hgive.exists_change? hreal default given
  refine ⟨before, loc, _, after, given, part, later, cause, hstream, rfl, hgive, hgiven, hcause,
    hhere, ?_⟩
  exact Draft.enter_of_liturgicalDay_eq_error loc (hhere.symm ▸ hchange) (href.symm ▸ hcause)

/-- A source of nothing but date properties, which all make combinations that name days, leaves
nothing open, and nothing is found wrong with it. -/
theorem isBare_steps (hreal : g.IsReal) (hdates : d.dates = g.properties default [])
    (hbare : d.IsBare) (hgives : g.GivesInTurn order source.heads)
    (hnames : g.NamesDays default d.reference order)
    (honly : ∀ event ∈ source.stream, event.head.SetsDate) :
    (source.steps d).IsBare ∧
      (source.steps d).findings = (d.tell source.diagnostics).findings := by
  have hbefore : ∀ before after, source.stream = before ++ after →
      (source.draftBefore d before).IsBare ∧
        (source.draftBefore d before).findings = (d.tell source.diagnostics).findings := by
    intro before
    induction before using List.reverseRecOn with
    | nil =>
      intro after hstream
      exact ⟨⟨hbare.paragraph, hbare.spans, hbare.block, hbare.lookup, hbare.type⟩, rfl⟩
    | append_singleton before event ih =>
      intro after hstream
      rw [List.append_assoc, List.singleton_append] at hstream
      obtain ⟨hhere, hfindings⟩ := ih _ hstream
      have hdate := honly event (by rw [hstream]; simp)
      have hnext : source.draftBefore d (before ++ [event]) =
          (source.draftBefore d before).event event :=
        Draft.events_append _ before [event]
      rw [hnext]
      cases event with
      | exit loc head =>
        cases head with
        | atom a => exact ⟨hhere, hfindings⟩
        | group group => exact absurd hdate id
      | enter loc head =>
        obtain ⟨name, value, dates, day, rfl, hchange, hday⟩ :=
          exists_change?_of_namesDays hreal hdates hgives hnames hstream hdate
        have henter := Draft.enter_of_liturgicalDay_eq_ok loc hchange hday
        rw [Draft.event, henter]
        exact ⟨⟨hhere.paragraph, hhere.spans, hhere.block, hhere.lookup, hhere.type⟩, hfindings⟩
  exact hbefore source.stream [] (List.append_nil _).symm

/-- Once the whole date is given, the document shows it. -/
theorem shows_steps (hreal : g.IsReal) (horder : order.Perm DatePart.all)
    (hconsistent : d.dateState.Consistent) (hdates : d.dates = g.properties default [])
    (hgives : g.GivesInTurn order source.heads)
    (hnames : g.NamesDays default d.reference order) :
    (source.steps d).finish.document.Shows g := by
  have hfinish := Draft.dateState_finish (source.steps d)
  have hsteps : (source.steps d).dateState.Consistent :=
    Draft.consistent_events (show (d.tell source.diagnostics).dateState.Consistent from hconsistent)
      source.stream
  have hshows := Draft.showsDates_of_consistent (hfinish.symm ▸ hsteps)
  obtain ⟨hgiven, -⟩ := dates_draftBefore hreal hdates hgives hnames
  have hwhole : (source.steps d).finish.dates =
      ⟨g.calendar, some g.label.month, some g.label.day, some g.label.year⟩ :=
    (congrArg DateState.dates hfinish).trans
      (hgiven.trans (GivenDate.properties_of_perm horder))
  rw [hwhole] at hshows
  obtain ⟨-, -, hyear, hlabel, -⟩ := hshows.dated _ _ rfl rfl
  obtain ⟨hday, hsame⟩ := hlabel _ rfl
  refine ⟨hshows.calendar, ?_, hshows.month, hshows.day, ?_⟩
  · rw [hyear, hsame]
  · rw [← hday, hshows.calendar]

end Source

namespace Task

variable {σ : Type} {index : Index σ} {state : σ} {g : GivenDate} {task : Task}
  {order : List DatePart} {first : LiturgicalDay}

theorem exists_compile_eq_ok {d : Draft} (hindex : index.NeverFails state)
    (hstart : Draft.start task.name task.defaults.calendar task.defaults.date = .ok d) :
    ∃ c, (task.compile index state).1 = .ok c ∧
      c.document = (task.source.steps d).finish.document ∧
      ∀ diagnostics, (task.source.steps d).finish.findings = diagnostics.map .told →
        c.errors = Diagnostic.tellAll c.document.id diagnostics := by
  obtain ⟨settled, hsettled⟩ :=
    Finding.exists_settle_eq_ok (task.source.steps d).finish.findings hindex
  have hcompile : task.compile index state =
      Compilation.ofDraft index (task.source.steps d) state := by
    rw [compile_eq_build, Compilation.build, hstart]
  refine ⟨⟨(task.source.steps d).finish.document,
    Diagnostic.tellAll (task.source.steps d).finish.document.id settled⟩, ?_, rfl, ?_⟩
  · rw [hcompile, Compilation.ofDraft_apply, hsettled]
    rfl
  · intro diagnostics htold
    have hask := congrArg Prod.fst (congrFun (Finding.ask_map_told index diagnostics) state)
    rw [← htold] at hask
    obtain rfl : settled = diagnostics := Except.ok.inj (hsettled.symm.trans hask)
    rfl

/-- A template that gives a whole date by its four date properties, each once, is for that date and
has nothing wrong with them if every combination of them on the way names a liturgical day. If some
do not, the property that makes the first of these is reported and discarded. No order of the
properties has such a combination just if the reference date is of a liturgical year in the calendar
that is given, the label is that of a day in the default calendar too, and in both its month and day
come from the reference date on. -/
theorem compile_of_givesInTurn (hreal : g.IsReal) (horder : order.Perm DatePart.all)
    (hgives : g.GivesInTurn order task.source.heads) (hindex : index.NeverFails state)
    (hfirst : LiturgicalDay.ofDate task.defaults.calendar task.defaults.date = .ok first) :
    let default := task.defaults.calendar
    let reference := task.defaults.date
    ∃ d c, Draft.start task.name default reference = .ok d ∧
      (task.compile index state).1 = .ok c ∧
      (g.NamesDays default reference order →
        c.document.Shows g ∧ task.source.Takes d ∧
        ((∀ event ∈ task.source.stream, event.head.SetsDate) →
          c.errors = Diagnostic.tellAll c.document.id task.source.diagnostics)) ∧
      (¬g.NamesDays default reference order → task.source.Refuses d g default order) ∧
      ((∀ other, other.Perm DatePart.all → g.NamesDays default reference other) ↔
        IsLiturgicalYear (g.calendar.label reference).year ∧ g.label.NamesDay default ∧
          g.calendar.Comes g.label.month g.label.day reference ∧
          default.Comes g.label.month g.label.day reference) := by
  intro default reference
  obtain ⟨d, hstart, -⟩ := Draft.exists_start_eq_ok hfirst task.name
  obtain ⟨c, hc, hdocument, herrors⟩ := exists_compile_eq_ok hindex hstart
  have hconsistent := Draft.consistent_start hstart
  have hnone := Compilation.findings_start hstart
  have hfacts : d.dates = g.properties default [] ∧ d.reference = reference ∧ d.IsBare := by
    obtain ⟨day, -, rfl⟩ := Draft.eq_of_start_eq_ok hstart
    exact ⟨rfl, rfl, rfl, rfl, rfl, rfl, by simp [Document.empty]⟩
  obtain ⟨hdates, hreference, hbare⟩ := hfacts
  refine ⟨d, c, hstart, hc, fun hnames => ⟨?_, ?_, ?_⟩, fun hnames => ?_, ?_⟩
  · rw [hdocument]
    exact Source.shows_steps hreal horder hconsistent hdates hgives (hreference.symm ▸ hnames)
  · intro before loc head after hstream hdate
    obtain ⟨name, value, dates, day, rfl, hchange, hday⟩ := Source.exists_change?_of_namesDays
      hreal hdates hgives (hreference.symm ▸ hnames) hstream hdate
    rw [Draft.enter_of_liturgicalDay_eq_ok loc hchange hday]
  · intro honly
    obtain ⟨hend, hfindings⟩ := Source.isBare_steps hreal hdates hbare hgives
      (hreference.symm ▸ hnames) honly
    refine herrors _ ?_
    rw [hend.findings_finish, hfindings, Compilation.findings_tell hnone]
  · exact Source.refuses_of_not_namesDays hreal hdates (hreference.symm ▸ ⟨first, hfirst⟩) hgives
      (hreference.symm ▸ hnames)
  · exact GivenDate.forall_namesDays_iff hreal
      (LiturgicalDay.exists_ofDate_eq_ok_iff.1 ⟨first, hfirst⟩)

/-- 29 February 1900 of the Julian calendar, which has no such label in the Gregorian one. -/
def julianLeapDay : GivenDate :=
  ⟨.julian, ⟨1900, 2, 29⟩⟩

theorem isReal_julianLeapDay : julianLeapDay.IsReal :=
  ⟨by decide, by constructor <;> decide⟩

def calendarFirst : Task :=
  ⟨"t", ⟨.gregorian, ⟨737425⟩⟩, .text "Calendar = \"Julian\"\nYear = 1900\nMonth = 2\nDay = 29"⟩

def calendarLast : Task :=
  ⟨"t", ⟨.gregorian, ⟨737425⟩⟩, .text "Year = 1900\nMonth = 2\nDay = 29\nCalendar = \"Julian\""⟩

theorem compile_of_givesInTurn_calendarFirst :
    ∃ c, (calendarFirst.compile Index.full ()).1 = .ok c ∧ c.errors = [] ∧
      c.document.Shows julianLeapDay := by
  have hstream : calendarFirst.source.stream =
      [.enter ⟨1, 1⟩ (.atom (.property "Calendar" (.string "Julian"))),
        .exit ⟨1, 1⟩ (.atom (.property "Calendar" (.string "Julian"))),
        .enter ⟨2, 1⟩ (.atom (.property "Year" (.integer 1900))),
        .exit ⟨2, 1⟩ (.atom (.property "Year" (.integer 1900))),
        .enter ⟨3, 1⟩ (.atom (.property "Month" (.integer 2))),
        .exit ⟨3, 1⟩ (.atom (.property "Month" (.integer 2))),
        .enter ⟨4, 1⟩ (.atom (.property "Day" (.integer 29))),
        .exit ⟨4, 1⟩ (.atom (.property "Day" (.integer 29)))] := by
    decide +kernel
  have hgives : julianLeapDay.GivesInTurn DatePart.all calendarFirst.source.heads := by
    rw [Source.heads, hstream]
    exact .give (.calendar (by decide)) (.give .year (.give .month (.give .day .nil)))
  have hnames : julianLeapDay.NamesDays .gregorian ⟨737425⟩ DatePart.all := by
    intro given hgiven
    have hinits : given = [] ∨ given = [.calendar] ∨ given = [.calendar, .year] ∨
        given = [.calendar, .year, .month] ∨ given = DatePart.all := by
      simpa [DatePart.all] using (List.mem_inits given DatePart.all).2 hgiven
    rcases hinits with rfl | rfl | rfl | rfl | rfl
    all_goals exact ⟨_, rfl⟩
  have hfirst : LiturgicalDay.ofDate .gregorian ⟨737425⟩ = .ok _ := rfl
  obtain ⟨d, c, -, hc, hshows, -, -⟩ := compile_of_givesInTurn isReal_julianLeapDay (.refl _)
    hgives (Index.neverFails_full ()) hfirst
  obtain ⟨hdocument, -, herrors⟩ := hshows hnames
  have honly : ∀ event ∈ calendarFirst.source.stream, event.head.SetsDate := by
    rw [hstream]
    simp [Event.head, Node.Head.SetsDate]
  have hread : calendarFirst.source.diagnostics = [] := by decide +kernel
  refine ⟨c, hc, ?_, hdocument⟩
  rw [herrors honly, hread]
  simp [Diagnostic.tellAll, Diagnostic.sort]

/-- With the calendar last, the day is refused, since the Gregorian calendar has no such day. -/
theorem not_shows_calendarLast :
    julianLeapDay.IsReal ∧
      (∃ order, order.Perm DatePart.all ∧
        julianLeapDay.GivesInTurn order calendarLast.source.heads) ∧
      ∃ c, (calendarLast.compile Index.full ()).1 = .ok c ∧
        c.errors = [⟨"t", ⟨3, 1⟩, "invalid date 1900-02-29 in the gregorian calendar",
          .semantic⟩] ∧
        c.document.calendar = .julian ∧ c.document.day = none ∧
        ¬c.document.Shows julianLeapDay := by
  have hheads : calendarLast.source.heads =
      [(⟨1, 1⟩, .atom (.property "Year" (.integer 1900))),
        (⟨2, 1⟩, .atom (.property "Month" (.integer 2))),
        (⟨3, 1⟩, .atom (.property "Day" (.integer 29))),
        (⟨4, 1⟩, .atom (.property "Calendar" (.string "Julian")))] := by
    decide +kernel
  have hgives : julianLeapDay.GivesInTurn [.year, .month, .day, .calendar]
      calendarLast.source.heads := by
    rw [hheads]
    exact .give .year (.give .month (.give .day (.give (.calendar (by decide)) .nil)))
  have hcompiled : (calendarLast.compile Index.full ()).1.toOption.map
      (fun c => (c.errors, c.document.calendar, c.document.day)) =
      some ([⟨"t", ⟨3, 1⟩, "invalid date 1900-02-29 in the gregorian calendar", .semantic⟩],
        .julian, none) := by
    decide +kernel
  obtain ⟨d, hstart⟩ : ∃ d, Draft.start "t" .gregorian ⟨737425⟩ = .ok d := ⟨_, rfl⟩
  obtain ⟨c, hc, -⟩ := exists_compile_eq_ok (Index.neverFails_full ())
    (show Draft.start calendarLast.name calendarLast.defaults.calendar calendarLast.defaults.date =
      .ok d from hstart)
  rw [hc] at hcompiled
  obtain ⟨herrors, hcalendar, hday⟩ : c.errors = [_] ∧ c.document.calendar = .julian ∧
      c.document.day = none := by
    simpa only [Except.toOption, Option.map_some, Option.some.injEq, Prod.mk.injEq] using hcompiled
  refine ⟨isReal_julianLeapDay, ⟨_, by decide, hgives⟩, c, hc, herrors, hcalendar, hday, ?_⟩
  intro hshows
  have hgiven := hshows.day
  rw [hday] at hgiven
  cases hgiven

end Task

end Typikon
