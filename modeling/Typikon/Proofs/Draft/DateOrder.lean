import Mathlib.Data.List.Induction
import Typikon.Proofs.Calendar.Recurrence
import Typikon.Proofs.Draft.DateState

/-!
The order of the date properties. A template that gives a whole date, calendar, year, month and day,
passes on the way through combinations of some of them with the defaults. Each has to name a
liturgical day, or else the property that makes it is refused; if all do, what is in force in the
end is the whole date, whatever the order.
-/

namespace Typikon

inductive DatePart where
  | calendar
  | year
  | month
  | day
deriving DecidableEq

def DatePart.all : List DatePart :=
  [.calendar, .year, .month, .day]

/-- A date that a template gives by its properties: a calendar, and a label in it. -/
structure GivenDate where
  calendar : Reckoning
  label : Label

namespace GivenDate

/-- The date is a day of a liturgical year. -/
structure IsReal (g : GivenDate) : Prop where
  year : IsLiturgicalYear g.label.year
  names : g.label.NamesDay g.calendar

/-- The date properties in force when some parts of a date are given, over a default calendar. -/
def properties (g : GivenDate) (default : Reckoning) (given : List DatePart) : DateProperties where
  calendar := if .calendar ∈ given then g.calendar else default
  month := if .month ∈ given then some g.label.month else none
  day := if .day ∈ given then some g.label.day else none
  year := if .year ∈ given then some g.label.year else none

/-- A node is the property that gives a part of a date. -/
inductive Gives (g : GivenDate) : DatePart → Node.Head → Prop
  | calendar {text : String} (h : Reckoning.vocabulary.find? text = some g.calendar) :
    Gives g .calendar (.atom (.property "Calendar" (.string text)))
  | year : Gives g .year (.atom (.property "Year" (.integer g.label.year)))
  | month : Gives g .month (.atom (.property "Month" (.integer g.label.month)))
  | day : Gives g .day (.atom (.property "Day" (.integer g.label.day)))

/-- Among nodes that are entered one after another, the properties that set the date are those that
give listed parts of a date, in this order. -/
inductive GivesInTurn (g : GivenDate) : List DatePart → List (Location × Node.Head) → Prop
  | nil : GivesInTurn g [] []
  | skip {order : List DatePart} {loc : Location} {head : Node.Head}
      {heads : List (Location × Node.Head)} (hskip : ¬head.SetsDate)
      (hrest : GivesInTurn g order heads) : GivesInTurn g order ((loc, head) :: heads)
  | give {part : DatePart} {order : List DatePart} {loc : Location} {head : Node.Head}
      {heads : List (Location × Node.Head)} (hgive : g.Gives part head)
      (hrest : GivesInTurn g order heads) : GivesInTurn g (part :: order) ((loc, head) :: heads)

/-- Every combination that an order of the parts of a date passes through names a liturgical day. -/
def NamesDays (g : GivenDate) (default : Reckoning) (reference : CivilDate)
    (order : List DatePart) : Prop :=
  ∀ given, given <+: order → ∃ day, (g.properties default given).liturgicalDay reference = .ok day

variable {g : GivenDate} {default : Reckoning}

theorem properties_of_perm {order : List DatePart} (h : order.Perm DatePart.all) :
    g.properties default order =
      ⟨g.calendar, some g.label.month, some g.label.day, some g.label.year⟩ := by
  simp [properties, h.mem_iff, DatePart.all]

/-- The property that gives a part adds it to the parts that are given. -/
theorem Gives.exists_change? {part : DatePart} {head : Node.Head} (h : g.Gives part head)
    (hreal : g.IsReal) (default : Reckoning) (given : List DatePart) :
    ∃ name value, head = .atom (.property name value) ∧
      (g.properties default given).change? name value =
        some (g.properties default (given ++ [part])) := by
  obtain ⟨hyear, hmonth, hmonth', hday, hlength⟩ := hreal
  have hlong := Nat.le_trans hlength (Reckoning.daysInMonth_le _ _ _)
  cases h with
  | calendar hcalendar =>
    refine ⟨_, _, rfl, ?_⟩
    have hword : Property.ofWord? "Calendar" = some (.text .calendar) := by decide
    simp [DateProperties.change?, hword, hcalendar, properties]
  | year =>
    refine ⟨_, _, rfl, ?_⟩
    have hword : Property.ofWord? "Year" = some (.number .year) := by decide
    have hzero : g.label.year ≠ 0 := by
      obtain ⟨hlow, -⟩ := hyear
      omega
    simp [DateProperties.change?, hword, hzero, hyear, properties]
  | month =>
    refine ⟨_, _, rfl, ?_⟩
    have hword : Property.ofWord? "Month" = some (.number .month) := by decide
    have hrange : (1 : Int) ≤ g.label.month ∧ (g.label.month : Int) ≤ 12 := by omega
    simp [DateProperties.change?, hword, hrange, properties]
  | day =>
    refine ⟨_, _, rfl, ?_⟩
    have hword : Property.ofWord? "Day" = some (.number .day) := by decide
    have hrange : (1 : Int) ≤ g.label.day ∧ (g.label.day : Int) ≤ 31 := by omega
    simp [DateProperties.change?, hword, hrange, properties]

namespace GivesInTurn

/-- A date property among the nodes gives one of the parts, and those before it the parts before
that. -/
theorem exists_of_append_cons {order : List DatePart} {before after : List (Location × Node.Head)}
    {loc : Location} {head : Node.Head}
    (h : g.GivesInTurn order (before ++ (loc, head) :: after)) (hdate : head.SetsDate) :
    ∃ given part later, order = given ++ part :: later ∧ g.GivesInTurn given before ∧
      g.Gives part head := by
  induction before generalizing order with
  | nil =>
    cases h with
    | skip hskip _ => exact absurd hdate hskip
    | give hgive _ => exact ⟨[], _, _, rfl, .nil, hgive⟩
  | cons first before ih =>
    cases h with
    | skip hskip hrest =>
      obtain ⟨given, part, later, rfl, hbefore, hgive⟩ := ih hrest
      exact ⟨given, part, later, rfl, .skip hskip hbefore, hgive⟩
    | give hfirst hrest =>
      obtain ⟨given, part, later, rfl, hbefore, hgive⟩ := ih hrest
      exact ⟨_ :: given, part, later, rfl, .give hfirst hbefore, hgive⟩

/-- Every part is given by one of the nodes, after the parts before it. -/
theorem exists_eq_append_cons {given later : List DatePart} {part : DatePart}
    {heads : List (Location × Node.Head)} (h : g.GivesInTurn (given ++ part :: later) heads) :
    ∃ before loc head after, heads = before ++ (loc, head) :: after ∧
      g.GivesInTurn given before ∧ g.Gives part head := by
  induction heads generalizing given with
  | nil => cases given <;> cases h
  | cons first heads ih =>
    generalize horder : given ++ part :: later = order at h
    cases h with
    | skip hskip hrest =>
      obtain ⟨before, loc, head, after, rfl, hbefore, hgive⟩ := ih (horder ▸ hrest)
      exact ⟨_ :: before, loc, head, after, rfl, .skip hskip hbefore, hgive⟩
    | give hgive hrest =>
      cases given with
      | nil =>
        obtain ⟨rfl, rfl⟩ := List.cons.inj horder
        exact ⟨[], _, _, heads, rfl, .nil, hgive⟩
      | cons _ given =>
        obtain ⟨rfl, rfl⟩ := List.cons.inj horder
        obtain ⟨before, loc, head, after, rfl, hbefore, hlater⟩ := ih hrest
        exact ⟨_ :: before, loc, head, after, rfl, .give hgive hbefore, hlater⟩

/-- If all combinations on the way name a day, the parts are in force in the end. -/
theorem dates_afterHeads {order given : List DatePart} {heads : List (Location × Node.Head)}
    (h : g.GivesInTurn order heads) (hreal : g.IsReal) {t : Dating}
    (ht : t.dates = g.properties default given)
    (hnames : ∀ more, more <+: order →
      ∃ day, (g.properties default (given ++ more)).liturgicalDay t.reference = .ok day) :
    (t.afterHeads heads).dates = g.properties default (given ++ order) := by
  induction h generalizing t given with
  | nil =>
    rw [List.append_nil]
    exact ht
  | skip hskip _ ih =>
    rw [Dating.afterHeads_cons, Dating.afterHead_of_not_setsDate t hskip]
    exact ih ht hnames
  | @give part order loc head heads hgive _ ih =>
    obtain ⟨name, value, rfl, hchange⟩ := hgive.exists_change? hreal default given
    obtain ⟨day, hday⟩ := hnames [part] ⟨order, rfl⟩
    let next : Dating := { t with dates := g.properties default (given ++ [part]), day }
    have hset : t.set name value = t.adopt (g.properties default (given ++ [part])) := by
      rw [Dating.set, ht, hchange]
    have hadopt : t.adopt (g.properties default (given ++ [part])) = next := by
      rw [Dating.adopt, hday]
    have hafter : t.afterHead (.atom (.property name value)) = next := hset.trans hadopt
    have hdates : next.dates = g.properties default (given ++ [part]) := rfl
    have hmore : ∀ more, more <+: order →
        ∃ day, (g.properties default (given ++ [part] ++ more)).liturgicalDay next.reference =
          .ok day := by
      intro more hmore
      rw [← List.append_cons]
      exact hnames (part :: more) (List.cons_prefix_cons.2 ⟨rfl, hmore⟩)
    rw [Dating.afterHeads_cons, hafter, List.append_cons]
    exact ih hdates hmore

end GivesInTurn

/-! ### Combinations that name days -/

theorem NamesDays.of_prefix {reference : CivilDate} {order given : List DatePart}
    (h : g.NamesDays default reference order) (hgiven : given <+: order) :
    g.NamesDays default reference given :=
  fun first hfirst => h first (hfirst.trans hgiven)

/-- An order that passes through a combination without a day passes through a first one. -/
theorem exists_first_of_not_namesDays {reference : CivilDate} {order : List DatePart}
    (hreference : ∃ day, LiturgicalDay.ofDate default reference = .ok day)
    (h : ¬g.NamesDays default reference order) :
    ∃ given part later cause, order = given ++ part :: later ∧
      g.NamesDays default reference given ∧
      (g.properties default (given ++ [part])).liturgicalDay reference = .error cause := by
  induction order using List.reverseRecOn with
  | nil =>
    refine absurd (fun given hgiven => ?_) h
    obtain rfl := List.prefix_nil.1 hgiven
    exact hreference
  | append_singleton order part ih =>
    by_cases horder : g.NamesDays default reference order
    · cases hlast : (g.properties default (order ++ [part])).liturgicalDay reference with
      | error cause => exact ⟨order, part, [], cause, rfl, horder, hlast⟩
      | ok day =>
        refine absurd (fun given hgiven => ?_) h
        rcases List.prefix_concat_iff.1 hgiven with rfl | hbefore
        · exact ⟨day, hlast⟩
        · exact horder given hbefore
    · obtain ⟨given, first, later, cause, rfl, hgiven, hcause⟩ := ih horder
      exact ⟨given, first, later ++ [part], cause, by simp, hgiven, hcause⟩

section Combinations

variable {reference : CivilDate} {given : List DatePart}

theorem exists_liturgicalDay_of_undated (h : .month ∉ given ∨ .day ∉ given) :
    (∃ day, (g.properties default given).liturgicalDay reference = .ok day) ↔
      IsLiturgicalYear ((g.properties default given).calendar.label reference).year := by
  have hundated : (g.properties default given).month = none ∨
      (g.properties default given).day = none := by
    simpa [properties] using h
  rw [DateProperties.liturgicalDay_of_undated hundated]
  exact LiturgicalDay.exists_ofDate_eq_ok_iff

theorem exists_liturgicalDay_of_dated (hmonth : .month ∈ given) (hday : .day ∈ given)
    (hyear : .year ∈ given) :
    (∃ day, (g.properties default given).liturgicalDay reference = .ok day) ↔
      IsLiturgicalYear g.label.year ∧ g.label.NamesDay (g.properties default given).calendar := by
  rw [DateProperties.liturgicalDay_of_year (if_pos hmonth) (if_pos hday) (if_pos hyear)]
  exact LiturgicalDay.exists_ofLabel_iff

theorem exists_liturgicalDay_of_yearless (hmonth : .month ∈ given) (hday : .day ∈ given)
    (hyear : .year ∉ given) :
    (∃ day, (g.properties default given).liturgicalDay reference = .ok day) ↔
      IsLiturgicalYear ((g.properties default given).calendar.label reference).year ∧
        (g.properties default given).calendar.Comes g.label.month g.label.day reference := by
  rw [DateProperties.liturgicalDay_of_no_year (if_pos hmonth) (if_pos hday) (if_neg hyear)]
  exact LiturgicalDay.exists_ofMonthDay_iff

/-- Every order passes through days only, just if the reference date is of a liturgical year in the
calendar that is given, the label is that of a day in the default calendar too, and in both
calendars its month and day come. -/
theorem forall_namesDays_iff (hreal : g.IsReal)
    (hreference : IsLiturgicalYear (default.label reference).year) :
    (∀ order, order.Perm DatePart.all → g.NamesDays default reference order) ↔
      IsLiturgicalYear (g.calendar.label reference).year ∧ g.label.NamesDay default ∧
        g.calendar.Comes g.label.month g.label.day reference ∧
        default.Comes g.label.month g.label.day reference := by
  constructor
  · intro h
    have hcalendarFirst := h [.calendar, .month, .day, .year] (by decide)
    have hcalendarLast := h [.year, .month, .day, .calendar] (by decide)
    have hyearLast := h [.month, .day, .year, .calendar] (by decide)
    obtain ⟨hyear, hcomes⟩ := (exists_liturgicalDay_of_yearless (by decide) (by decide)
      (by decide)).1 (hcalendarFirst [.calendar, .month, .day] (by decide))
    obtain ⟨-, hnames⟩ := (exists_liturgicalDay_of_dated (by decide) (by decide)
      (by decide)).1 (hcalendarLast [.year, .month, .day] (by decide))
    obtain ⟨-, hcomes'⟩ := (exists_liturgicalDay_of_yearless (by decide) (by decide)
      (by decide)).1 (hyearLast [.month, .day] (by decide))
    exact ⟨hyear, hnames, hcomes, hcomes'⟩
  · rintro ⟨hyear, hnames, hcomes, hcomes'⟩ order - given -
    have hcalendar : (g.properties default given).calendar = g.calendar ∨
        (g.properties default given).calendar = default := by
      by_cases hgiven : .calendar ∈ given
      · exact .inl (if_pos hgiven)
      · exact .inr (if_neg hgiven)
    obtain ⟨hyearHere, hnamesHere, hcomesHere⟩ :
        IsLiturgicalYear ((g.properties default given).calendar.label reference).year ∧
          g.label.NamesDay (g.properties default given).calendar ∧
          (g.properties default given).calendar.Comes g.label.month g.label.day reference := by
      rcases hcalendar with hgiven | hdefault
      · rw [hgiven]
        exact ⟨hyear, hreal.names, hcomes⟩
      · rw [hdefault]
        exact ⟨hreference, hnames, hcomes'⟩
    by_cases hmonth : .month ∈ given
    · by_cases hday : .day ∈ given
      · by_cases hyearGiven : .year ∈ given
        · exact (exists_liturgicalDay_of_dated hmonth hday hyearGiven).2
            ⟨hreal.year, hnamesHere⟩
        · exact (exists_liturgicalDay_of_yearless hmonth hday hyearGiven).2
            ⟨hyearHere, hcomesHere⟩
      · exact (exists_liturgicalDay_of_undated (.inr hday)).2 hyearHere
    · exact (exists_liturgicalDay_of_undated (.inl hmonth)).2 hyearHere

end Combinations

end GivenDate

end Typikon
