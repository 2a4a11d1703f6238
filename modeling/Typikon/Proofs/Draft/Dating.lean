import Typikon.Draft.Finish

/-!
The day that a draft is for. Only a property that sets the calendar, the month, the day or the year
can change it, and only if the properties then name a day that exists.
-/

namespace Typikon

namespace DateProperties

/-- The date properties that a property of a template makes of others, if it sets one of them and
its value is in range. -/
def change? (p : DateProperties) (name : String) (value : Value) : Option DateProperties :=
  match Property.ofWord? name, value with
  | some (.text .calendar), .string s =>
    (Reckoning.vocabulary.find? s).map fun calendar => { p with calendar }
  | some (.number .month), .integer n =>
    if 1 ≤ n ∧ n ≤ 12 then some { p with month := some n.toNat } else none
  | some (.number .day), .integer n =>
    if 1 ≤ n ∧ n ≤ 31 then some { p with day := some n.toNat } else none
  | some (.number .year), .integer n =>
    if n = 0 then some { p with year := none }
    else if IsLiturgicalYear n then some { p with year := some n }
    else none
  | _, _ => none

end DateProperties

/-- What settles the day at some place of a template: the reference date, the date properties that
are in force, and the day that they come to. -/
structure Dating where
  reference : CivilDate
  dates : DateProperties
  day : LiturgicalDay

namespace Dating

def initial (calendar : Reckoning) (reference : CivilDate) (day : LiturgicalDay) : Dating :=
  ⟨reference, ⟨calendar, none, none, none⟩, day⟩

/-- What other date properties put in force. Those that name no day leave all as it is. -/
def adopt (t : Dating) (dates : DateProperties) : Dating :=
  match dates.liturgicalDay t.reference with
  | .ok day => { t with dates, day }
  | .error _ => t

def set (t : Dating) (name : String) (value : Value) : Dating :=
  match t.dates.change? name value with
  | some dates => t.adopt dates
  | none => t

end Dating

/-- What a draft has of its date: what settles its day, and what its document shows of that. -/
structure DateState where
  reference : CivilDate
  dates : DateProperties
  calendar : Reckoning
  year : Option Int
  month : Option Nat
  day : Option Nat
  liturgicalDay : LiturgicalDay

namespace DateState

def dating (s : DateState) : Dating :=
  ⟨s.reference, s.dates, s.liturgicalDay⟩

/-- Other date properties and what a document shows of them, if they name a day. -/
def adopt (s : DateState) (dates : DateProperties) : DateState :=
  match dates.liturgicalDay s.reference with
  | .ok liturgicalDay =>
    { reference := s.reference
      dates
      calendar := dates.calendar
      year := dates.shownYear liturgicalDay
      month := dates.month
      day := dates.day
      liturgicalDay }
  | .error _ => s

def set (s : DateState) (name : String) (value : Value) : DateState :=
  match s.dates.change? name value with
  | some dates => s.adopt dates
  | none => s

theorem dating_set (s : DateState) (name : String) (value : Value) :
    (s.set name value).dating = s.dating.set name value := by
  have hdates : s.dating.dates = s.dates := rfl
  have hreference : s.dating.reference = s.reference := rfl
  unfold set Dating.set
  simp only [hdates]
  cases s.dates.change? name value with
  | none => rfl
  | some dates =>
    simp only [adopt, Dating.adopt, hreference]
    cases dates.liturgicalDay s.reference <;> rfl

end DateState

namespace Draft

def dateState (d : Draft) : DateState where
  reference := d.reference
  dates := d.dates
  calendar := d.document.calendar
  year := d.document.year
  month := d.document.month
  day := d.document.day
  liturgicalDay := d.document.liturgicalDay

def dating (d : Draft) : Dating :=
  ⟨d.reference, d.dates, d.document.liturgicalDay⟩

/-- Setting a property leaves a draft alone apart from its dates and its document, and the document
apart from its paragraphs and its layout. -/
structure SameFrame (d next : Draft) : Prop where
  rest : next = { d with dates := next.dates, document := next.document }
  paragraphs : next.document.paragraphs = d.document.paragraphs
  layout : next.document.pdf.layout = d.document.pdf.layout

theorem sameFrame_setDates {d next : Draft} {dates : DateProperties}
    (h : d.setDates dates = .ok next) : d.SameFrame next := by
  unfold setDates at h
  cases hday : dates.liturgicalDay d.reference with
  | error cause => simp [hday] at h
  | ok day =>
    simp only [hday, Except.ok.injEq] at h
    exact h ▸ ⟨rfl, rfl, rfl⟩

theorem sameFrame_setText {d next : Draft} {s : String} {property : TextProperty}
    (h : d.setText s property = .ok next) : d.SameFrame next := by
  unfold setText setId at h
  split at h
  case h_4 =>
    split at h
    · exact sameFrame_setDates h
    · cases h
  all_goals
    repeat' split at h
    all_goals cases h
    all_goals exact ⟨rfl, rfl, rfl⟩

theorem sameFrame_setNumber {d next : Draft} {n : Int} {property : NumberProperty}
    (h : d.setNumber n property = .ok next) : d.SameFrame next := by
  unfold setNumber at h
  split at h
  case h_4 =>
    split at h
    · cases h
      exact ⟨rfl, rfl, rfl⟩
    · cases h
  all_goals
    repeat' split at h
    all_goals first | exact sameFrame_setDates h | cases h

theorem sameFrame_setProperty {d next : Draft} {name : String} {value : Value}
    (h : d.setProperty name value = .ok next) : d.SameFrame next := by
  unfold setProperty at h
  split at h
  · cases h
  · exact sameFrame_setText h
  · cases h
  · exact sameFrame_setNumber h
  · cases h

theorem property_eq_of_error {d : Draft} {name : String} {value : Value} {problem : Problem}
    (h : d.setProperty name value = .error problem) (loc : Location) :
    d.property loc name value = d.report loc problem := by
  simp [property, h]

theorem property_eq_of_ok {d next : Draft} {name : String} {value : Value}
    (h : d.setProperty name value = .ok next) (loc : Location) :
    d.property loc name value = next := by
  simp [property, h]

theorem setProperty_of_change?_eq_some {d : Draft} {name : String} {value : Value}
    {dates : DateProperties} (h : d.dates.change? name value = some dates) :
    d.setProperty name value = d.setDates dates := by
  unfold DateProperties.change? at h
  unfold setProperty
  split at h
  next s hword =>
    obtain ⟨calendar, hcalendar, rfl⟩ := Option.map_eq_some_iff.1 h
    simp [hword, setText, Reckoning.read, hcalendar]
  next n hword =>
    obtain ⟨hrange, hdates⟩ := Option.ite_none_right_eq_some.1 h
    obtain rfl := Option.some.inj hdates
    simp [hword, setNumber, hrange]
  next n hword =>
    obtain ⟨hrange, hdates⟩ := Option.ite_none_right_eq_some.1 h
    obtain rfl := Option.some.inj hdates
    simp [hword, setNumber, hrange]
  next n hword =>
    by_cases hzero : n = 0
    · obtain rfl : _ = dates := by simpa [hzero] using h
      simp [hword, setNumber, hzero]
    · rw [if_neg hzero] at h
      obtain ⟨hrange, hdates⟩ := Option.ite_none_right_eq_some.1 h
      obtain rfl := Option.some.inj hdates
      simp [hword, setNumber, hzero, hrange]
  · cases h

theorem dateState_of_change?_eq_none {d next : Draft} {name : String} {value : Value}
    (h : d.dates.change? name value = none) (hset : d.setProperty name value = .ok next) :
    next.dateState = d.dateState := by
  unfold DateProperties.change? at h
  unfold setProperty at hset
  split at hset
  · cases hset
  next property s hword =>
    cases property with
    | calendar =>
      simp only [hword, Option.map_eq_none_iff] at h
      simp [setText, Reckoning.read, h] at hset
    | _ =>
      simp only [setText, setId] at hset
      repeat' split at hset
      all_goals cases hset
      all_goals rfl
  · cases hset
  next property n hword =>
    cases property with
    | pageNumber =>
      simp only [setNumber] at hset
      split at hset
      · cases hset
        rfl
      · cases hset
    | _ =>
      simp only [hword] at h
      repeat' split at h
      all_goals simp_all [setNumber]
  · cases hset

theorem dateState_property (d : Draft) (loc : Location) (name : String) (value : Value) :
    (d.property loc name value).dateState = d.dateState.set name value := by
  have hdates : d.dateState.dates = d.dates := rfl
  have hreference : d.dateState.reference = d.reference := rfl
  unfold property DateState.set
  simp only [hdates]
  cases hchange : d.dates.change? name value with
  | some dates =>
    rw [setProperty_of_change?_eq_some hchange]
    simp only [setDates, DateState.adopt, hreference]
    cases dates.liturgicalDay d.reference <;> rfl
  | none =>
    cases hset : d.setProperty name value with
    | error problem => rfl
    | ok next => exact dateState_of_change?_eq_none hchange hset

theorem dating_property (d : Draft) (loc : Location) (name : String) (value : Value) :
    (d.property loc name value).dating = d.dating.set name value := by
  calc
    (d.property loc name value).dating = (d.dateState.set name value).dating := by
      rw [← dateState_property d loc]
      rfl
    _ = d.dating.set name value := d.dateState.dating_set name value

end Draft

end Typikon
