import Typikon.Proofs.Calendar.NextDate
import Typikon.Proofs.Draft.Leaves

/-!
What a draft has of its date: the properties that are in force and what its document shows of them.
Only properties change any of it, and they change all of it at once, so what is shown always agrees
with the properties in force.
-/

namespace Typikon

namespace DateProperties

variable {p : DateProperties} {reference : CivilDate} {year : Int} {month day : Nat}

theorem liturgicalDay_of_year (hmonth : p.month = some month) (hday : p.day = some day)
    (hyear : p.year = some year) :
    p.liturgicalDay reference = LiturgicalDay.ofLabel p.calendar ⟨year, month, day⟩ := by
  simp [liturgicalDay, hmonth, hday, hyear]

theorem liturgicalDay_of_no_year (hmonth : p.month = some month) (hday : p.day = some day)
    (hyear : p.year = none) :
    p.liturgicalDay reference = LiturgicalDay.ofMonthDay p.calendar month day reference := by
  simp [liturgicalDay, hmonth, hday, hyear]

theorem liturgicalDay_of_undated (h : p.month = none ∨ p.day = none) :
    p.liturgicalDay reference = LiturgicalDay.ofDate p.calendar reference := by
  unfold liturgicalDay
  split <;> simp_all

/-- Whichever way date properties name a day, it is reckoned in their calendar. -/
theorem reckoning_of_liturgicalDay {d : LiturgicalDay} (h : p.liturgicalDay reference = .ok d) :
    d.reckoning = p.calendar := by
  unfold liturgicalDay at h
  split at h
  · obtain ⟨date, -, hdate⟩ := LiturgicalDay.exists_of_ofLabel h
    exact (LiturgicalDay.isOfDate_of_ofDate hdate).reckoning_eq
  · obtain ⟨date, -, hdate⟩ := LiturgicalDay.exists_of_ofMonthDay h
    exact (LiturgicalDay.isOfDate_of_ofDate hdate).reckoning_eq
  · exact (LiturgicalDay.isOfDate_of_ofDate h).reckoning_eq

theorem shownYear_of_dated (hmonth : p.month = some month) (hday : p.day = some day)
    (d : LiturgicalDay) : p.shownYear d = some d.year := by
  simp [shownYear, hmonth, hday]

theorem shownYear_of_undated (h : p.month = none ∨ p.day = none) (d : LiturgicalDay) :
    p.shownYear d = p.year := by
  rcases h with h | h <;> simp [shownYear, h]

end DateProperties

namespace DateState

/-- The day is the one that the properties come to, and what is shown is all theirs. -/
structure Consistent (s : DateState) : Prop where
  calendar_eq : s.calendar = s.dates.calendar
  year_eq : s.year = s.dates.shownYear s.liturgicalDay
  month_eq : s.month = s.dates.month
  day_eq : s.day = s.dates.day
  liturgicalDay_eq : s.dates.liturgicalDay s.reference = .ok s.liturgicalDay

namespace Consistent

variable {s : DateState}

theorem adopt (h : s.Consistent) (dates : DateProperties) : (s.adopt dates).Consistent := by
  unfold DateState.adopt
  split
  next liturgicalDay hday => exact ⟨rfl, rfl, rfl, rfl, hday⟩
  · exact h

theorem set (h : s.Consistent) (name : String) (value : Value) :
    (s.set name value).Consistent := by
  unfold DateState.set
  split
  · exact h.adopt _
  · exact h

end Consistent

end DateState

/-- What a document shows of its date agrees with date properties and a reference date. -/
structure Document.ShowsDates (doc : Document) (p : DateProperties) (reference : CivilDate) :
    Prop where
  calendar : doc.calendar = p.calendar
  reckoning : doc.calendar = doc.liturgicalDay.reckoning
  month : doc.month = p.month
  day : doc.day = p.day
  dated : ∀ month day, p.month = some month → p.day = some day →
    doc.liturgicalDay.month = month ∧ doc.liturgicalDay.day = day ∧
      doc.year = some doc.liturgicalDay.year ∧
      (∀ year, p.year = some year →
        LiturgicalDay.ofLabel doc.calendar ⟨year, month, day⟩ = .ok doc.liturgicalDay ∧
          doc.liturgicalDay.year = year) ∧
      (p.year = none →
        LiturgicalDay.ofMonthDay doc.calendar month day reference = .ok doc.liturgicalDay ∧
          doc.calendar.IsNext month day reference doc.liturgicalDay.date)
  undated : p.month = none ∨ p.day = none →
    LiturgicalDay.ofDate doc.calendar reference = .ok doc.liturgicalDay ∧ doc.year = p.year

namespace Draft

theorem isViewOf_dateState : IsViewOf dateState [.heading] := by
  intro d e he
  cases e <;> first | rfl | exact absurd (List.mem_singleton_self _) he

theorem dateState_finish (d : Draft) : d.finish.dateState = d.dateState :=
  isViewOf_dateState.finish_eq (by decide) d

section Runs

variable {d : Draft}

theorem consistent_start {name : String} {calendar : Reckoning} {reference : CivilDate}
    (hstart : start name calendar reference = .ok d) : d.dateState.Consistent := by
  obtain ⟨day, hday, rfl⟩ := eq_of_start_eq_ok hstart
  exact ⟨(LiturgicalDay.isOfDate_of_ofDate hday).reckoning_eq, rfl, rfl, rfl, hday⟩

theorem consistent_event (h : d.dateState.Consistent) (event : Event) :
    (d.event event).dateState.Consistent := by
  by_cases hevent : Part.heading ∈ event.parts
  · obtain ⟨loc, name, value, rfl⟩ := Event.heading_mem_parts_iff.mp hevent
    have hset : (d.event (.enter loc (.atom (.property name value)))).dateState =
        d.dateState.set name value := dateState_property { d with last := loc } loc name value
    rw [hset]
    exact h.set name value
  · rw [isViewOf_dateState.event_eq_of_not_mem hevent]
    exact h

theorem consistent_events (h : d.dateState.Consistent) (events : List Event) :
    (d.events events).dateState.Consistent := by
  induction events generalizing d with
  | nil => exact h
  | cons event events ih => exact ih (consistent_event h event)

/-- A consistent date is shown as the properties have it. -/
theorem showsDates_of_consistent (h : d.dateState.Consistent) :
    d.document.ShowsDates d.dates d.reference := by
  have hcalendar : d.document.calendar = d.dates.calendar := h.calendar_eq
  have hyear : d.document.year = d.dates.shownYear d.document.liturgicalDay := h.year_eq
  have hliturgical : d.dates.liturgicalDay d.reference = .ok d.document.liturgicalDay :=
    h.liturgicalDay_eq
  refine ⟨hcalendar, ?_, h.month_eq, h.day_eq, ?_, ?_⟩
  · exact hcalendar.trans (DateProperties.reckoning_of_liturgicalDay hliturgical).symm
  · intro month day hmonth hday
    rw [hyear, hcalendar, DateProperties.shownYear_of_dated hmonth hday]
    cases hgiven : d.dates.year with
    | some year =>
      rw [DateProperties.liturgicalDay_of_year hmonth hday hgiven] at hliturgical
      obtain ⟨date, hlabel, hdate⟩ := LiturgicalDay.exists_of_ofLabel hliturgical
      have hsame := (LiturgicalDay.isOfDate_of_ofDate hdate).label_eq.trans hlabel
      simp only [Label.mk.injEq] at hsame
      obtain ⟨hsameYear, hsameMonth, hsameDay⟩ := hsame
      refine ⟨hsameMonth, hsameDay, rfl, ?_, nofun⟩
      rintro _ ⟨⟩
      exact ⟨hliturgical, hsameYear⟩
    | none =>
      rw [DateProperties.liturgicalDay_of_no_year hmonth hday hgiven] at hliturgical
      obtain ⟨date, hnext, hdate⟩ := LiturgicalDay.exists_of_ofMonthDay hliturgical
      obtain ⟨-, hdateEq, hlabel⟩ := LiturgicalDay.isOfDate_of_ofDate hdate
      refine ⟨?_, ?_, rfl, nofun, fun _ => ⟨hliturgical, hdateEq ▸ hnext⟩⟩
      · rw [← hnext.month_eq, ← hlabel]
      · rw [← hnext.day_eq, ← hlabel]
  · intro hundated
    rw [hyear, hcalendar, DateProperties.shownYear_of_undated hundated]
    exact ⟨DateProperties.liturgicalDay_of_undated hundated ▸ hliturgical, rfl⟩

/-- After any events, and when the draft is finished then, the document shows the date properties
that have been accepted, and its day is the one that they come to. -/
theorem showsDates_events {name : String} {calendar : Reckoning} {reference : CivilDate}
    (hstart : start name calendar reference = .ok d) (events : List Event) :
    (d.events events).document.ShowsDates (d.events events).dates reference ∧
      (d.events events).finish.document.ShowsDates (d.events events).dates reference ∧
      (d.events events).dates =
        (d.dating.afterHeads (events.filterMap Event.entered?)).dates := by
  have hdating := dating_events d events
  have hreference : (d.events events).reference = reference := by
    obtain ⟨day, -, rfl⟩ := eq_of_start_eq_ok hstart
    exact (congrArg Dating.reference hdating).trans (Dating.reference_afterHeads _ _)
  have hconsistent := consistent_events (consistent_start hstart) events
  have hfinish := dateState_finish (d.events events)
  have hdates : (d.events events).finish.dates = (d.events events).dates :=
    congrArg DateState.dates hfinish
  have hreferenceFinish : (d.events events).finish.reference = (d.events events).reference :=
    congrArg DateState.reference hfinish
  refine ⟨?_, ?_, congrArg Dating.dates hdating⟩
  · rw [← hreference]
    exact showsDates_of_consistent hconsistent
  · rw [← hreference, ← hdates, ← hreferenceFinish]
    exact showsDates_of_consistent (hfinish.symm ▸ hconsistent)

/-- Events of properties that ask for 30 February, then for the 29th, which 2021 refuses, and for
the Julian calendar. -/
def leapDayEvents : List Event :=
  [.enter ⟨1, 1⟩ (.atom (.property "Month" (.integer 2))),
    .enter ⟨2, 1⟩ (.atom (.property "Day" (.integer 30))),
    .enter ⟨3, 1⟩ (.atom (.property "Day" (.integer 29))),
    .enter ⟨4, 1⟩ (.atom (.property "Year" (.integer 2021))),
    .enter ⟨5, 1⟩ (.atom (.property "Calendar" (.string "Julian")))]

theorem showsDates_events_leapDay :
    ∃ d, start "t" .gregorian ⟨737425⟩ = .ok d ∧
      (d.events leapDayEvents).dates = ⟨.julian, some 2, some 29, none⟩ ∧
      (d.events leapDayEvents).document.liturgicalDay.date = ⟨737497⟩ ∧
      Reckoning.julian.IsNext 2 29 ⟨737425⟩ ⟨737497⟩ := by
  obtain ⟨d, hstart⟩ : ∃ d, start "t" .gregorian ⟨737425⟩ = .ok d := ⟨_, rfl⟩
  have hdates : (d.events leapDayEvents).dates = ⟨.julian, some 2, some 29, none⟩ := by
    cases hstart
    decide +kernel
  have hdate : (d.events leapDayEvents).document.liturgicalDay.date = ⟨737497⟩ := by
    cases hstart
    decide +kernel
  obtain ⟨hshows, -, -⟩ := showsDates_events hstart leapDayEvents
  rw [hdates] at hshows
  obtain ⟨-, -, -, -, hnone⟩ := hshows.dated 2 29 rfl rfl
  obtain ⟨-, hnext⟩ := hnone rfl
  rw [hshows.calendar, hdate] at hnext
  exact ⟨d, hstart, hdates, hdate, hnext⟩

end Runs

end Draft

end Typikon
