import Typikon.Proofs.Draft.Asking
import Typikon.Proofs.Draft.Leaves

/-!
Properties of a template. One that takes its value sets the field that it names, or sets the date
and all that a document shows of it at once. One that does not take its value is reported once, and
nothing comes of it.
-/

namespace Typikon

theorem Property.ofWord?_eq_some_iff {name : String} {property : Property} :
    ofWord? name = some property ↔ property.word = name := by
  refine ⟨word_of_ofWord?_eq_some, ?_⟩
  rintro rfl
  rcases property with property | property <;> cases property <;> rfl

theorem Text.Vocabulary.read_eq_ok_iff {α : Type} {v : Vocabulary α} {text : String} {value : α} :
    v.read text = .ok value ↔ v.find? text = some value := by
  unfold read
  cases v.find? text <;> simp

theorem Reckoning.read_eq_ok_iff {text : String} {r : Reckoning} :
    Reckoning.read text = .ok r ↔ vocabulary.find? text = some r := by
  unfold read
  cases vocabulary.find? text <;> simp

/-- Date properties with one of them set to a value that it takes. -/
inductive DateProperties.Takes (p : DateProperties) : Property → Value → DateProperties → Prop
  | calendar {text : String} {calendar : Reckoning}
    (h : Reckoning.vocabulary.find? text = some calendar) :
    Takes p (.text .calendar) (.string text) { p with calendar }
  | month {n : Nat} (h : 1 ≤ n ∧ n ≤ 12) :
    Takes p (.number .month) (.integer n) { p with month := some n }
  | day {n : Nat} (h : 1 ≤ n ∧ n ≤ 31) :
    Takes p (.number .day) (.integer n) { p with day := some n }
  | noYear : Takes p (.number .year) (.integer 0) { p with year := none }
  | year {n : Int} (h : IsLiturgicalYear n) :
    Takes p (.number .year) (.integer n) { p with year := some n }

/-- A document with all that it shows of its date set to what date properties come to. -/
def Document.dated (doc : Document) (p : DateProperties) (day : LiturgicalDay) : Document :=
  { doc with
    calendar := p.calendar
    month := p.month
    day := p.day
    year := p.shownYear day
    liturgicalDay := day }

/-- What a property with a value that it takes makes of the date properties in force and of a
document. A property of the date takes a value only if there is a day then. -/
inductive Property.Sets (reference : CivilDate) (p : DateProperties) (doc : Document) :
    Property → Value → DateProperties → Document → Prop
  | id {id : String} (h : '/' ∈ id.toList) :
    Sets reference p doc (.text .id) (.string id) p { doc with id }
  | type {text : String} {type : TemplateType}
    (h : TemplateType.vocabulary.find? text = some type) :
    Sets reference p doc (.text .type) (.string text) p { doc with type }
  | status {text : String} {status : Status} (h : Status.vocabulary.find? text = some status) :
    Sets reference p doc (.text .status) (.string text) p { doc with status }
  | htmlCss (htmlCss : String) :
    Sets reference p doc (.text .htmlCss) (.string htmlCss) p { doc with htmlCss }
  | pdfCss (css : String) :
    Sets reference p doc (.text .pdfCss) (.string css) p { doc with pdf := { doc.pdf with css } }
  | title (title : String) :
    Sets reference p doc (.text .title) (.string title) p { doc with pdf := { doc.pdf with title } }
  | pageNumber {pageNumber : Nat} (h : 1 ≤ pageNumber ∧ pageNumber ≤ 4294967295) :
    Sets reference p doc (.number .pageNumber) (.integer pageNumber) p
      { doc with pdf := { doc.pdf with pageNumber } }
  | date {property : Property} {value : Value} {next : DateProperties} {day : LiturgicalDay}
    (htakes : p.Takes property value next) (hday : next.liturgicalDay reference = .ok day) :
    Sets reference p doc property value next (doc.dated next day)

namespace Property.Sets

variable {reference : CivilDate} {p dates : DateProperties} {doc document : Document}
  {property : Property} {value : Value}

theorem paragraphs_eq (h : Sets reference p doc property value dates document) :
    document.paragraphs = doc.paragraphs := by
  cases h <;> rfl

theorem layout_eq (h : Sets reference p doc property value dates document) :
    document.pdf.layout = doc.pdf.layout := by
  cases h <;> rfl

end Property.Sets

namespace Draft

variable {d next : Draft} {loc : Location} {name : String} {property : Property} {value : Value}
  {dates : DateProperties} {document : Document}

/-! ### What is set -/

theorem setDates_eq_ok_iff :
    d.setDates dates = .ok next ↔
      ∃ day, dates.liturgicalDay d.reference = .ok day ∧
        next = { d with dates, document := d.document.dated dates day } := by
  unfold setDates
  cases dates.liturgicalDay d.reference with
  | error cause => simp
  | ok day => simp [Document.dated, eq_comm]

theorem setProperty_of_takes (h : d.dates.Takes property value dates) :
    d.setProperty property.word value = d.setDates dates := by
  have hword := Property.ofWord?_eq_some_iff.2 (Eq.refl property.word)
  unfold setProperty
  rw [hword]
  cases h with
  | calendar h => simp [setText, Reckoning.read_eq_ok_iff.2 h]
  | month h | day h =>
    simp [setNumber]
    omega
  | noYear => simp [setNumber]
  | @year n h =>
    have hzero : n ≠ 0 := by
      rintro rfl
      exact absurd h (by decide)
    simp [setNumber, hzero, h]

/-- A property that takes its value sets it. -/
theorem setProperty_of_sets
    (h : Property.Sets d.reference d.dates d.document property value dates document) :
    d.setProperty property.word value = .ok { d with dates, document } := by
  have hword := Property.ofWord?_eq_some_iff.2 (Eq.refl property.word)
  cases h with
  | @id id h =>
    have hempty : id ≠ "" := by
      rintro rfl
      cases h
    simp [setProperty, hword, setText, setId, hempty, h]
  | type h | status h =>
    simp [setProperty, hword, setText, Text.Vocabulary.read_eq_ok_iff.2 h]
  | htmlCss | pdfCss | title => simp [setProperty, hword, setText]
  | pageNumber h =>
    simp [setProperty, hword, setNumber]
    omega
  | date htakes hday =>
    exact (setProperty_of_takes htakes).trans (setDates_eq_ok_iff.2 ⟨_, hday, rfl⟩)

/-- A draft goes on to another in which a property is set. -/
def HasSet (d : Draft) (property : Property) (value : Value) (next : Draft) : Prop :=
  ∃ dates document, Property.Sets d.reference d.dates d.document property value dates document ∧
    next = { d with dates, document }

theorem hasSet_of_setDates (htakes : d.dates.Takes property value dates)
    (h : d.setDates dates = .ok next) : d.HasSet property value next := by
  obtain ⟨day, hday, rfl⟩ := setDates_eq_ok_iff.1 h
  exact ⟨dates, _, .date htakes hday, rfl⟩

theorem hasSet_of_setText {s : String} {property : TextProperty}
    (h : d.setText s property = .ok next) : d.HasSet (.text property) (.string s) next := by
  cases property with
  | id =>
    simp only [setText, setId] at h
    split at h
    · cases h
    · split at h
      next hslash =>
        cases h
        exact ⟨_, _, .id hslash, rfl⟩
      · cases h
  | type =>
    simp only [setText] at h
    split at h
    next type hread =>
      cases h
      exact ⟨_, _, .type (Text.Vocabulary.read_eq_ok_iff.1 hread), rfl⟩
    · cases h
  | status =>
    simp only [setText] at h
    split at h
    next status hread =>
      cases h
      exact ⟨_, _, .status (Text.Vocabulary.read_eq_ok_iff.1 hread), rfl⟩
    · cases h
  | calendar =>
    simp only [setText] at h
    split at h
    next calendar hread =>
      exact hasSet_of_setDates (.calendar (Reckoning.read_eq_ok_iff.1 hread)) h
    · cases h
  | htmlCss =>
    cases h
    exact ⟨_, _, .htmlCss s, rfl⟩
  | pdfCss =>
    cases h
    exact ⟨_, _, .pdfCss s, rfl⟩
  | title =>
    cases h
    exact ⟨_, _, .title s, rfl⟩

theorem hasSet_of_setNumber {n : Int} {property : NumberProperty}
    (h : d.setNumber n property = .ok next) : d.HasSet (.number property) (.integer n) next := by
  have hnat (hn : 0 ≤ n) : ∃ m : Nat, n = m := Int.eq_ofNat_of_zero_le hn
  cases property with
  | month =>
    simp only [setNumber] at h
    split at h
    next hrange =>
      obtain ⟨m, rfl⟩ := hnat (by omega)
      exact hasSet_of_setDates (.month (by omega)) h
    · cases h
  | day =>
    simp only [setNumber] at h
    split at h
    next hrange =>
      obtain ⟨m, rfl⟩ := hnat (by omega)
      exact hasSet_of_setDates (.day (by omega)) h
    · cases h
  | year =>
    simp only [setNumber] at h
    split at h
    next hzero =>
      subst hzero
      exact hasSet_of_setDates .noYear h
    · split at h
      next hyear => exact hasSet_of_setDates (.year hyear) h
      · cases h
  | pageNumber =>
    simp only [setNumber] at h
    split at h
    next hrange =>
      obtain ⟨m, rfl⟩ := hnat (by omega)
      cases h
      exact ⟨_, _, .pageNumber (by omega), rfl⟩
    · cases h

/-- A property is set just if it takes its value. -/
theorem setProperty_eq_ok_iff :
    d.setProperty name value = .ok next ↔
      ∃ property, property.word = name ∧ d.HasSet property value next := by
  constructor
  · intro h
    unfold setProperty at h
    split at h
    · cases h
    next property s hword =>
      exact ⟨_, Property.ofWord?_eq_some_iff.1 hword, hasSet_of_setText h⟩
    · cases h
    next property n hword =>
      exact ⟨_, Property.ofWord?_eq_some_iff.1 hword, hasSet_of_setNumber h⟩
    · cases h
  · rintro ⟨property, rfl, dates, document, hsets, rfl⟩
    exact setProperty_of_sets hsets

end Draft

/-- A finding that is no question is one more diagnostic. -/
theorem Finding.settle_concat_of_certain {σ : Type} {finding : Finding}
    (h : finding.question? = none) (index : Index σ) (findings : List Finding) (state : σ) :
    settle index (findings ++ [finding]) state =
      ((settle index findings state).1.map (· ++ [finding.diagnostic]),
        (settle index findings state).2) := by
  have hlast : ask index (findings ++ [finding]) =
      (· ++ [finding.diagnostic]) <$> ask index findings := by
    rw [ask_append, ask_cons_of_question?_eq_none index h]
    simp
  calc
    settle index (findings ++ [finding]) state = ask index (findings ++ [finding]) state := rfl
    _ = _ := by rw [hlast, Asking.map_apply]; rfl

namespace Draft

/-- In whatever state a draft is, a property that takes its value sets the field that it names, or
the date, and no diagnostic is added. One that does not is reported at its location by one
diagnostic, and leaves the document and the date properties as they were. -/
theorem enter_property_sets_or_reports (d : Draft) (loc : Location) (name : String)
    (value : Value) :
    let here : Draft := { d with last := loc }
    let next := d.enter loc (.atom (.property name value))
    ((∃ property, property.word = name ∧ here.HasSet property value next) ∨
      (∀ property set, property.word = name → ¬here.HasSet property value set) ∧
      ∃ problem, next = { here with findings := d.findings ++ [.certain loc problem] } ∧
        ∀ {σ : Type} (index : Index σ) (state : σ),
          Finding.settle index next.findings state =
            ((Finding.settle index d.findings state).1.map
              (· ++ [⟨.semantic, loc, problem.message⟩]),
              (Finding.settle index d.findings state).2)) ∧
    next.document.paragraphs = d.document.paragraphs ∧
    next.document.pdf.layout = d.document.pdf.layout ∧
    next.paragraph = d.paragraph ∧ next.spans = d.spans ∧ next.block = d.block ∧
    next.slot = d.slot ∧ next.lookup = d.lookup := by
  intro here next
  have hnext : next = here.property loc name value := rfl
  cases hset : here.setProperty name value with
  | ok set =>
    rw [property_eq_of_ok hset] at hnext
    obtain ⟨property, hname, hhas⟩ := setProperty_eq_ok_iff.1 hset
    refine ⟨.inl ⟨property, hname, hnext ▸ hhas⟩, ?_⟩
    obtain ⟨dates, document, hsets, rfl⟩ := hhas
    rw [hnext]
    exact ⟨hsets.paragraphs_eq, hsets.layout_eq, rfl, rfl, rfl, rfl, rfl⟩
  | error problem =>
    rw [property_eq_of_error hset] at hnext
    rw [hnext]
    refine ⟨.inr ⟨?_, problem, rfl, fun index state => ?_⟩, rfl, rfl, rfl, rfl, rfl, rfl, rfl⟩
    · intro property set hname hhas
      have hok := setProperty_eq_ok_iff.2 ⟨property, hname, hhas⟩
      rw [hset] at hok
      cases hok
    · exact Finding.settle_concat_of_certain rfl index d.findings state

end Draft

end Typikon
