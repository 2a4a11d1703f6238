import Typikon.Proofs.Calendar.NearestAnchors

/-!
The starts of the Triodion that a liturgical day tells for its year and the years beside it. Those
of last year and this one are 70 days before the Paschas of these years. What it tells as that of
next year is 70 days before the next Pascha, and up to the eve of Pascha that is the start of this
year again.
-/

namespace Typikon

namespace LiturgicalDay

variable {r : Reckoning} {date : CivilDate} {d : LiturgicalDay}

/-- The starts of the Triodion of a day by the Paschas of three years. -/
structure StartsTriodion (d : LiturgicalDay) (last this next : CivilDate) : Prop where
  lastYear : d.triodionStartLastYear = last - (70 : Int)
  thisYear : d.triodionStartThisYear = this - (70 : Int)
  nextYear_of_le : this ≤ d.date → d.triodionStartNextYear = next - (70 : Int)
  nextYear_of_lt : d.date < this → d.triodionStartNextYear = this - (70 : Int)

theorem startsTriodion_ofAnchors (r : Reckoning) (date : CivilDate) (a : Anchors) :
    (ofAnchors r date a).StartsTriodion a.paschaLastYear a.paschaThisYear a.paschaNextYear := by
  have hnext : (ofAnchors r date a).triodionStartNextYear =
      (if date < a.paschaThisYear then a.paschaThisYear else a.paschaNextYear) - (70 : Int) := rfl
  constructor
  case lastYear | thisYear => rfl
  case nextYear_of_le =>
    intro hle
    have hnot : ¬date < a.paschaThisYear := Int.not_lt.2 hle
    rw [hnext, if_neg hnot]
  case nextYear_of_lt =>
    intro hlt
    have hlt : date < a.paschaThisYear := hlt
    rw [hnext, if_pos hlt]

namespace StartsTriodion

variable {last this next : CivilDate}

theorem lastYear_lt_thisYear (h : d.StartsTriodion last this next) (hlt : last < this) :
    d.triodionStartLastYear < d.triodionStartThisYear := by
  rw [h.lastYear, h.thisYear]
  exact Int.sub_lt_sub_right hlt 70

/-- Only from Pascha on is the start that is told for next year a later one. -/
theorem thisYear_lt_nextYear_iff (h : d.StartsTriodion last this next) (hlt : this < next) :
    d.triodionStartThisYear < d.triodionStartNextYear ↔ this ≤ d.date := by
  rcases Int.lt_or_le d.date.dayNumber this.dayNumber with hbefore | hafter
  · rw [h.thisYear, h.nextYear_of_lt hbefore]
    exact iff_of_false (Int.lt_irrefl _) (Int.not_le.2 hbefore)
  · rw [h.thisYear, h.nextYear_of_le hafter]
    exact iff_of_true (Int.sub_lt_sub_right hlt 70) hafter

theorem nextYear_eq_iff (h : d.StartsTriodion last this next) (hlt : this < next) :
    d.triodionStartNextYear = next - (70 : Int) ↔ this ≤ d.date := by
  refine ⟨fun heq => (h.thisYear_lt_nextYear_iff hlt).1 ?_, h.nextYear_of_le⟩
  rw [h.thisYear, heq]
  exact Int.sub_lt_sub_right hlt 70

end StartsTriodion

/-- The starts of the Triodion for last year and this year are 70 days before the Paschas of those
years. For next year the one before its Pascha is told from this year's Pascha on, and the one of
this year until then, so that only from Pascha on do the three follow one another. -/
theorem triodionStarts_of_ofDate (h : ofDate r date = .ok d) :
    d.date = date ∧ d.year = (r.label date).year ∧
      ∃ last this next : CivilDate,
        (Pascha.date r (d.year - 1) = .ok last ∧ Pascha.date r d.year = .ok this ∧
          Pascha.date r (d.year + 1) = .ok next) ∧
        d.StartsTriodion last this next ∧
        d.triodionStartLastYear < d.triodionStartThisYear ∧
        (d.triodionStartThisYear < d.triodionStartNextYear ↔ this ≤ date) ∧
        (d.triodionStartNextYear = next - (70 : Int) ↔ this ≤ date) := by
  obtain ⟨hyear, a, hanchors, rfl⟩ := exists_anchors h
  have ha : a.AreOfYear r (ofAnchors r date a).year := Anchors.areOfYear_of_ofYear hyear hanchors
  have hyear : IsLiturgicalYear (ofAnchors r date a).year := hyear
  have hstarts := startsTriodion_ofAnchors r date a
  rw [ha.paschaLastYear, ha.paschaThisYear, ha.paschaNextYear] at hstarts
  obtain ⟨hlow, hhigh⟩ := hyear
  have hnext := Pascha.ofYear_lt_ofYear (Int.lt_succ (ofAnchors r date a).year)
  refine ⟨rfl, rfl, _, _, _, ⟨?_, ?_, ?_⟩, hstarts, hstarts.lastYear_lt_thisYear ?_,
    hstarts.thisYear_lt_nextYear_iff hnext, hstarts.nextYear_eq_iff hnext⟩
  · exact Pascha.date_eq_ok_of_year r (by omega) (by omega)
  · exact Pascha.date_eq_ok_of_year r (by omega) (by omega)
  · exact Pascha.date_eq_ok_of_year r (by omega) (by omega)
  · exact Pascha.ofYear_lt_ofYear (by omega)

/-- On the eve of Pascha in 2020 the start that is told for next year is that of 2020. -/
theorem triodionStarts_of_ofDate_eve :
    ∃ d, ofDate .julian ⟨737533⟩ = .ok d ∧ Pascha.date .julian 2020 = .ok ⟨737534⟩ ∧
      d.year = 2020 ∧ d.triodionStartNextYear = d.triodionStartThisYear ∧
      d.triodionStartThisYear = ⟨737464⟩ := by
  have hpascha : Pascha.date .julian 2020 = .ok ⟨737534⟩ := rfl
  have hexists : ∃ d, ofDate .julian ⟨737533⟩ = .ok d := ⟨_, rfl⟩
  obtain ⟨d, hd⟩ := hexists
  obtain ⟨hdate, hyear, last, this, next, ⟨-, hthis, -⟩, hstarts, -⟩ := triodionStarts_of_ofDate hd
  have hyear : d.year = 2020 := hyear
  rw [hyear] at hthis
  obtain rfl : ⟨737534⟩ = this := Except.ok.inj (hpascha.symm.trans hthis)
  have heve : d.date < ⟨737534⟩ := by
    rw [hdate]
    decide
  refine ⟨d, hd, hpascha, hyear, ?_, hstarts.thisYear⟩
  rw [hstarts.nextYear_of_lt heve, hstarts.thisYear]

/-- On 1 January 2020 the start that is told for next year is not 70 days before the Pascha of
2021, and no later than that of 2020. -/
theorem not_triodionStartNextYear_newYear :
    ∃ d, ofDate .gregorian ⟨737425⟩ = .ok d ∧ (⟨d.year, d.month, d.day⟩ : Label) = ⟨2020, 1, 1⟩ ∧
      Pascha.date .gregorian (d.year + 1) = .ok ⟨737912⟩ ∧
      d.triodionStartNextYear ≠ (⟨737912⟩ : CivilDate) - (70 : Int) ∧
      ¬d.triodionStartThisYear < d.triodionStartNextYear := by
  refine ⟨_, rfl, rfl, rfl, ?_, ?_⟩
  · rintro ⟨⟩
  · exact Int.lt_irrefl _

end LiturgicalDay

end Typikon
