import Mathlib.Data.List.TakeWhile
import Typikon.Text.Blank

/-!
Trimming takes the white space off the ends of a text, all of it and nothing else.
-/

namespace Typikon.Text

variable {before core after : List Char}

theorem isBlank_eq_false_of_isAlphanum {c : Char} (h : c.isAlphanum = true) :
    isBlank c = false := by
  delta Char.isAlphanum Char.isAlpha Char.isUpper Char.isLower Char.isDigit at h
  simp only [Bool.or_eq_true, Bool.and_eq_true, decide_eq_true_eq, ge_iff_le,
    UInt32.le_iff_toNat_le] at h
  simp only [isBlank, Bool.or_eq_false_iff, Bool.and_eq_false_iff, decide_eq_false_iff_not,
    Char.le_def, UInt32.le_iff_toNat_le, beq_eq_false_iff_ne, Ne, ← Char.val_inj,
    ← UInt32.toNat_inj, Char.reduceVal, UInt32.reduceToNat] at h ⊢
  omega

theorem dropWhile_isBlank_append (hblank : ∀ c ∈ before, isBlank c = true)
    (hcore : ∀ c ∈ core, isBlank c = false) (hne : core ≠ []) :
    (before ++ (core ++ after)).dropWhile isBlank = core ++ after := by
  obtain ⟨c, rest, rfl⟩ := List.exists_cons_of_ne_nil hne
  have hc : isBlank c = false := hcore c List.mem_cons_self
  rw [List.dropWhile_append_of_pos hblank, List.cons_append,
    List.dropWhile_cons_of_neg (by simp [hc])]

/-- Trimming takes off just the white space at the ends. -/
theorem trimChars_append (hbefore : ∀ c ∈ before, isBlank c = true)
    (hafter : ∀ c ∈ after, isBlank c = true) (hcore : ∀ c ∈ core, isBlank c = false)
    (hne : core ≠ []) : trimChars (before ++ (core ++ after)) = core := by
  have hback : (core ++ after).reverse = after.reverse ++ (core.reverse ++ []) := by simp
  rw [trimChars, trimLeft, dropWhile_isBlank_append hbefore hcore hne, trimRight, hback,
    dropWhile_isBlank_append (by simpa using hafter) (by simpa using hcore) (by simpa using hne)]
  simp

theorem exists_append_trimChars (s : List Char) :
    ∃ before after, (∀ c ∈ before, isBlank c = true) ∧ (∀ c ∈ after, isBlank c = true) ∧
      s = before ++ (trimChars s ++ after) := by
  refine ⟨s.takeWhile isBlank, ((trimLeft s).reverse.takeWhile isBlank).reverse, ?_, ?_, ?_⟩
  · exact fun c hc => List.mem_takeWhile_imp hc
  · intro c hc
    exact List.mem_takeWhile_imp (List.mem_reverse.1 hc)
  · have hback : trimChars s ++ ((trimLeft s).reverse.takeWhile isBlank).reverse = trimLeft s := by
      rw [trimChars, trimRight, ← List.reverse_append, List.takeWhile_append_dropWhile,
        List.reverse_reverse]
    rw [hback, trimLeft, List.takeWhile_append_dropWhile]

end Typikon.Text
