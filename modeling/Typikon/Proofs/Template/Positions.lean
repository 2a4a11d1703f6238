import Mathlib.Data.Prod.Lex
import Typikon.Template.Location

/-!
Locations as counts. The location at the end of a text tells the newlines in the text and the
characters after the last of them. It moves on with every character, and further lines in front move
it down as far as they go.
-/

namespace Typikon.Location

/-- The line, and after it the column. -/
def key (loc : Location) : ℕ ×ₗ ℕ :=
  toLex (loc.line, loc.column)

instance : Preorder Location :=
  Preorder.lift key

theorem lt_iff {a b : Location} :
    a < b ↔ a.line < b.line ∨ a.line = b.line ∧ a.column < b.column := by
  change a.key < b.key ↔ _
  simp only [key, Prod.Lex.toLex_lt_toLex]

/-! ### Counting -/

/-- The location where a text ends: its line is one more than the newlines of the text, and its
column one more than the characters after the last newline. -/
def after (s : List Char) : Location :=
  ⟨1 + s.count '\n', 1 + (s.reverse.takeWhile (· ≠ '\n')).length⟩

theorem after_nil : after [] = start := rfl

theorem next_after (s : List Char) (c : Char) : (after s).next c = after (s ++ [c]) := by
  by_cases hc : c = '\n'
  · subst hc
    simp [after, next, List.count_append, Nat.add_assoc]
  · simp [after, next, List.count_append, hc, Nat.add_assoc]

theorem advance_after (s t : List Char) : (after s).advance t = after (s ++ t) := by
  induction t generalizing s with
  | nil => rw [advance_nil, List.append_nil]
  | cons c t ih => rw [advance_cons, next_after, ih, List.append_assoc, List.singleton_append]

/-! ### Moving on -/

theorem lt_next (loc : Location) (c : Char) : loc < loc.next c := by
  unfold next
  split
  · exact lt_iff.mpr (.inl (Nat.lt_succ_self _))
  · exact lt_iff.mpr (.inr ⟨rfl, Nat.lt_succ_self _⟩)

theorem le_advance (loc : Location) (s : List Char) : loc ≤ loc.advance s := by
  induction s generalizing loc with
  | nil => exact le_rfl
  | cons c s ih => exact (lt_next loc c).le.trans (ih (loc.next c))

theorem lt_advance (loc : Location) {s : List Char} (h : s ≠ []) : loc < loc.advance s := by
  cases s with
  | nil => exact absurd rfl h
  | cons c s => exact (lt_next loc c).trans_le (le_advance _ s)

/-! ### Moving down -/

/-- The location a number of lines below, in the same column. -/
def down (loc : Location) (lines : Nat) : Location :=
  ⟨loc.line + lines, loc.column⟩

theorem next_down (loc : Location) (lines : Nat) (c : Char) :
    (loc.down lines).next c = (loc.next c).down lines := by
  unfold next down
  split
  · simp only [mk.injEq, and_true]
    omega
  · rfl

theorem advance_down (loc : Location) (lines : Nat) (s : List Char) :
    (loc.down lines).advance s = (loc.advance s).down lines := by
  induction s generalizing loc with
  | nil => rfl
  | cons c s ih => rw [advance_cons, next_down, ih, advance_cons]

/-- After a newline comes the first column of the line below. -/
theorem next_newline_after (s : List Char) :
    (after s).next '\n' = start.down (1 + s.count '\n') := by
  simp only [next, after, start, down, ↓reduceIte, mk.injEq, and_true]
  omega

end Typikon.Location
