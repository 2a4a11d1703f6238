import Mathlib.Data.List.TakeWhile
import Typikon.Proofs.Text.Writing
import Typikon.Text.Line

/-!
Reading up to the end of a line. What is read of a text up to a newline is the same whatever text
comes behind, and a newline right behind a text ends its last line. Of a line by itself the ending
is found unless a carriage return stands inside.
-/

namespace Typikon.Text

theorem ne_of_mem_lineFront {s : List Char} {c : Char} (h : c ∈ lineFront s) :
    c ≠ '\n' ∧ c ≠ '\r' := by
  have hc := List.mem_takeWhile_imp h
  simpa [isLineBreak] using hc

/-- The last line of a text ends with it, or right behind it where another text begins with a
newline. A carriage return at the end of the first text would belong to that newline. -/
inductive LineEndsBetween (s t : List Char) : Prop
  | within (h : ∀ c ∈ s.getLast?, c = '\n')
  | behind (hnewline : t.head? = some '\n') (hreturn : s.getLast? ≠ some '\r')

theorem mem_getLast?_of_suffix {s u : List Char} {c : Char} (h : u <:+ s) (hc : c ∈ u.getLast?) :
    c ∈ s.getLast? := by
  obtain ⟨v, rfl⟩ := h
  rw [List.getLast?_append, Option.mem_def.mp hc]
  rfl

namespace LineEndsBetween

variable {s t : List Char}

theorem of_suffix {u : List Char} (h : LineEndsBetween s t) (hsuffix : u <:+ s) :
    LineEndsBetween u t := by
  cases h with
  | within h => exact .within fun c hc => h c (mem_getLast?_of_suffix hsuffix hc)
  | behind hnewline hreturn =>
    exact .behind hnewline fun hlast => hreturn (mem_getLast?_of_suffix hsuffix hlast)

theorem tail {c : Char} (h : LineEndsBetween (c :: s) t) : LineEndsBetween s t :=
  h.of_suffix (List.suffix_cons c s)

theorem back (h : LineEndsBetween s t) : LineEndsBetween (lineBack s) t :=
  h.of_suffix (List.dropWhile_suffix _)

theorem of_append_newline (s t : List Char) : LineEndsBetween (s ++ ['\n']) t := by
  refine .within fun c hc => ?_
  rw [List.getLast?_append] at hc
  exact (Option.some.inj hc).symm

/-- Behind a character that is no newline the line still has to end. -/
theorem newline_mem {c : Char} (h : LineEndsBetween (c :: s) t) (hc : c ≠ '\n') :
    '\n' ∈ s ++ t.take 1 := by
  cases h with
  | within h =>
    cases hlast : s.getLast? with
    | none =>
      obtain rfl : s = [] := List.getLast?_eq_none_iff.mp hlast
      exact absurd (h c rfl) hc
    | some d =>
      have hd := h d (mem_getLast?_of_suffix (List.suffix_cons c s) hlast)
      exact List.mem_append_left _ (hd ▸ List.mem_of_mem_getLast? hlast)
  | behind hnewline _ =>
    obtain ⟨b, rfl⟩ := List.head?_eq_some_iff.mp hnewline
    exact List.mem_append_right _ List.mem_cons_self

theorem ne_return (h : LineEndsBetween s t) : s ≠ ['\r'] := by
  rintro rfl
  cases h with
  | within h => exact absurd (h '\r' rfl) (by decide)
  | behind _ hreturn => exact hreturn rfl

end LineEndsBetween

/-! ### Up to the newline -/

section UpToNewline

variable {s t : List Char}

theorem exists_cons_of_newline_mem (h : '\n' ∈ s ++ t.take 1) (hs : '\n' ∉ s) :
    ∃ b, t = '\n' :: b := by
  have hmem := (List.mem_append.mp h).resolve_left hs
  cases t with
  | nil => cases hmem
  | cons c b => exact ⟨b, by rw [List.mem_singleton.mp hmem]⟩

theorem takeWhile_append_of_newline_mem {p : Char → Bool} (hp : p '\n' = false)
    (h : '\n' ∈ s ++ t.take 1) : (s ++ t).takeWhile p = s.takeWhile p := by
  induction s with
  | nil =>
    obtain ⟨b, rfl⟩ := exists_cons_of_newline_mem h (List.not_mem_nil)
    exact List.takeWhile_cons_of_neg (by simp [hp])
  | cons c s ih =>
    rw [List.cons_append]
    cases hc : p c with
    | false =>
      have hneg : ¬p c = true := by simp [hc]
      rw [List.takeWhile_cons_of_neg hneg, List.takeWhile_cons_of_neg hneg]
    | true =>
      have hne : '\n' ≠ c := by
        rintro rfl
        rw [hp] at hc
        cases hc
      rw [List.takeWhile_cons_of_pos hc, List.takeWhile_cons_of_pos hc,
        ih ((List.mem_cons.mp h).resolve_left hne)]

theorem dropWhile_append_of_newline_mem {p : Char → Bool} (hp : p '\n' = false)
    (h : '\n' ∈ s ++ t.take 1) : (s ++ t).dropWhile p = s.dropWhile p ++ t := by
  have hfront := takeWhile_append_of_newline_mem hp h
  have hwhole := List.takeWhile_append_dropWhile (p := p) (l := s ++ t)
  rw [hfront] at hwhole
  have hparts := List.takeWhile_append_dropWhile (p := p) (l := s)
  exact List.append_cancel_left (by rw [hwhole, ← List.append_assoc, hparts])

theorem lineFront_append (h : '\n' ∈ s ++ t.take 1) : lineFront (s ++ t) = lineFront s :=
  takeWhile_append_of_newline_mem rfl h

theorem lineBack_append (h : '\n' ∈ s ++ t.take 1) : lineBack (s ++ t) = lineBack s ++ t :=
  dropWhile_append_of_newline_mem rfl h

theorem Quoted.closing?_append (h : '\n' ∈ s ++ t.take 1) :
    closing? (s ++ t) = (closing? s).map fun (body, rest) => (body, rest ++ t) := by
  fun_induction closing? s with
  | case1 =>
    obtain ⟨b, rfl⟩ := exists_cons_of_newline_mem h (List.not_mem_nil)
    rfl
  | case2 s => rfl
  | case3 => rfl
  | case4 =>
    obtain ⟨b, rfl⟩ := exists_cons_of_newline_mem h (by decide)
    rfl
  | case5 => rfl
  | case6 c s hnewline ih =>
    have hmem : '\n' ∈ s ++ t.take 1 := by simpa [Ne.symm hnewline] using h
    simp [closing?, hnewline, ih hmem, Function.comp_def]
  | case7 c s hquote hnewline hlast hescape ih =>
    have hmem : '\n' ∈ s ++ t.take 1 := by simpa [Ne.symm hnewline] using h
    rw [List.cons_append, closing?_cons _ hquote (ne_backslash hlast hescape) hnewline, ih hmem]
    simp [Function.comp_def]

theorem lineEnding?_append_of_eq_some {ending rest : List Char} (hs : s ≠ [])
    (h : lineEnding? s = some (ending, rest)) :
    lineEnding? (s ++ t) = some (ending, rest ++ t) := by
  unfold lineEnding? at h
  split at h
  · exact absurd rfl hs
  · cases h
    rfl
  · cases h
    rfl
  · cases h

theorem lineEnding?_append_of_eq_none (hreturn : s ≠ ['\r']) (h : lineEnding? s = none) :
    lineEnding? (s ++ t) = none := by
  unfold lineEnding? at h
  split at h
  case h_4 hnil hnewline hboth =>
    unfold lineEnding?
    split
    · next happend => exact absurd (List.append_eq_nil_iff.mp happend).1 hnil
    · next rest happend =>
      cases s with
      | nil => exact absurd rfl hnil
      | cons c s =>
        obtain ⟨rfl, -⟩ := List.cons.inj happend
        exact absurd rfl (hnewline s)
    · next rest happend =>
      cases s with
      | nil => exact absurd rfl hnil
      | cons c s =>
        obtain ⟨rfl, htail⟩ := List.cons.inj happend
        cases s with
        | nil => exact absurd rfl hreturn
        | cons d s =>
          obtain ⟨rfl, -⟩ := List.cons.inj htail
          exact absurd rfl (hboth s)
    · rfl
  all_goals cases h

/-- The line ends in both texts alike, or else the first one ends within it and the second one
begins with its newline. -/
theorem lineEnding?_lineBack_append (h : '\n' ∈ s ++ t.take 1) (hreturn : lineBack s ≠ ['\r']) :
    lineEnding? (lineBack (s ++ t)) =
        (lineEnding? (lineBack s)).map (fun (ending, rest) => (ending, rest ++ t)) ∨
      lineBack s = [] ∧ ∃ b, t = '\n' :: b := by
  by_cases hnil : lineBack s = []
  · have hfront : lineFront s = s := by
      have happend := lineFront_append_lineBack s
      rwa [hnil, List.append_nil] at happend
    refine .inr ⟨hnil, exists_cons_of_newline_mem h fun hmem => ?_⟩
    exact (ne_of_mem_lineFront (hfront.symm ▸ hmem)).1 rfl
  · rw [lineBack_append h]
    cases hend : lineEnding? (lineBack s) with
    | none => exact .inl (lineEnding?_append_of_eq_none hreturn hend)
    | some parts => exact .inl (lineEnding?_append_of_eq_some hnil hend)

theorem isSome_lineEnding?_lineBack_append (h : '\n' ∈ s ++ t.take 1)
    (hreturn : lineBack s ≠ ['\r']) :
    (lineEnding? (lineBack (s ++ t))).isSome = (lineEnding? (lineBack s)).isSome := by
  rcases lineEnding?_lineBack_append h hreturn with hsame | ⟨hnil, b, rfl⟩
  · rw [hsame, Option.isSome_map]
  · rw [lineBack_append h, hnil]
    rfl

end UpToNewline

/-! ### A line of its own -/

theorem Quoted.closing?_eq_none {s : List Char} (h : '"' ∉ s) : closing? s = none := by
  cases hclosing : closing? s with
  | none => rfl
  | some parts =>
    have happend := append_of_closing? hclosing
    exact absurd (happend ▸ List.mem_append_right _ List.mem_cons_self) h

/-- A carriage return stands in the line before its last character, so that it belongs to no line
ending. -/
def HasInnerReturn (line : List Char) : Prop :=
  '\r' ∈ line.dropLast

instance (line : List Char) : Decidable (HasInnerReturn line) :=
  inferInstanceAs (Decidable ('\r' ∈ line.dropLast))

section Line

variable {line : List Char}

theorem lineBack_append_cons {c : Char} {s t : List Char} (hs : ∀ d ∈ s, isLineBreak d = false)
    (hc : isLineBreak c = true) : lineBack (s ++ c :: t) = c :: t := by
  unfold lineBack
  rw [List.dropWhile_append_of_pos fun d hd => by simp [hs d hd],
    List.dropWhile_cons_of_neg (by simp [hc])]

theorem isLineBreak_eq_false {c : Char} (hnewline : c ≠ '\n') (hreturn : c ≠ '\r') :
    isLineBreak c = false := by
  simp [isLineBreak, hnewline, hreturn]

theorem lineEnding?_return_cons {c : Char} (hc : c ≠ '\n') (s : List Char) :
    lineEnding? ('\r' :: c :: s) = none := by
  unfold lineEnding?
  split
  · next h => cases h
  · next h => cases h
  · next h =>
    cases h
    exact absurd rfl hc
  · rfl

/-- The first line break is such a carriage return, and no newline follows it. -/
theorem lineEnding?_eq_none (hline : '\n' ∉ line) (h : HasInnerReturn line) :
    lineEnding? (lineBack (line ++ ['\n'])) = none := by
  rcases line.eq_nil_or_concat with rfl | ⟨inner, last, rfl⟩
  · cases h
  · rw [List.concat_eq_append] at hline ⊢
    rw [HasInnerReturn, List.concat_eq_append, List.dropLast_concat] at h
    obtain ⟨front, back, rfl, hfront⟩ := List.eq_append_cons_of_mem h
    have hshape : front ++ '\r' :: back ++ [last] ++ ['\n'] =
        front ++ '\r' :: (back ++ [last, '\n']) := by simp
    have hne : ∀ c ∈ front ++ '\r' :: back ++ [last], c ≠ '\n' := fun c hc heq =>
      hline (heq ▸ hc)
    rw [hshape, lineBack_append_cons _ rfl]
    · cases back with
      | nil => exact lineEnding?_return_cons (hne last (by simp)) _
      | cons c back => exact lineEnding?_return_cons (hne c (by simp)) _
    · intro c hc
      exact isLineBreak_eq_false (hne c (by simp [hc])) (by rintro rfl; exact hfront hc)

theorem exists_lineEnding?_eq_some (hline : '\n' ∉ line) (h : ¬HasInnerReturn line) :
    ∃ ending, lineEnding? (lineBack (line ++ ['\n'])) = some (ending, []) := by
  rcases line.eq_nil_or_concat with rfl | ⟨front, last, rfl⟩
  · exact ⟨['\n'], rfl⟩
  · rw [List.concat_eq_append] at hline ⊢
    rw [HasInnerReturn, List.concat_eq_append, List.dropLast_concat] at h
    have hne : ∀ c ∈ front ++ [last], c ≠ '\n' := fun c hc heq => hline (heq ▸ hc)
    have hfront : ∀ c ∈ front, isLineBreak c = false := by
      intro c hc
      exact isLineBreak_eq_false (hne c (by simp [hc])) (by rintro rfl; exact h hc)
    by_cases hlast : last = '\r'
    · subst hlast
      rw [List.append_assoc, List.singleton_append, lineBack_append_cons hfront rfl]
      exact ⟨['\r', '\n'], rfl⟩
    · rw [lineBack_append_cons _ rfl]
      · exact ⟨['\n'], rfl⟩
      · intro c hc
        rcases List.mem_append.mp hc with hc | hc
        · exact hfront c hc
        · rw [List.mem_singleton.mp hc]
          exact isLineBreak_eq_false (hne last (by simp)) hlast

end Line

end Typikon.Text
