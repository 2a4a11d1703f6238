import Typikon.Text.Decimal
import Typikon.Text.Quoted

/-!
Writing strings and integers so that they are read back: every string can stand in quotes once its
quotes, backslashes, newlines and tabs are escaped, and every integer of 64 bits in decimal. A
number padded with zeros is still the number.
-/

namespace Typikon.Text

namespace Quoted

def escapeChar (c : Char) : List Char :=
  if c = '"' then ['\\', '"']
  else if c = '\\' then ['\\', '\\']
  else if c = '\n' then ['\\', 'n']
  else if c = '\t' then ['\\', 't']
  else [c]

/-- The body of the quoted string that stands for a text. -/
def escape (s : List Char) : List Char :=
  s.flatMap escapeChar

theorem closing?_cons {c : Char} (s : List Char) (hquote : c ≠ '"') (hslash : c ≠ '\\')
    (hnewline : c ≠ '\n') :
    closing? (c :: s) = (closing? s).map fun (body, rest) => (c :: body, rest) := by
  rw [closing?.eq_def]
  split <;> simp_all

/-- A character that neither ends a text as a backslash nor begins an escape is no backslash. -/
theorem ne_backslash {c : Char} {s : List Char} (hlast : c = '\\' → s = [] → False)
    (hescape : ∀ d rest, c = '\\' → s = d :: rest → False) : c ≠ '\\' := by
  intro hc
  cases s with
  | nil => exact hlast hc rfl
  | cons d rest => exact hescape d rest hc rfl

theorem unescape_cons {c : Char} (s : List Char) (hslash : c ≠ '\\') :
    unescape (c :: s) = c :: unescape s := by
  rw [unescape.eq_def]
  split <;> simp_all

/-- A character is escaped to a backslash and one that is no newline, or stands for itself. -/
theorem escapeChar_cases (c : Char) :
    (∃ e, escapeChar c = ['\\', e] ∧ e ≠ '\n' ∧ ∀ s, unescape ('\\' :: e :: s) = c :: unescape s) ∨
      (escapeChar c = [c] ∧ c ≠ '"' ∧ c ≠ '\\' ∧ c ≠ '\n') := by
  by_cases hquote : c = '"'
  · subst hquote
    exact .inl ⟨'"', rfl, by decide, fun _ => rfl⟩
  · by_cases hslash : c = '\\'
    · subst hslash
      exact .inl ⟨'\\', rfl, by decide, fun _ => rfl⟩
    · by_cases hnewline : c = '\n'
      · subst hnewline
        exact .inl ⟨'n', rfl, by decide, fun _ => rfl⟩
      · by_cases htab : c = '\t'
        · subst htab
          exact .inl ⟨'t', rfl, by decide, fun _ => rfl⟩
        · have hplain : escapeChar c = [c] := by
            simp [escapeChar, hquote, hslash, hnewline, htab]
          exact .inr ⟨hplain, hquote, hslash, hnewline⟩

theorem closing?_escape (s rest : List Char) :
    closing? (escape s ++ '"' :: rest) = some (escape s, rest) := by
  unfold escape
  induction s with
  | nil => rfl
  | cons c s ih =>
    rw [List.flatMap_cons, List.append_assoc]
    rcases escapeChar_cases c with ⟨e, he, hnewline, -⟩ | ⟨hplain, hquote, hslash, hnewline⟩
    · rw [he]
      simp [closing?, hnewline, ih]
    · rw [hplain, List.singleton_append, closing?_cons _ hquote hslash hnewline, ih]
      rfl

theorem unescape_escape (s : List Char) : unescape (escape s) = s := by
  unfold escape
  induction s with
  | nil => rfl
  | cons c s ih =>
    rw [List.flatMap_cons]
    rcases escapeChar_cases c with ⟨e, he, -, hunescape⟩ | ⟨hplain, -, hslash, -⟩
    · rw [he, List.cons_append, List.singleton_append, hunescape, ih]
    · rw [hplain, List.singleton_append, unescape_cons _ hslash, ih]

end Quoted

namespace Decimal

theorem toList_toString_cases (n : Int) :
    ∃ k : Nat, (n = k ∧ (toString n).toList = Nat.toDigits 10 k) ∨
      (n = -k ∧ (toString n).toList = '-' :: Nat.toDigits 10 k) := by
  cases n with
  | ofNat k => exact ⟨k, .inl ⟨rfl, Nat.toList_repr⟩⟩
  | negSucc k =>
    refine ⟨k + 1, .inr ⟨rfl, ?_⟩⟩
    change ("-" ++ Nat.repr (k + 1)).toList = _
    rw [String.toList_append, Nat.toList_repr]
    rfl

theorem isDigit_of_mem_toDigits {k : Nat} {c : Char} (h : c ∈ Nat.toDigits 10 k) :
    c.isDigit = true :=
  Nat.isDigit_of_mem_toDigits (by decide) (by decide) h

theorem int?_toDigits (k : Nat) : int? (Nat.toDigits 10 k) = some (k : Int) := by
  have hread := nat?_toDigits k
  cases hdigits : Nat.toDigits 10 k with
  | nil => exact absurd hdigits Nat.toDigits_ne_nil
  | cons c s =>
    have hdigit : c.isDigit = true :=
      isDigit_of_mem_toDigits (hdigits ▸ List.mem_cons_self)
    rw [hdigits] at hread
    unfold int?
    split
    · next heq =>
      cases heq
      cases hdigit
    · next heq =>
      cases heq
      cases hdigit
    · rw [hread]
      rfl

theorem int64?_toString {n : Int} (h : IsInt64 n) : int64? (toString n).toList = some n := by
  have hread : int? (toString n).toList = some n := by
    obtain ⟨k, ⟨rfl, hdigits⟩ | ⟨rfl, hdigits⟩⟩ := toList_toString_cases n
    · rw [hdigits]
      exact int?_toDigits k
    · rw [hdigits, int?, nat?_toDigits]
      rfl
  rw [int64?, hread, Option.filter_some, if_pos (decide_eq_true h)]

theorem toList_padded (width n : Nat) :
    (padded width n).toList =
      List.replicate (width - (Nat.toDigits 10 n).length) '0' ++ Nat.toDigits 10 n := by
  simp [padded, List.leftpad]

theorem isDigit_of_mem_padded {width n : Nat} {c : Char} (h : c ∈ (padded width n).toList) :
    c.isDigit = true := by
  rw [toList_padded, List.mem_append] at h
  rcases h with h | h
  · rw [List.eq_of_mem_replicate h]
    rfl
  · exact isDigit_of_mem_toDigits h

theorem ofDigitChars_replicate_zero_append (k : Nat) (s : List Char) :
    Nat.ofDigitChars 10 (List.replicate k '0' ++ s) 0 = Nat.ofDigitChars 10 s 0 := by
  induction k with
  | zero => rfl
  | succ k ih =>
    rw [List.replicate_succ, List.cons_append, Nat.ofDigitChars_cons]
    exact ih

theorem exists_padded_eq_cons (width n : Nat) :
    ∃ c s, (padded width n).toList = c :: s ∧ c.isDigit = true := by
  cases hdigits : (padded width n).toList with
  | nil =>
    rw [toList_padded] at hdigits
    exact absurd (List.append_eq_nil_iff.mp hdigits).2 Nat.toDigits_ne_nil
  | cons c s => exact ⟨c, s, rfl, isDigit_of_mem_padded (hdigits ▸ List.mem_cons_self)⟩

theorem nat?_padded (width n : Nat) : nat? (padded width n).toList = some n := by
  have hnil : (padded width n).toList ≠ [] := by
    obtain ⟨c, s, hdigits, -⟩ := exists_padded_eq_cons width n
    rw [hdigits]
    exact List.cons_ne_nil c s
  have hdigits : (padded width n).toList.all Char.isDigit = true :=
    List.all_eq_true.mpr fun _ => isDigit_of_mem_padded
  rw [nat?, if_pos ⟨hnil, hdigits⟩, toList_padded, ofDigitChars_replicate_zero_append,
    Nat.ofDigitChars_ten_toDigits]

theorem length_padded {width n : Nat} (h : (Nat.toDigits 10 n).length ≤ width) :
    (padded width n).toList.length = width := by
  rw [toList_padded, List.length_append, List.length_replicate]
  omega

end Decimal

end Typikon.Text
