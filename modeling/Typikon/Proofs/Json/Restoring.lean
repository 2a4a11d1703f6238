import Typikon.Stored.Calendar

/-!
What is read back from a value that was written. A reader restores what a writer writes if it reads
every written value as that value, as long as its numbers and dates are within the limits, and
refuses it otherwise. Readers of lists and records are put together from those of their parts, and
so are the proofs that they restore.
-/

namespace Typikon.Json

variable {α β : Type}

/-- What is written is read back as the value it was if that fits, and else not at all. -/
def Restores (read : Json → Option α) (write : α → Json) (fits : α → Prop) : Prop :=
  ∀ value other, read (write value) = some other ↔ fits value ∧ other = value

/-! ### Simple values -/

theorem restores_string : Restores string? .string fun _ => True := by
  intro s other
  simp [string?, eq_comm]

theorem restores_bool : Restores bool? .bool fun _ => True := by
  intro b other
  simp [bool?, eq_comm]

theorem restores_integerWithin (low high : Int) :
    Restores (integerWithin? low high) .number fun n => low ≤ n ∧ n ≤ high := by
  intro n other
  simp [integerWithin?, eq_comm]

theorem restores_naturalUpTo (high : Nat) :
    Restores (naturalUpTo? high) (fun n : Nat => .number n) (· ≤ high) := by
  intro n other
  simp [naturalUpTo?, integerWithin?, eq_comm]

theorem restores_unsigned8 : Restores unsigned8? (fun n : Nat => .number n) (· ≤ 255) :=
  restores_naturalUpTo 255

theorem restores_unsigned32 :
    Restores unsigned32? (fun n : Nat => .number n) (· ≤ 4294967295) :=
  restores_naturalUpTo 4294967295

theorem restores_unsigned64 :
    Restores unsigned64? (fun n : Nat => .number n) (· ≤ 18446744073709551615) :=
  restores_naturalUpTo 18446744073709551615

theorem restores_signed32 :
    Restores signed32? .number fun n => -2147483648 ≤ n ∧ n ≤ 2147483647 :=
  restores_integerWithin (-2147483648) 2147483647

theorem restores_signed64 : Restores signed64? .number Text.Decimal.IsInt64 :=
  restores_integerWithin (-9223372036854775808) 9223372036854775807

theorem restores_vocabulary {v : Text.Vocabulary α}
    (h : ∀ value, v.ofWord? (v.word value) = some value) :
    Restores v.ofJson? v.toJson fun _ => True := by
  intro value other
  simp [Text.Vocabulary.toJson, Text.Vocabulary.ofJson?, h, eq_comm]

variable {read : Json → Option α} {write : α → Json} {fits : α → Prop}

/-- A list is read back if each of its values is. -/
theorem mapM_map_eq_some_iff {values : List α}
    (h : ∀ value ∈ values, ∀ other, read (write value) = some other ↔ fits value ∧ other = value)
    (others : List α) :
    (values.map write).mapM read = some others ↔
      (∀ value ∈ values, fits value) ∧ others = values := by
  induction values generalizing others with
  | nil => simp [eq_comm]
  | cons value values ih =>
    obtain ⟨hvalue, hvalues⟩ := List.forall_mem_cons.mp h
    rw [List.map_cons, List.mapM_cons, Option.bind_eq_bind, Option.bind_eq_some_iff]
    simp only [hvalue, Option.bind_eq_bind, Option.bind_eq_some_iff, ih hvalues,
      Option.pure_def, Option.some.injEq, List.forall_mem_cons]
    constructor
    · rintro ⟨_, ⟨hfits, rfl⟩, _, ⟨hall, rfl⟩, rfl⟩
      exact ⟨⟨hfits, hall⟩, rfl⟩
    · rintro ⟨⟨hfits, hall⟩, rfl⟩
      exact ⟨value, ⟨hfits, rfl⟩, values, ⟨hall, rfl⟩, rfl⟩

theorem Restores.list (h : Restores read write fits) :
    Restores (listOf? read) (fun values => .array (values.map write))
      fun values => ∀ value ∈ values, fits value :=
  fun _ others => mapM_map_eq_some_iff (fun value _ => h value) others

/-- A value that null may stand for is restored unless null is also how a value is written. -/
theorem Restores.nullable (h : Restores read write fits) (hnull : ∀ value, write value ≠ .null) :
    Restores (nullable? read) (fun value => ofOption (value.map write))
      fun value => ∀ v ∈ value, fits v := by
  intro value other
  cases value with
  | none => simp [ofOption, nullable?, eq_comm]
  | some value =>
    have hread : nullable? read (write value) = (read (write value)).map some := by
      unfold nullable?
      split
      · next heq => exact absurd heq (hnull value)
      · rfl
    change nullable? read (write value) = some other ↔
      (∀ v ∈ some value, fits v) ∧ other = some value
    rw [hread, Option.map_eq_some_iff]
    simp only [h value, Option.mem_def, Option.some.injEq, forall_eq']
    constructor
    · rintro ⟨_, ⟨hfits, rfl⟩, rfl⟩
      exact ⟨hfits, rfl⟩
    · rintro ⟨hfits, rfl⟩
      exact ⟨value, ⟨hfits, rfl⟩, rfl⟩

/-! ### Records

A record is read one field after another. Each of these lemmas reads one and leaves the rest.
-/

variable {next : α → RecordReader β} {rest : List (Option Json)} {result : β}

theorem run'_bind (reader : RecordReader α) (values : List (Option Json)) :
    (reader >>= next).run' values =
      (reader values).bind fun (value, rest) => (next value).run' rest := by
  change ((reader >>= next) values).map Prod.fst = _
  rw [bind_apply]
  cases reader values <;> rfl

theorem run'_pure_eq_some_iff {value : β} :
    (pure value : RecordReader β).run' rest = some result ↔ result = value := by
  change some value = some result ↔ _
  rw [Option.some.injEq, eq_comm]

theorem Restores.required_bind (h : Restores read write fits) (value : α) :
    (required read >>= next).run' (some (write value) :: rest) = some result ↔
      fits value ∧ (next value).run' rest = some result := by
  rw [run'_bind, Option.bind_eq_some_iff]
  simp only [required, Option.map_eq_some_iff, h value]
  constructor
  · rintro ⟨_, ⟨_, ⟨hfits, rfl⟩, rfl⟩, hnext⟩
    exact ⟨hfits, hnext⟩
  · rintro ⟨hfits, hnext⟩
    exact ⟨_, ⟨value, ⟨hfits, rfl⟩, rfl⟩, hnext⟩

theorem Restores.withDefault_bind (h : Restores read write fits) (default value : α) :
    (withDefault default read >>= next).run' (some (write value) :: rest) = some result ↔
      fits value ∧ (next value).run' rest = some result :=
  h.required_bind value

/-- A field that is left out where it has no value is read as if null stood there. -/
theorem Restores.optional_bind {next : Option α → RecordReader β} (h : Restores read write fits)
    (hnull : ∀ value, write value ≠ .null) (value : Option α) :
    (withDefault none (nullable? read) >>= next).run' (value.map write :: rest) = some result ↔
      (∀ v ∈ value, fits v) ∧ (next value).run' rest = some result := by
  have hslot : (withDefault none (nullable? read) >>= next).run' (value.map write :: rest) =
      (withDefault none (nullable? read) >>= next).run'
        (some (ofOption (value.map write)) :: rest) := by
    cases value <;> rfl
  rw [hslot]
  exact (h.nullable hnull).withDefault_bind none value

/-- A number that may be missing is written as the integer it is. -/
theorem map_number_natCast (n : Option Nat) :
    (n >>= fun k => pure (k : Int)).map (fun k => number k) = n.map fun k => .number k := by
  cases n <;> rfl

end Typikon.Json
