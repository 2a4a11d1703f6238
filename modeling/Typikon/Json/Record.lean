import Typikon.Json.Basic

/-!
Records in JSON. The names of a record's fields are listed once, in order, and both its writing and
its reading go by that list. A field without a value is left out. A record may also be given as the
list of its leading fields without their names.

What is read from a written record are the values that were written (`readRecord?_record`).
-/

namespace Typikon.Json

/-- The fields with values for names, in their order. -/
def fieldsOf (names : List String) (values : List (Option Json)) : List (String × Json) :=
  (names.zip values).filterMap fun (name, value) => value.map (name, ·)

def record (names : List String) (values : List (Option Json)) : Json :=
  .object (fieldsOf names values)

/-- The record that begins with the word for its variant. -/
def variant (word : String) (names : List String) (values : List (Option Json)) : Json :=
  .object (("type", .string word) :: fieldsOf names values)

def values? (names : List String) : Json → Option (List (Option Json))
  | .object fields => some (names.map fun name => fields.lookup name)
  | .array items =>
    if items.length ≤ names.length then
      some (items.map some ++ List.replicate (names.length - items.length) none)
    else none
  | _ => none

/-- Splits off a record what tells its variant. -/
def tag? : Json → Option (Json × Json)
  | .object fields => (fields.lookup "type").map (·, .object fields)
  | .array (tag :: items) => some (tag, .array items)
  | _ => none

/-- Splits the word for its variant off a record. -/
def variant? (j : Json) : Option (String × Json) := do
  let (.string word, fields) ← j.tag? | none
  return (word, fields)

/-- Splits the word for its variant off a record, where the place of the word among all words, from
0, may stand for it. -/
def numberedVariant? (words : List String) (j : Json) : Option (String × Json) := do
  match ← j.tag? with
  | (.string word, fields) => return (word, fields)
  | (.number n, fields) => if n < 0 then none else return (← words[n.toNat]?, fields)
  | _ => none

/-- Reads a record one value after another. -/
abbrev RecordReader : Type → Type :=
  StateT (List (Option Json)) Option

variable {α β : Type}

def required (read : Json → Option α) : RecordReader α
  | some j :: rest => (read j).map (·, rest)
  | _ => none

/-- Reads a value, for which another stands if it is not there. -/
def withDefault (default : α) (read : Json → Option α) : RecordReader α
  | some j :: rest => (read j).map (·, rest)
  | none :: rest => some (default, rest)
  | [] => none

def readRecord? (names : List String) (reader : RecordReader α) (j : Json) : Option α := do
  reader.run' (← j.values? names)

theorem bind_apply (reader : RecordReader α) (next : α → RecordReader β)
    (values : List (Option Json)) :
    (reader >>= next) values = (reader values).bind fun (a, rest) => next a rest := rfl

theorem lookup_fieldsOf_of_not_mem {name : String} {names : List String} (h : name ∉ names)
    (values : List (Option Json)) : (fieldsOf names values).lookup name = none := by
  induction names generalizing values with
  | nil => rfl
  | cons first names ih =>
    simp only [List.mem_cons, not_or] at h
    rcases values with _ | ⟨_ | value, values⟩
    · rfl
    · exact ih h.2 values
    · have hne : (name == first) = false := by simpa using h.1
      simpa [fieldsOf, List.lookup_cons, hne] using ih h.2 values

theorem map_lookup_cons {name : String} {names : List String} (h : name ∉ names) (value : Json)
    (fields : List (String × Json)) :
    (names.map fun other => ((name, value) :: fields).lookup other) =
      names.map fun other => fields.lookup other := by
  apply List.map_congr_left
  intro other hother
  have hne : (other == name) = false := by
    simp only [beq_eq_false_iff_ne]
    rintro rfl
    exact h hother
  simp [List.lookup_cons, hne]

theorem map_lookup_fieldsOf {names : List String} (hnodup : names.Nodup)
    {values : List (Option Json)} (hlength : names.length = values.length) :
    (names.map fun name => (fieldsOf names values).lookup name) = values := by
  induction names generalizing values with
  | nil => simpa using (List.length_eq_zero_iff.1 hlength.symm).symm
  | cons first names ih =>
    obtain ⟨hfirst, hnodup⟩ := List.nodup_cons.1 hnodup
    rcases values with _ | ⟨_ | value, values⟩
    · simp at hlength
    · have hskip : fieldsOf (first :: names) (none :: values) = fieldsOf names values := rfl
      rw [hskip, List.map_cons, lookup_fieldsOf_of_not_mem hfirst,
        ih hnodup (by simpa using hlength)]
    · have hcons : fieldsOf (first :: names) (some value :: values) =
          (first, value) :: fieldsOf names values := rfl
      rw [hcons, List.map_cons, map_lookup_cons hfirst, ih hnodup (by simpa using hlength)]
      simp

/-- Reading a written record reads the values that were written. -/
theorem readRecord?_record {names : List String} (hnodup : names.Nodup)
    {values : List (Option Json)} (hlength : names.length = values.length)
    (reader : RecordReader α) :
    readRecord? names reader (record names values) = reader.run' values := by
  simp [readRecord?, record, values?, map_lookup_fieldsOf hnodup hlength]

theorem variant?_variant (word : String) (names : List String) (values : List (Option Json)) :
    variant? (variant word names values) = some (word, variant word names values) := by
  simp [variant?, tag?, variant]

theorem numberedVariant?_variant (words : List String) (word : String) (names : List String)
    (values : List (Option Json)) :
    numberedVariant? words (variant word names values) =
      some (word, variant word names values) := by
  simp [numberedVariant?, tag?, variant]

/-- The same for a record with a variant, whose word is no field of it. -/
theorem readRecord?_variant {names : List String} (hnodup : names.Nodup) (htype : "type" ∉ names)
    {values : List (Option Json)} (hlength : names.length = values.length) (word : String)
    (reader : RecordReader α) :
    readRecord? names reader (variant word names values) = reader.run' values := by
  simp only [readRecord?, variant, values?, map_lookup_cons htype,
    map_lookup_fieldsOf hnodup hlength]
  rfl

end Typikon.Json
