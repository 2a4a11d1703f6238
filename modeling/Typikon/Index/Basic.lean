import Typikon.Index.Entry
import Std.Data.HashMap

/-!
Indexes. An index answers whether a library has an entry, or fails to answer. It may change with
every question, so a question takes the state of the index and gives the next one.
-/

namespace Typikon

inductive IndexError where
  | unavailable (reason : String)
  | unreadable (path reason : String)
  | malformed (line : Nat) (text : String)
deriving DecidableEq

namespace IndexError

def message : IndexError → String
  | .unavailable reason => s!"topic-key index unavailable: {reason}"
  | .unreadable path reason => s!"failed to read index {path}: {reason}"
  | .malformed line text => s!"index line {line}: expected topic/key, found \"{text}\""

end IndexError

abbrev Index (σ : Type) : Type :=
  Entry → σ → Except IndexError Bool × σ

namespace Index

def full : Index Unit :=
  fun _ state => (.ok true, state)

/-- The index that gives listed answers, one after another, and then has no entry. -/
def scripted : Index (List (Except IndexError Bool))
  | _, [] => (.ok false, [])
  | _, answer :: answers => (answer, answers)

/-- An index that counts the questions it is asked. -/
def counted {σ : Type} (index : Index σ) : Index (σ × Nat)
  | entry, (state, count) =>
    let (answer, state) := index entry state
    (answer, state, count + 1)

/-- An index that remembers the answers of another by the path of the entry. A failure is not
remembered. -/
def cached {σ : Type} (index : Index σ) : Index (σ × Std.HashMap String Bool)
  | entry, (state, cache) =>
    match cache[entry.path]? with
    | some found => (.ok found, state, cache)
    | none =>
      match index entry state with
      | (.ok found, state) => (.ok found, state, cache.insert entry.path found)
      | (.error e, state) => (.error e, state, cache)

end Index

end Typikon
