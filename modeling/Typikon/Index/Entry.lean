/-!
Entries of a library. An entry is a topic and a key, and is written with a slash between them.
-/

namespace Typikon

structure Entry where
  topic : String
  key : String
deriving DecidableEq

/-- Why a text is not the path of an entry. -/
inductive PathError where
  | noSlash (path : String)
  | manySlashes (path : String)
deriving DecidableEq

namespace PathError

def message : PathError → String
  | .noSlash path => s!"expecting at least one forward slash in topic/key path \"{path}\""
  | .manySlashes path => s!"expecting only one forward slash in topic/key path \"{path}\""

end PathError

namespace Entry

def path (e : Entry) : String :=
  e.topic ++ "/" ++ e.key

/-- The entry of a path, which has exactly one slash. Topic and key may be empty. -/
def ofPath (path : String) : Except PathError Entry :=
  match path.toList.splitOn '/' with
  | [topic, key] => .ok ⟨String.ofList topic, String.ofList key⟩
  | [_] => .error (.noSlash path)
  | _ => .error (.manySlashes path)

end Entry

end Typikon
