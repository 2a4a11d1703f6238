import Typikon.Proofs.Document.Pieces
import Typikon.Proofs.Draft.BodyOfTree

/-!
What events enter. The leaves and directives among the nodes that are entered can become pieces of a
document, each for the day that is in force where it stands.
-/

namespace Typikon

/-- Whether an atom of a template, on the day in force where it stands, can become a piece. -/
inductive Node.Atom.Becomes (day : LiturgicalDay) : Node.Atom → Piece → Prop
  | leaf (content : Content) :
    Becomes day (.content content)
      (.leaf content.style (Resolution.ofContent day content).reference)
  | literal (text : String) : Becomes day (.content (.literal text)) (.literal text)
  | relative (path : String) (overrides : List Override) :
    Becomes day (.content (.relative path overrides))
      (.lookup (Resolution.ofContent day (.relative path overrides)).reference)
  | absolute (path : String) :
    Becomes day (.content (.absolute path))
      (.lookup (Resolution.ofContent day (.absolute path)).reference)
  | date : Becomes day (.directive "Date") .date
  | pageNumber : Becomes day (.directive "PageNbr") .pageNumber

/-- The atom that an event enters, unless it is a property. -/
def Event.atom? : Event → Option Node.Atom
  | .enter _ (.atom (.property _ _)) => none
  | .enter _ (.atom a) => some a
  | _ => none

namespace Dating

/-- What is in force after an event. -/
def afterEvent (t : Dating) : Event → Dating
  | .enter _ (.atom (.property name value)) => t.set name value
  | _ => t

/-- The atoms that events enter, each with the day in force where it stands. -/
def entered (t : Dating) : List Event → List (LiturgicalDay × Node.Atom)
  | [] => []
  | event :: events => event.atom?.toList.map (t.day, ·) ++ (t.afterEvent event).entered events

end Dating

namespace Body

theorem dating_enter (b : Body) (loc : Location) (head : Node.Head) :
    (b.enter head).dating = b.dating.afterEvent (.enter loc head) := by
  match head with
  | .atom (.property name value) => rfl
  | .atom (.directive name) => rfl
  | .atom (.content content) =>
    change (b.addLeaf content).dating = b.dating
    unfold addLeaf
    split
    · rfl
    · exact dating_attachAll b _
  | .group .template => rfl
  | .group (.pageBlock edge parity) => rfl
  | .group (.position slot) => rfl
  | .group (.lookup library) => rfl
  | .group (.paragraph style version) =>
    change (b.openParagraph style).dating = b.dating
    unfold openParagraph
    split <;> rfl
  | .group (.span style) => rfl

theorem dating_exit (b : Body) (head : Node.Head) : (b.exit head).dating = b.dating := by
  match head with
  | .atom a => rfl
  | .group .template => rfl
  | .group (.pageBlock edge parity) => rfl
  | .group (.position slot) => rfl
  | .group (.lookup library) => rfl
  | .group (.paragraph style version) =>
    change (if b.paragraph.isSome then b.closeParagraph version else b).dating = b.dating
    split <;> rfl
  | .group (.span style) =>
    change b.closeSpan.dating = b.dating
    unfold closeSpan
    split
    · rfl
    · exact dating_attachAll _ _

theorem dating_event (b : Body) (event : Event) :
    (b.event event).dating = b.dating.afterEvent event := by
  cases event with
  | enter loc head => exact dating_enter b loc head
  | exit loc head => exact dating_exit b head

end Body

theorem Draft.dating_event (d : Draft) (event : Event) :
    (d.event event).dating = d.dating.afterEvent event := by
  calc
    (d.event event).dating = (d.body.event event).dating := by rw [← Draft.body_event]; rfl
    _ = d.dating.afterEvent event := Body.dating_event d.body event

end Typikon
