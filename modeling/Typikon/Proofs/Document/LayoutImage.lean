import Typikon.Draft.Finding
import Typikon.Proofs.Document.Image

/-!
The headers and footers that the nodes of a template stand for, by recursion on the nodes. What
stands in a position goes into the slot of that name. Directives stand for dates and page numbers,
literals for their text, and lookups for their references, which are resolved for the day that is in
force where the page block stands. What stands for nothing is a fault of the template.
-/

namespace Typikon

namespace PageBlock

/-- The block with more insertions in its slots, after those that it has. -/
def append (b : PageBlock) (more : Slot → List Insertion) : PageBlock where
  edge := b.edge
  parity := b.parity
  left := b.left ++ more .left
  center := b.center ++ more .center
  right := b.right ++ more .right

@[simp]
theorem append_nil (b : PageBlock) : (b.append fun _ => []) = b := by
  simp [append]

theorem append_append (b : PageBlock) (first second : Slot → List Insertion) :
    (b.append first).append second = b.append fun slot => first slot ++ second slot := by
  simp [append]

theorem insert_eq_append (b : PageBlock) (slot : Slot) (insertion : Insertion) :
    b.insert slot insertion = b.append fun other => if other = slot then [insertion] else [] := by
  cases slot <;> simp [insert, append]

end PageBlock

namespace PageLayout

theorem withDate_add (l : PageLayout) (b : PageBlock) (today : CivilDate) :
    (l.add b).withDate today = (l.withDate today).add (b.withDate today) := by
  have hedge : (b.withDate today).edge = b.edge := rfl
  unfold add
  rw [hedge]
  cases b.edge <;> simp [withDate]

/-- Blocks that are added one after another are the headers and the footers in their order. -/
theorem foldl_add (l : PageLayout) (blocks : List PageBlock) :
    blocks.foldl add l =
      ⟨l.headers ++ blocks.filter fun b => b.edge = .header,
        l.footers ++ blocks.filter fun b => b.edge = .footer⟩ := by
  induction blocks generalizing l with
  | nil => simp
  | cons b blocks ih =>
    rw [List.foldl_cons, ih]
    cases hedge : b.edge <;> simp [add, hedge]

end PageLayout

namespace Node

variable (day : LiturgicalDay) (today : CivilDate)

/-- What a child of a position stands for, with its references for a day and its date for a date. -/
def insertion? : Node → Option Insertion
  | .atom _ (.directive name) =>
    if name = "Date" then some (.date Insertion.dateStyle (some today))
    else if name = "PageNbr" then some (.pageNumber Insertion.pageNumberStyle)
    else none
  | .atom _ (.content (.literal text)) => some (.literal Insertion.literalStyle text)
  | .group _ (.lookup (some n)) children =>
    if 1 ≤ n ∧ n ≤ 3 ∧ referencesOfAll day children ≠ [] then
      some (.lookup Insertion.lookupStyle ⟨referencesOfAll day children, n.toNat⟩)
    else none
  | _ => none

/-- Why a child of a position stands for nothing, if it does. -/
def slotProblem : Node → Problem
  | .atom _ (.directive name) => .unknownDirective name
  | .group _ (.lookup none) _ => .libraryMissing
  | .group _ (.lookup (some n)) _ =>
    if 1 ≤ n ∧ n ≤ 3 then .lookupEmpty else .libraryOutOfRange n
  | _ => .unfitForSlot

/-- The fault of a child of a position that stands for nothing. That does not depend on the date,
which is given as the date of the day. -/
def slotFault? (node : Node) : Option Finding :=
  if node.insertion? day day.date = none then some (.certain node.location node.slotProblem)
  else none

/-- What a position puts into a slot. -/
def slotInsertions : Node → Slot → List Insertion
  | .group _ (.position name) children, slot =>
    if Slot.vocabulary.find? name = some slot then children.filterMap (insertion? day today) else []
  | _, _ => []

/-- The faults of a position: that it has no slot, and those of its children. -/
def positionFaults : Node → List Finding
  | .group loc (.position name) children =>
    (if Slot.vocabulary.find? name = none then
        [.certain loc (.keyword ⟨Slot.vocabulary.subject, name, Slot.vocabulary.expected⟩)]
      else []) ++
      children.filterMap (slotFault? day)
  | _ => []

def pageBlock? : Node → Option PageBlock
  | .group _ (.pageBlock edge parity) children =>
    some
      { edge
        parity
        left := children.flatMap (slotInsertions day today · .left)
        center := children.flatMap (slotInsertions day today · .center)
        right := children.flatMap (slotInsertions day today · .right) }
  | _ => none

def pageFaults : Node → List Finding
  | .group _ (.pageBlock _ _) children => children.flatMap (positionFaults day)
  | _ => []

/-- None of the faults is left to an index to settle. -/
theorem question?_of_mem_positionFaults (node : Node) :
    ∀ finding ∈ node.positionFaults day, finding.question? = none := by
  have hslot (child : Node) : ∀ finding ∈ child.slotFault? day, finding.question? = none := by
    intro finding hmem
    unfold slotFault? at hmem
    split at hmem
    · cases hmem
      rfl
    · cases hmem
  unfold positionFaults
  split
  · intro finding hmem
    rcases List.mem_append.mp hmem with hunknown | hchild
    · split at hunknown
      · rw [List.mem_singleton.mp hunknown]
        rfl
      · cases hunknown
    · obtain ⟨child, -, hfault⟩ := List.mem_filterMap.mp hchild
      exact hslot child finding hfault
  · exact List.forall_mem_nil _

theorem question?_of_mem_pageFaults (node : Node) :
    ∀ finding ∈ node.pageFaults day, finding.question? = none := by
  unfold pageFaults
  split
  · intro finding hmem
    obtain ⟨position, -, hfault⟩ := List.mem_flatMap.mp hmem
    exact question?_of_mem_positionFaults day position finding hfault
  · exact List.forall_mem_nil _

theorem withDate_insertion? (other : CivilDate) (node : Node) :
    (node.insertion? day other).map (Insertion.withDate today) = node.insertion? day today := by
  unfold insertion?
  split
  · split
    · rfl
    · split <;> rfl
  · rfl
  · split <;> rfl
  · rfl

theorem withDate_slotInsertions (other : CivilDate) (node : Node) (slot : Slot) :
    (node.slotInsertions day other slot).map (Insertion.withDate today) =
      node.slotInsertions day today slot := by
  unfold slotInsertions
  split
  · split
    · rw [List.map_filterMap]
      exact congrArg (List.filterMap · _) (funext (withDate_insertion? day today other))
    · rfl
  · rfl

theorem withDate_pageBlock? (other : CivilDate) (node : Node) :
    (node.pageBlock? day other).map (PageBlock.withDate today) = node.pageBlock? day today := by
  unfold pageBlock?
  split
  · simp [PageBlock.withDate, List.map_flatMap, withDate_slotInsertions]
  · rfl

end Node

namespace Dating

/-- The headers and footers that items of a template stand for, with their dates for a date. -/
def pageBlocks (t : Dating) (today : CivilDate) : List Node → List PageBlock
  | [] => []
  | item :: items => (item.pageBlock? t.day today).toList ++ (t.after item).pageBlocks today items

/-- The faults of the headers and footers among items of a template. -/
def pageFaults (t : Dating) : List Node → List Finding
  | [] => []
  | item :: items => item.pageFaults t.day ++ (t.after item).pageFaults items

theorem question?_of_mem_pageFaults (t : Dating) (items : List Node) :
    ∀ finding ∈ t.pageFaults items, finding.question? = none := by
  induction items generalizing t with
  | nil => exact List.forall_mem_nil _
  | cons item items ih =>
    rw [pageFaults, List.forall_mem_append]
    exact ⟨item.question?_of_mem_pageFaults t.day, ih (t.after item)⟩

end Dating

end Typikon
