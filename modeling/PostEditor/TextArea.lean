import PostEditor.TextField
import PostEditor.Units

namespace PostEditor

/-- An element that holds a text and, if it tells, a selection in 16-bit units. -/
class Element (ε : Type) where
  value : ε → Text
  setValue : ε → Text → ε
  /-- The selection, unless the element refuses to tell it. -/
  selectionRange? : ε → Option (Nat × Nat)
  setSelectionRange : ε → (start stop : Nat) → ε

instance {ε : Type} [Element ε] : TextField ε where
  text := Element.value
  selection e :=
    let t := Element.value e
    match Element.selectionRange? e with
    | some (start, stop) => .between (t.unitsToBytes start) (t.unitsToBytes stop)
    | none => .cursor t.bytes
  splice e start stop insert := Element.setValue e ((Element.value e).splice start stop insert)
  select e start stop :=
    let t := Element.value e
    let s := (Selection.between start stop).clampTo t
    Element.setSelectionRange e (t.bytesToUnits s.start) (t.bytesToUnits s.stop)

/-- How an element treats its selection: it tells and takes it, only takes it, or does neither. -/
inductive SelectionAccess
  | full
  | hidden
  | refused
  deriving DecidableEq, Repr

structure TextArea where
  value : Text := []
  selection : Nat × Nat := (0, 0)
  access : SelectionAccess := .full
  deriving DecidableEq, Repr

namespace TextArea

/-- Replaces the text as a program does: a different text takes the caret to its end. -/
def setValue (a : TextArea) (t : Text) : TextArea :=
  if t = a.value then a else { a with value := t, selection := (t.units, t.units) }

theorem setValue_value (a : TextArea) (t : Text) : (a.setValue t).value = t := by
  unfold setValue
  split
  next same => exact same.symm
  next => rfl

/-- Selects a range, with both ends brought into the text and in order. -/
def setSelectionRange (a : TextArea) (start stop : Nat) : TextArea :=
  match a.access with
  | .refused => a
  | _ =>
    let stop := min stop a.value.units
    { a with selection := (min start stop, stop) }

instance : Element TextArea where
  value := TextArea.value
  setValue := TextArea.setValue
  selectionRange? a := if a.access = .full then some a.selection else none
  setSelectionRange := TextArea.setSelectionRange

def head (a : TextArea) : Text := Text.front Text.unitSize a.selection.1 a.value

def tail (a : TextArea) : Text := Text.back Text.unitSize a.selection.2 a.value

def withCaretAfter (a : TextArea) (front : Text) : TextArea :=
  { a with value := front ++ a.tail, selection := (front.units, front.units) }

def typeChar (a : TextArea) (c : Char) : TextArea := a.withCaretAfter (a.head ++ [c])

def backspace (a : TextArea) : TextArea :=
  a.withCaretAfter (if a.selection.1 = a.selection.2 then a.head.dropLast else a.head)

end TextArea

end PostEditor
