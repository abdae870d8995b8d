import PostEditor.Characters

namespace PostEditor

inductive CloseReason
  | caretBeforeAnchor
  | anchorOutOfRange
  | triggerRemoved
  | whitespace
  | cancelled
  | committed
  | focusLost
  | replaced
  deriving DecidableEq, Repr

def CloseReason.message : CloseReason → Text
  | .caretBeforeAnchor => "caret moved before anchor".toList
  | .anchorOutOfRange => "anchor out of range".toList
  | .triggerRemoved => "trigger removed".toList
  | .whitespace => "whitespace in query".toList
  | .cancelled => "cancelled".toList
  | .committed => "committed".toList
  | .focusLost => "focus lost".toList
  | .replaced => "buffer replaced".toList

namespace Mention

/-- The text between anchor and caret while it is a mention, or the first reason why it is none. -/
def query (t : Text) (caret anchor : Nat) (trigger : Char) : Except CloseReason Text :=
  if caret < anchor then .error .caretBeforeAnchor
  else if ¬t.IsBoundary anchor then .error .anchorOutOfRange
  else if (t.before anchor).getLast? ≠ some trigger then .error .triggerRemoved
  else
    match t.slice? anchor caret with
    | none => .error .anchorOutOfRange
    | some q => if q.any isBlank then .error .whitespace else .ok q

/-- The anchor of a mention that a trigger right before the caret opens. -/
def typedTrigger? (t : Text) (caret : Nat) (trigger : Char) : Option Nat :=
  if t.IsBoundary caret ∧ (t.before caret).getLast? = some trigger then some caret else none

end Mention

end PostEditor
