import PostEditor.Text

namespace PostEditor

inductive Key
  | arrowUp
  | arrowDown
  | tab
  | enter
  | escape
  | backspace
  | other
  deriving DecidableEq, Repr

/-- A key by its name, which is a different one in some browsers. -/
def Key.ofName (name : Text) : Key :=
  if name = "ArrowUp".toList ∨ name = "Up".toList then .arrowUp
  else if name = "ArrowDown".toList ∨ name = "Down".toList then .arrowDown
  else if name = "Tab".toList then .tab
  else if name = "Enter".toList then .enter
  else if name = "Escape".toList ∨ name = "Esc".toList then .escape
  else if name = "Backspace".toList then .backspace
  else .other

inductive KeyOutcome
  | handled
  | passThrough
  deriving DecidableEq, Repr

inductive InputKind
  | insert
  | delete
  | other
  deriving DecidableEq, Repr

def InputKind.ofName (name : Text) : InputKind :=
  if "insert".toList.isPrefixOf name then .insert
  else if "delete".toList.isPrefixOf name then .delete
  else .other

end PostEditor
