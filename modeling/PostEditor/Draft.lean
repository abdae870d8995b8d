import PostEditor.TextField

namespace PostEditor

structure Draft where
  text : Text
  selection : Selection
  deriving DecidableEq, Repr

namespace Draft

def ofText (t : Text) : Draft := ⟨t, .cursor t.bytes⟩

def setSelection (d : Draft) (s : Selection) : Draft := { d with selection := s.clampTo d.text }

/-- Takes over a text and a selection that were edited elsewhere. -/
def takeInput (t : Text) (s : Selection) : Draft := ⟨t, s.clampTo t⟩

instance : TextField Draft where
  text := Draft.text
  selection := Draft.selection
  splice d start stop insert := { d with text := d.text.splice start stop insert }
  select d start stop := d.setSelection (.between start stop)

def Valid (d : Draft) : Prop := d.selection.Valid d.text

theorem ofText_valid (t : Text) : (ofText t).Valid := Selection.cursor_valid t.isBoundary_bytes

theorem setSelection_valid (d : Draft) (s : Selection) : (d.setSelection s).Valid :=
  Selection.clampTo_valid s d.text

theorem takeInput_valid (t : Text) (s : Selection) : (takeInput t s).Valid :=
  Selection.clampTo_valid s t

/-- Every transaction that fits leaves a valid selection, whatever it asks for. -/
theorem apply_valid {d : Draft} {tr : Transaction} {a : Applied Draft}
    (h : TextField.apply d tr = .ok a) : a.field.Valid := by
  unfold TextField.apply at h
  simp only at h
  split at h
  · cases h
  · cases h
    exact setSelection_valid _ _

def typeChar (d : Draft) (c : Char) : Draft :=
  let s := d.selection.clampTo d.text
  takeInput (d.text.splice s.start s.stop [c]) (.cursor (s.start + c.utf8Size))

/-- Deleting takes the selection away, or the character before the caret when nothing is selected. -/
def backspace (d : Draft) : Draft :=
  let s := d.selection.clampTo d.text
  let kept : Text := if s.isCursor then (d.text.before s.start).dropLast else d.text.before s.start
  takeInput (kept ++ d.text.after s.stop) (.cursor kept.bytes)

theorem typeChar_valid (d : Draft) (c : Char) : (d.typeChar c).Valid := takeInput_valid _ _

theorem backspace_valid (d : Draft) : d.backspace.Valid := takeInput_valid _ _

end Draft

end PostEditor
