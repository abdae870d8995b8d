import PostEditor.Proofs.DraftEdits
import PostEditor.Proofs.ShiftedText

namespace PostEditor

def Event.shift (n : Nat) : Event → Event
  | .mentionOpened anchor => .mentionOpened (anchor + n)
  | .mentionClosed anchor reason => .mentionClosed (anchor + n) reason
  | event => event

/-- The same answer, about a state that has been moved, with the anchors in the log moved on by `n`. -/
def Report.moved {σ τ ρ : Type} (r : Report σ ρ) (n : Nat) (f : σ → τ) : Report τ ρ :=
  ⟨r.result, f r.state, r.log.map (·.shift n)⟩

namespace Draft

/-- The draft with a text in front, its selection moved along. -/
def withHead (d : Draft) (p : Text) : Draft := ⟨p ++ d.text, d.selection.shift p.bytes⟩

variable (d : Draft) (p : Text)

@[simp] theorem withHead_text : (d.withHead p).text = p ++ d.text := rfl

@[simp] theorem withHead_selection : (d.withHead p).selection = d.selection.shift p.bytes := rfl

theorem clamped_withHead : TextField.clamped (d.withHead p) = (TextField.clamped d).shift p.bytes :=
  Selection.clampTo_shift d.selection p d.text

theorem takeInput_withHead (t : Text) (s : Selection) :
    takeInput (p ++ t) (s.shift p.bytes) = (takeInput t s).withHead p := by
  simp only [takeInput, withHead, Selection.clampTo_shift]

theorem setSelection_withHead (s : Selection) :
    (d.withHead p).setSelection (s.shift p.bytes) = (d.setSelection s).withHead p :=
  takeInput_withHead p d.text s

theorem typeChar_withHead (c : Char) : (d.withHead p).typeChar c = (d.typeChar c).withHead p := by
  simp only [typeChar, withHead_text, withHead_selection, Selection.clampTo_shift, Selection.shift_start,
    Selection.shift_stop, Text.splice_append_add]
  rw [Nat.add_right_comm, Selection.cursor_add, takeInput_withHead]

end Draft

def Applied.withHead (a : Applied Draft) (p : Text) : Applied Draft :=
  ⟨a.field.withHead p, a.outcome, a.event.shift p.bytes⟩

def Transaction.shift (tr : Transaction) (n : Nat) : Transaction :=
  { tr with
    change := ⟨tr.change.start + n, tr.change.stop + n, tr.change.insert⟩
    selection := tr.selection.shift n }

theorem caretAfterInsert_add (start n : Nat) (insert : Text) (policy : CaretPolicy) :
    caretAfterInsert (start + n) insert policy = caretAfterInsert start insert policy + n := by
  cases policy with
  | afterInsert => exact Nat.add_right_comm start n insert.bytes
  | insideTrailingParen =>
    simp only [caretAfterInsert]
    split
    next paren =>
      obtain ⟨front, rfl⟩ := List.getLast?_eq_some_iff.mp paren
      have one := Char.utf8Size_pos ')'
      simp only [Text.bytes_append, Text.bytes_cons]
      omega
    next => exact Nat.add_right_comm start n insert.bytes

namespace Draft

variable (d : Draft) (p : Text)

/-- A transaction that fits is carried out in the same way further on. -/
theorem apply_withHead (tr : Transaction) (hle : tr.change.start ≤ tr.change.stop)
    (hs : d.text.IsBoundary tr.change.start) (he : d.text.IsBoundary tr.change.stop) :
    TextField.apply (d.withHead p) (tr.shift p.bytes) = (TextField.apply d tr).map (·.withHead p) := by
  have hs' := (Text.isBoundary_append_add_iff p d.text tr.change.start).mpr hs
  have he' := (Text.isBoundary_append_add_iff p d.text tr.change.stop).mpr he
  have moved := @apply_of_fits (d.withHead p) (tr.shift p.bytes) (Nat.add_le_add_right hle p.bytes) hs' he'
  have edited : (p ++ d.text).splice (tr.change.start + p.bytes) (tr.change.stop + p.bytes) tr.change.insert =
      p ++ d.text.splice tr.change.start tr.change.stop tr.change.insert :=
    p.splice_append_add d.text _ _ _
  have slice : (p ++ d.text).slice (tr.change.start + p.bytes) (tr.change.stop + p.bytes) =
      d.text.slice tr.change.start tr.change.stop :=
    p.slice_append_add d.text _ _
  rw [apply_of_fits hle hs he, moved]
  simp only [Transaction.shift, withHead_text, withHead_selection, edited, slice, Selection.shift_start,
    Selection.shift_stop, Selection.between_add, Selection.clampTo_shift, Selection.shift_bne_shift]
  rfl

theorem replaceSelection_withHead (insert : Text) (policy : CaretPolicy) (label : Text) :
    TextField.replaceSelection (d.withHead p) insert policy label =
      (TextField.replaceSelection d insert policy label).map (·.withHead p) := by
  obtain ⟨hle, hs, he⟩ := d.clamped_valid
  have moved := d.apply_withHead p ⟨⟨(TextField.clamped d).start, (TextField.clamped d).stop, insert⟩,
    .cursor (caretAfterInsert (TextField.clamped d).start insert policy), label⟩ hle hs he
  simp only [TextField.replaceSelection, clamped_withHead, Selection.shift_start, Selection.shift_stop,
    caretAfterInsert_add]
  exact moved

theorem appendMediaLink_withHead (path : Text) :
    TextField.appendMediaLink (d.withHead p) path = (TextField.appendMediaLink d path).map (·.withHead p) := by
  have last := d.text.isBoundary_bytes
  have moved := d.apply_withHead p ⟨⟨d.text.bytes, d.text.bytes, TextField.mediaLink path⟩,
    .cursor (d.text.bytes + (TextField.mediaLink path).bytes), "media-upload".toList⟩ (Nat.le_refl _) last last
  have length : (TextField.text (d.withHead p)).bytes = d.text.bytes + p.bytes := by
    show (p ++ d.text).bytes = _
    rw [Text.bytes_append, Nat.add_comm]
  simp only [TextField.appendMediaLink, length]
  rw [Nat.add_right_comm]
  exact moved

theorem surround_withHead (mark label : Text) :
    TextField.surround (d.withHead p) mark label = (TextField.surround d mark label).map (·.withHead p) := by
  obtain ⟨hle, hs, he⟩ := d.clamped_valid
  have selected (i j : Nat) : (TextField.text (d.withHead p)).slice (i + p.bytes) (j + p.bytes) =
      (TextField.text d).slice i j :=
    p.slice_append_add d.text i j
  have caret (between : Bool) (start inside behind : Nat) :
      (if between then start + p.bytes + inside else start + p.bytes + behind) =
        (if between then start + inside else start + behind) + p.bytes := by
    split <;> omega
  simp only [TextField.surround, clamped_withHead, Selection.isCursor_shift, Selection.shift_start,
    Selection.shift_stop, selected, caret]
  exact d.apply_withHead p ⟨⟨_, _, _⟩, .cursor _, label⟩ hle hs he

theorem format_withHead (markup : Markup) :
    markup.apply (d.withHead p) = (markup.apply d).map (·.withHead p) := by
  cases markup with
  | marks mark label => exact d.surround_withHead p mark label
  | template snippet label => exact d.replaceSelection_withHead p snippet .insideTrailingParen label

end Draft

end PostEditor
