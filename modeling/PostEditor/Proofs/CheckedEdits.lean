import PostEditor.Draft
import PostEditor.Proofs.CheckedOffsets

namespace PostEditor

namespace Draft

def setSelection? (d : Draft) (s : Selection) : Option Draft := do
  return { d with selection := ← s.clampTo? d.text }

def takeInput? (t : Text) (s : Selection) : Option Draft := do
  return ⟨t, ← s.clampTo? t⟩

def select? (d : Draft) (start stop : Nat) : Option Draft := d.setSelection? (.between start stop)

def splice? (d : Draft) (start stop : Nat) (insert : Text) : Option Draft := do
  return { d with text := ← d.text.splice? start stop insert }

/-- A transaction whose cuts are checked. -/
def transact? (d : Draft) (tr : Transaction) : Option (Except EditError (Applied Draft)) :=
  match d.text.checkRange tr.change.start tr.change.stop with
  | .error e => some (.error e)
  | .ok () => do
    let replaced ← d.text.slice? tr.change.start tr.change.stop
    let textChanged := replaced != tr.change.insert
    let edited ← if textChanged then d.splice? tr.change.start tr.change.stop tr.change.insert else some d
    let after ← edited.select? tr.selection.start tr.selection.stop
    return .ok ⟨after, ⟨textChanged, after.selection != d.selection⟩, .applied tr.label textChanged⟩

def selectedText? (d : Draft) : Option SelectedText := do
  let s ← d.selection.clampTo? d.text
  return ⟨s.start, s.stop, ← d.text.slice? s.start s.stop⟩

def replaceSelection? (d : Draft) (insert : Text) (policy : CaretPolicy) (label : Text) :
    Option (Except EditError (Applied Draft)) := do
  let s ← d.selection.clampTo? d.text
  let caret ← caretAfterInsert? s.start insert policy
  d.transact? ⟨⟨s.start, s.stop, insert⟩, .cursor caret, label⟩

def surround? (d : Draft) (mark label : Text) : Option (Except EditError (Applied Draft)) := do
  let s ← d.selection.clampTo? d.text
  let _width ← Nat.psub s.stop s.start
  let selected ← d.text.slice? s.start s.stop
  let insert := mark ++ selected ++ mark
  let caret := if s.isCursor then s.start + mark.bytes else s.start + insert.bytes
  d.transact? ⟨⟨s.start, s.stop, insert⟩, .cursor caret, label⟩

def format? (d : Draft) : Markup → Option (Except EditError (Applied Draft))
  | .marks mark label => d.surround? mark label
  | .template snippet label => d.replaceSelection? snippet .insideTrailingParen label

def prefill? (d : Draft) (t : Text) : Option (Except EditError (Applied Draft)) :=
  d.transact? ⟨⟨0, d.text.bytes, t⟩, .cursor t.bytes, "prefill".toList⟩

def appendMediaLink? (d : Draft) (path : Text) : Option (Except EditError (Applied Draft)) :=
  let link := TextField.mediaLink path
  d.transact? ⟨⟨d.text.bytes, d.text.bytes, link⟩, .cursor (d.text.bytes + link.bytes),
    "media-upload".toList⟩

def typeChar? (d : Draft) (c : Char) : Option Draft := do
  let s ← d.selection.clampTo? d.text
  takeInput? (← d.text.splice? s.start s.stop [c]) (.cursor (s.start + c.utf8Size))

def backspace? (d : Draft) : Option Draft := do
  let s ← d.selection.clampTo? d.text
  let front ← d.text.slice? 0 s.start
  let rest ← d.text.slice? s.stop d.text.bytes
  let kept : Text := if s.isCursor then front.dropLast else front
  takeInput? (kept ++ rest) (.cursor kept.bytes)

@[simp] theorem setSelection?_eq (d : Draft) (s : Selection) :
    d.setSelection? s = some (d.setSelection s) := by
  simp [setSelection?, setSelection]

@[simp] theorem takeInput?_eq (t : Text) (s : Selection) : takeInput? t s = some (takeInput t s) := by
  simp [takeInput?, takeInput]

@[simp] theorem select?_eq (d : Draft) (start stop : Nat) :
    d.select? start stop = some (TextField.select d start stop) :=
  d.setSelection?_eq _

@[simp] theorem transact?_eq (d : Draft) (tr : Transaction) : d.transact? tr = some (TextField.apply d tr) := by
  unfold transact? TextField.apply
  cases hr : d.text.checkRange tr.change.start tr.change.stop with
  | error e =>
    have hr : (TextField.text d).checkRange tr.change.start tr.change.stop = .error e := hr
    simp [hr]
  | ok _ =>
    obtain ⟨hle, hs, he⟩ := Text.fits_of_checkRange hr
    have hr : (TextField.text d).checkRange tr.change.start tr.change.stop = .ok () := hr
    have hslice := Text.slice?_of_fits hle hs he
    have hsplice : d.splice? tr.change.start tr.change.stop tr.change.insert =
        some (TextField.splice d tr.change.start tr.change.stop tr.change.insert) := by
      rw [splice?, Text.splice?_of_fits hle hs he]
      rfl
    have hslice' : (TextField.text d).slice = d.text.slice := rfl
    simp only [hr, hslice, hsplice, hslice']
    simp only [Option.bind_eq_bind, Option.bind_some]
    cases d.text.slice tr.change.start tr.change.stop != tr.change.insert with
    | true =>
      simp only [if_true, Option.bind_some, select?_eq]
      rfl
    | false =>
      simp only [Bool.false_eq_true, if_false, Option.bind_some, select?_eq]
      rfl

@[simp] theorem selectedText?_eq (d : Draft) : d.selectedText? = some (selectedText d) := by
  obtain ⟨hle, hs, he⟩ := d.selection.clampTo_valid d.text
  simp only [selectedText?, Selection.clampTo?_eq, Text.slice?_of_fits hle hs he, Option.bind_eq_bind,
    Option.bind_some]
  rfl

@[simp] theorem replaceSelection?_eq (d : Draft) (insert : Text) (policy : CaretPolicy) (label : Text) :
    d.replaceSelection? insert policy label = some (TextField.replaceSelection d insert policy label) := by
  simp only [replaceSelection?, Selection.clampTo?_eq, caretAfterInsert?_eq, Option.bind_eq_bind,
    Option.bind_some, transact?_eq]
  rfl

@[simp] theorem surround?_eq (d : Draft) (mark label : Text) :
    d.surround? mark label = some (TextField.surround d mark label) := by
  obtain ⟨hle, hs, he⟩ := d.selection.clampTo_valid d.text
  simp only [surround?, Selection.clampTo?_eq, Nat.psub_eq_sub hle, Text.slice?_of_fits hle hs he,
    Option.bind_eq_bind, Option.bind_some, transact?_eq]
  rfl

@[simp] theorem format?_eq (d : Draft) (markup : Markup) : d.format? markup = some (markup.apply d) := by
  cases markup with
  | marks mark label => exact d.surround?_eq mark label
  | template snippet label => exact d.replaceSelection?_eq snippet .insideTrailingParen label

@[simp] theorem prefill?_eq (d : Draft) (t : Text) : d.prefill? t = some (TextField.prefill d t) :=
  d.transact?_eq _

@[simp] theorem appendMediaLink?_eq (d : Draft) (path : Text) :
    d.appendMediaLink? path = some (TextField.appendMediaLink d path) :=
  d.transact?_eq _

@[simp] theorem typeChar?_eq (d : Draft) (c : Char) : d.typeChar? c = some (d.typeChar c) := by
  obtain ⟨hle, hs, he⟩ := d.selection.clampTo_valid d.text
  simp [typeChar?, Text.splice?_of_fits hle hs he, typeChar]

@[simp] theorem backspace?_eq (d : Draft) : d.backspace? = some d.backspace := by
  obtain ⟨_, hs, he⟩ := d.selection.clampTo_valid d.text
  have hfront := Text.slice?_of_fits (Nat.zero_le _) d.text.isBoundary_zero hs
  have hrest := Text.slice?_of_fits he.le_bytes he d.text.isBoundary_bytes
  simp [backspace?, hfront, hrest, Text.slice_zero hs, Text.slice_bytes, backspace]

end Draft

end PostEditor
