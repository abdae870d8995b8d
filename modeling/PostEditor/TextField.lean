import PostEditor.Event
import PostEditor.Selection

namespace PostEditor

/-- A field reports its text and its selection, and takes an edit of either. -/
class TextField (β : Type) where
  text : β → Text
  /-- The selected range, which need not fit the text. -/
  selection : β → Selection
  splice : β → (start stop : Nat) → (insert : Text) → β
  /-- Selects between two offsets, rounded down to boundaries. -/
  select : β → (start stop : Nat) → β

structure Change where
  start : Nat
  stop : Nat
  insert : Text
  deriving DecidableEq, Repr

structure Transaction where
  change : Change
  selection : Selection
  label : Text
  deriving DecidableEq, Repr

structure Outcome where
  textChanged : Bool
  selectionChanged : Bool
  deriving DecidableEq, Repr

structure Applied (β : Type) where
  field : β
  outcome : Outcome
  event : Event

/-- The first reason why a range does not fit a text. -/
def Text.checkRange (t : Text) (start stop : Nat) : Except EditError Unit :=
  if start > stop ∨ stop > t.bytes then .error (.invalidRange start stop t.bytes)
  else if ¬t.IsBoundary start then .error (.notCharBoundary start)
  else if ¬t.IsBoundary stop then .error (.notCharBoundary stop)
  else .ok ()

namespace TextField

variable {β : Type} [TextField β]

/-- Applies a transaction. The text is only touched when the change replaces a slice by another text. -/
def apply (b : β) (tr : Transaction) : Except EditError (Applied β) :=
  let change := tr.change
  match (text b).checkRange change.start change.stop with
  | .error e => .error e
  | .ok () =>
    let textChanged := (text b).slice change.start change.stop != change.insert
    let edited := if textChanged then splice b change.start change.stop change.insert else b
    let after := select edited tr.selection.start tr.selection.stop
    .ok ⟨after, ⟨textChanged, selection after != selection b⟩, .applied tr.label textChanged⟩

def clamped (b : β) : Selection := (selection b).clampTo (text b)

end TextField

structure SelectedText where
  start : Nat
  stop : Nat
  text : Text
  deriving DecidableEq, Repr

def selectedText {β : Type} [TextField β] (b : β) : SelectedText :=
  let s := TextField.clamped b
  ⟨s.start, s.stop, (TextField.text b).slice s.start s.stop⟩

inductive CaretPolicy
  | afterInsert
  | insideTrailingParen
  deriving DecidableEq, Repr

/-- The caret behind an inserted text, or in front of the parenthesis that closes it. -/
def caretAfterInsert (start : Nat) (insert : Text) : CaretPolicy → Nat
  | .afterInsert => start + insert.bytes
  | .insideTrailingParen =>
    if insert.getLast? = some ')' then start + insert.bytes - 1 else start + insert.bytes

namespace TextField

variable {β : Type} [TextField β]

def replaceSelection (b : β) (insert : Text) (policy : CaretPolicy) (label : Text) :
    Except EditError (Applied β) :=
  let s := clamped b
  apply b ⟨⟨s.start, s.stop, insert⟩, .cursor (caretAfterInsert s.start insert policy), label⟩

def prefill (b : β) (insert : Text) : Except EditError (Applied β) :=
  apply b ⟨⟨0, (text b).bytes, insert⟩, .cursor insert.bytes, "prefill".toList⟩

def mediaLink (path : Text) : Text := " ![](".toList ++ path ++ ") ".toList

def appendMediaLink (b : β) (path : Text) : Except EditError (Applied β) :=
  let length := (text b).bytes
  apply b ⟨⟨length, length, mediaLink path⟩, .cursor (length + (mediaLink path).bytes),
    "media-upload".toList⟩

def surround (b : β) (mark label : Text) : Except EditError (Applied β) :=
  let s := clamped b
  let insert := mark ++ (text b).slice s.start s.stop ++ mark
  let caret := if s.isCursor then s.start + mark.bytes else s.start + insert.bytes
  apply b ⟨⟨s.start, s.stop, insert⟩, .cursor caret, label⟩

def insertTemplate (b : β) (snippet label : Text) : Except EditError (Applied β) :=
  replaceSelection b snippet .insideTrailingParen label

end TextField

/-- A formatting command with the name it has in the log. -/
inductive Markup
  | marks (mark label : Text)
  | template (snippet label : Text)
  deriving DecidableEq, Repr

namespace Markup

def bold : Markup := .marks "**".toList "bold".toList

def italic : Markup := .marks "*".toList "italic".toList

def strike : Markup := .marks "~~".toList "strike".toList

def code : Markup := .marks ['\x60'] "code".toList

def link : Markup := .template "[title](https://)".toList "link".toList

def image : Markup := .template "![](https://)".toList "image".toList

def label : Markup → Text
  | .marks _ label => label
  | .template _ label => label

def apply {β : Type} [TextField β] (b : β) : Markup → Except EditError (Applied β)
  | .marks mark label => TextField.surround b mark label
  | .template snippet label => TextField.insertTemplate b snippet label

end Markup

end PostEditor
