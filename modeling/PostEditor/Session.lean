import PostEditor.Completer
import PostEditor.Draft
import PostEditor.Reply

namespace PostEditor

/-- What can happen to an editor whose field is a draft. -/
inductive Action
  | typeText (text : Text)
  | backspace
  | input (text : Text) (selection : Selection) (kind : InputKind)
  | inputOnly (kind : InputKind)
  | select (selection : Selection)
  | selectionMoved
  | setSelection (selection : Selection)
  | selectRange (start stop : Nat)
  | storeSelection (selection : Selection)
  | takeInput (text : Text) (selection : Selection)
  | apply (transaction : Transaction)
  | replaceSelection (insert : Text) (policy : CaretPolicy) (label : Text)
  | readSelected
  | prefill (text : Text)
  | appendMediaLink (path : Text)
  | format (markup : Markup)
  | key (key : Key)
  | commit (index : Nat)
  | highlight (index : Nat)
  | blur
  | close (reason : CloseReason)
  | toggle
  | openAt (anchor : Nat)
  | isCurrent (ticket : Ticket)
  | lookupAnswer (ticket : Ticket) (answer : Except Failure (List Candidate))
  | lookupReply (ticket : Ticket) (body wording : Text)

/-- What an action answers. -/
inductive Answer
  | done
  | flag (value : Bool)
  | request (request : Option Request)
  | requests (requests : List (Option Request))
  | outcome (outcome : Except EditError Outcome)
  | selected (selected : SelectedText)
  | key (outcome : KeyOutcome)
  | committed (result : Except EditError Bool)
  | toggled (result : Except EditError (Option Request))

namespace Editor

def withDraft (e : Editor Draft) (d : Draft) : Report (Editor Draft) Answer :=
  ⟨.done, { e with field := d }, []⟩

def withCompleter {β ρ : Type} (e : Editor β) (r : Report Completer ρ) (answer : ρ → Answer) :
    Report (Editor β) Answer :=
  (r.answer answer).into ({ e with completer := · })

def withApplied {β : Type} (e : Editor β) (r : Except EditError (Applied β)) :
    Report (Editor β) Answer :=
  match r with
  | .error error => ⟨.outcome (.error error), e, []⟩
  | .ok applied => ⟨.outcome (.ok applied.outcome), { e with field := applied.field }, [applied.event]⟩

/-- The draft has become `d` by native input, of which the completer is told. -/
def edited (e : Editor Draft) (d : Draft) (kind : InputKind) :
    Report (Editor Draft) (Option Request) :=
  (e.completer.input d kind).into (⟨·, d⟩)

def typeText (e : Editor Draft) : Text → Report (Editor Draft) (List (Option Request))
  | [] => ⟨[], e, []⟩
  | c :: t =>
    (e.edited (e.field.typeChar c) .insert).andThen fun request e =>
      (typeText e t).answer (request :: ·)

def perform (e : Editor Draft) : Action → Report (Editor Draft) Answer
  | .typeText t => (e.typeText t).answer .requests
  | .backspace => (e.edited e.field.backspace .delete).answer .request
  | .input t s kind => (e.edited (.takeInput t s) kind).answer .request
  | .inputOnly kind => (e.edited e.field kind).answer .request
  | .select s =>
    let d := e.field.setSelection s
    ((e.completer.selectionMoved d).answer .request).into (⟨·, d⟩)
  | .selectionMoved => e.withCompleter (e.completer.selectionMoved e.field) .request
  | .setSelection s => e.withDraft (e.field.setSelection s)
  | .selectRange start stop => e.withDraft (TextField.select e.field start stop)
  | .storeSelection s => e.withDraft { e.field with selection := s }
  | .takeInput t s => e.withDraft (.takeInput t s)
  | .apply tr => e.withApplied (TextField.apply e.field tr)
  | .replaceSelection insert policy label =>
    e.withApplied (TextField.replaceSelection e.field insert policy label)
  | .readSelected => ⟨.selected (selectedText e.field), e, []⟩
  | .prefill t => e.withApplied (TextField.prefill e.field t)
  | .appendMediaLink path => e.withApplied (TextField.appendMediaLink e.field path)
  | .format markup => e.withApplied (markup.apply e.field)
  | .key k => (e.key k).answer .key
  | .commit index => (e.commit index).answer .committed
  | .highlight index => ⟨.done, { e with completer := e.completer.highlight index }, []⟩
  | .blur => e.withCompleter e.completer.blur fun _ => .done
  | .close reason => e.withCompleter (e.completer.close reason) fun _ => .done
  | .toggle => e.toggle.answer .toggled
  | .openAt anchor => e.withCompleter (e.completer.openAt anchor) fun request => .request (some request)
  | .isCurrent t => ⟨.flag (e.completer.isCurrent t), e, []⟩
  | .lookupAnswer t answer => e.withCompleter (e.completer.applyLookup t answer) .flag
  | .lookupReply t body wording =>
    let (found, log) := LookupReply.candidates body wording
    let r := e.withCompleter (e.completer.applyLookup t (.ok found)) .flag
    { r with log := log ++ r.log }

def run (e : Editor Draft) : List Action → List (Report (Editor Draft) Answer)
  | [] => []
  | a :: rest =>
    let r := e.perform a
    r :: run r.state rest

end Editor

end PostEditor
