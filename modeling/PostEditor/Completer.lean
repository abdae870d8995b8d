import PostEditor.Event
import PostEditor.Keyboard
import PostEditor.Lookup
import PostEditor.TextField

namespace PostEditor

/-- An open mention: where it starts, what was last asked for, and what is shown for it. -/
structure MentionSession where
  anchor : Nat
  query : Text := []
  candidates : List Candidate := []
  highlighted : Option Nat := none
  error : Option Text := none
  deriving DecidableEq, Repr

structure Popup where
  isOpen : Bool := false
  candidates : List Candidate := []
  highlighted : Option Nat := none
  error : Option Text := none
  deriving DecidableEq, Repr

/-- The trigger that opens a mention, the mention that is open, and the tickets issued for all of them. -/
structure Completer where
  trigger : Char := '@'
  session : Option MentionSession := none
  tickets : Tickets := {}
  deriving DecidableEq, Repr

namespace Completer

def isOpen (c : Completer) : Bool := c.session.isSome

def anchor? (c : Completer) : Option Nat := c.session.map (·.anchor)

def candidates (c : Completer) : List Candidate := (c.session.map (·.candidates)).getD []

def highlighted? (c : Completer) : Option Nat := c.session.bind (·.highlighted)

def popup (c : Completer) : Popup :=
  match c.session with
  | none => {}
  | some s => ⟨true, s.candidates, s.highlighted, s.error⟩

/-- A request is still worth sending: its ticket is current and a mention is open. -/
def isCurrent (c : Completer) (t : Ticket) : Bool := c.isOpen && c.tickets.isCurrent t

def ask (c : Completer) (query : Option Text) : Request × Completer :=
  let (request, tickets) := c.tickets.issue query
  (request, { c with tickets })

/-- Opens a mention at an anchor in place of any other, and asks for all candidates. -/
def openAt (c : Completer) (anchor : Nat) : Report Completer Request :=
  let (request, c) := { c with session := some { anchor }, tickets := c.tickets.cancel }.ask none
  ⟨request, c, [.mentionOpened anchor]⟩

/-- Closes the mention, if one is open, and leaves no ticket current. -/
def close (c : Completer) (reason : CloseReason) : Report Completer Unit :=
  let log := match c.session with
    | none => []
    | some s => [.mentionClosed s.anchor reason]
  ⟨(), { c with session := none, tickets := c.tickets.cancel }, log⟩

def blur (c : Completer) : Report Completer Unit := c.close .focusLost

section

variable {β : Type} [TextField β]

/-- The query of a mention at `anchor`, with all of the selection behind it, or why it has ended. -/
def queryAt (c : Completer) (anchor : Nat) (b : β) : Except CloseReason Text :=
  let s := TextField.selection b
  if s.start < anchor then .error .caretBeforeAnchor
  else Mention.query (TextField.text b) s.stop anchor c.trigger

/-- Compares the open mention with the field: closes it when it has ended, and asks for candidates when its query has
changed. -/
def refresh (c : Completer) (b : β) : Report Completer (Option Request) :=
  match c.session with
  | none => ⟨none, c, []⟩
  | some s =>
    match c.queryAt s.anchor b with
    | .error reason => (c.close reason).answer fun _ => none
    | .ok query =>
      if query = s.query then ⟨none, c, []⟩
      else
        let (request, c) := { c with session := some { s with query } }.ask
          (if query = [] then none else some query)
        ⟨some request, c, []⟩

/-- The text has been edited: opens a mention when a trigger has been inserted before the caret. -/
def input (c : Completer) (b : β) (kind : InputKind) : Report Completer (Option Request) :=
  if c.isOpen then c.refresh b
  else if kind = .insert ∧ (TextField.selection b).isCursor then
    match Mention.typedTrigger? (TextField.text b) (TextField.selection b).stop c.trigger with
    | none => ⟨none, c, []⟩
    | some anchor => (c.openAt anchor).answer some
  else ⟨none, c, []⟩

def selectionMoved (c : Completer) (b : β) : Report Completer (Option Request) := c.refresh b

end

/-- Takes the answer to a request, unless its ticket is no longer current; says whether it was taken. -/
def applyLookup (c : Completer) (t : Ticket) (answer : Except Failure (List Candidate)) :
    Report Completer Bool :=
  if ¬c.tickets.isCurrent t then ⟨false, c, [.lookupDropped t]⟩
  else
    match c.session with
    | none => ⟨false, c, []⟩
    | some s =>
      match answer with
      | .ok found =>
        let highlighted := if found = [] then none else some 0
        ⟨true, { c with session := some { s with candidates := found, highlighted, error := none } }, []⟩
      | .error failure =>
        let cleared := { s with candidates := [], highlighted := none, error := some failure.message }
        ⟨true, { c with session := some cleared }, [.lookupFailed failure]⟩

def highlight (c : Completer) (index : Nat) : Completer :=
  match c.session with
  | none => c
  | some s =>
    if index < s.candidates.length then { c with session := some { s with highlighted := some index } }
    else c

/-- Moves the highlight by one candidate, around the end of the list. -/
def move (c : Completer) (s : MentionSession) (down : Bool) : Completer :=
  let count := s.candidates.length
  let current := s.highlighted.getD 0
  let moved := if down then (current + 1) % count else (current + count - 1) % count
  { c with session := some { s with highlighted := some moved } }

@[simp] theorem close_session (c : Completer) (reason : CloseReason) :
    (c.close reason).state.session = none := rfl

@[simp] theorem close_tickets (c : Completer) (reason : CloseReason) :
    (c.close reason).state.tickets = c.tickets.cancel := rfl

@[simp] theorem openAt_session (c : Completer) (anchor : Nat) :
    (c.openAt anchor).state.session = some { anchor } := rfl

theorem applyLookup_of_not_isCurrent {c : Completer} {t : Ticket} (h : c.tickets.isCurrent t = false)
    (answer : Except Failure (List Candidate)) :
    c.applyLookup t answer = ⟨false, c, [.lookupDropped t]⟩ := by
  simp [applyLookup, h]

end Completer

/-- A completer and the field it works on. -/
structure Editor (β : Type) where
  completer : Completer
  field : β
  deriving DecidableEq, Repr

namespace Editor

variable {β : Type} [TextField β]

/-- The button of the trigger: closes an open mention, or inserts the trigger and opens one behind it. -/
def toggle (e : Editor β) : Report (Editor β) (Except EditError (Option Request)) :=
  if e.completer.isOpen then
    ((e.completer.close .cancelled).answer fun _ => .ok none).into ({ e with completer := · })
  else
    match TextField.replaceSelection e.field [e.completer.trigger] .afterInsert "mention-trigger".toList with
    | .error error => ⟨.error error, e, []⟩
    | .ok applied =>
      let opened := e.completer.openAt (TextField.selection applied.field).stop
      ⟨.ok (some opened.result), ⟨opened.state, applied.field⟩, applied.event :: opened.log⟩

/-- Puts a candidate in place of the query and closes the mention. Answers whether it did; a mention that has ended is
closed without an edit. -/
def commit (e : Editor β) (index : Nat) : Report (Editor β) (Except EditError Bool) :=
  match e.completer.session with
  | none => ⟨.ok false, e, []⟩
  | some s =>
    match s.candidates[index]? with
    | none => ⟨.ok false, e, []⟩
    | some candidate =>
      match e.completer.queryAt s.anchor e.field with
      | .error reason =>
        ((e.completer.close reason).answer fun _ => .ok false).into ({ e with completer := · })
      | .ok _ =>
        let closed := e.completer.close .committed
        let insert := candidate.shown
        let stop := (TextField.selection e.field).stop
        match TextField.apply e.field ⟨⟨s.anchor, stop, insert⟩, .cursor (s.anchor + insert.bytes),
            "mention-commit".toList⟩ with
        | .error error => ⟨.error error, { e with completer := closed.state }, closed.log⟩
        | .ok applied => ⟨.ok true, ⟨closed.state, applied.field⟩, closed.log ++ [applied.event]⟩

def commitHighlighted (e : Editor β) (highlighted : Option Nat) : Report (Editor β) KeyOutcome :=
  match highlighted with
  | none => ⟨.passThrough, e, []⟩
  | some index =>
    (e.commit index).andThen fun result e =>
      match result with
      | .ok true => ⟨.handled, e, []⟩
      | .ok false => ⟨.passThrough, e, []⟩
      | .error error =>
        let closed := e.completer.close .anchorOutOfRange
        ⟨.passThrough, { e with completer := closed.state }, .commitRejected error :: closed.log⟩

/-- A key is pressed. It is taken only if it does something to the open mention. -/
def key (e : Editor β) (k : Key) : Report (Editor β) KeyOutcome :=
  match e.completer.session with
  | none => ⟨.passThrough, e, []⟩
  | some s =>
    match k with
    | .escape =>
      ((e.completer.close .cancelled).answer fun _ => .handled).into ({ e with completer := · })
    | .arrowUp | .arrowDown =>
      if s.candidates = [] then ⟨.passThrough, e, []⟩
      else ⟨.handled, { e with completer := e.completer.move s (k = .arrowDown) }, []⟩
    | .tab | .enter => e.commitHighlighted s.highlighted
    | .backspace | .other => ⟨.passThrough, e, []⟩

end Editor

end PostEditor
