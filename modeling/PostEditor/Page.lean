import PostEditor.Console
import PostEditor.Dispatch
import PostEditor.Reply
import PostEditor.ScriptValue
import PostEditor.Settings
import PostEditor.TextArea

namespace PostEditor

inductive FetchRequest
  | lookup (url : Text)
  | upload (url : Text)
  deriving DecidableEq, Repr

inductive Effect
  | console (level : Level) (line : Text)
  | fetch (number : Nat) (request : FetchRequest)
  | focusField
  | submitPost
  | resetUpload
  | alert (message : Text)
  deriving DecidableEq, Repr

structure Drawn where
  top : Int
  popup : Popup
  deriving DecidableEq, Repr

structure Faults where
  submit : Option ScriptValue := none
  formData : Option ScriptValue := none
  request : Option ScriptValue := none
  headers : Option ScriptValue := none
  setHeader : Option ScriptValue := none

/-- How the readers of a page word that they cannot read something. -/
structure Wording where
  settings : Text → Text
  lookupReply : Text → Text
  uploadReply : Text → Text
  prefill : ScriptValue → Text

/-- A page: its settings, its field and controls, what is on its way, and the effects not yet looked at. -/
structure Page where
  wording : Wording
  settings : Settings
  filter : LogFilter
  area : TextArea := {}
  dispatch : Dispatch
  hash : Text := []
  drawn : Option Drawn := none
  height : Int := 0
  posting : Bool := false
  uploading : Bool := false
  clock : Nat := 0
  fetched : Nat := 0
  uploads : List Nat := []
  faults : Faults := {}
  effects : List Effect := []

abbrev PageM := StateM Page

namespace Page

def editor (p : Page) : Editor TextArea := ⟨p.dispatch.completer, p.area⟩

/-- The delay of a timer: the browser reads it as a signed 32-bit number, and a negative one as none. -/
def delay (s : Settings) : Nat := if s.debounce < 0x80000000 then s.debounce else 0

def emit (e : Effect) : PageM Unit := modify fun p => { p with effects := p.effects ++ [e] }

/-- Reports events; a transaction that has been applied gives the field the focus first. -/
def report (log : List Event) : PageM Unit :=
  log.forM fun event => do
    if let .applied .. := event then emit .focusField
    if event.passes (← get).filter then emit (.console event.level event.line)

def draw : PageM Unit := modify fun p =>
  let popup := p.dispatch.completer.popup
  { p with drawn := if popup.isOpen then some ⟨p.height + 2, popup⟩ else none }

def settle {ρ : Type} (r : Report Completer ρ) : PageM ρ := do
  modify fun p => { p with dispatch := { p.dispatch with completer := r.state } }
  report r.log
  draw
  return r.result

def settleEditor {ρ : Type} (r : Report (Editor TextArea) ρ) : PageM ρ := do
  modify fun p => { p with area := r.state.field }
  settle (r.into (·.completer))

def settleField (r : Except EditError (Applied TextArea)) : PageM Unit :=
  match r with
  | .error _ => return
  | .ok applied => do
    modify fun p => { p with area := applied.field }
    report [applied.event]

def wait (request : Option Request) : PageM Unit :=
  match request with
  | none => return
  | some r => modify fun p => { p with dispatch := p.dispatch.wait r (p.clock + delay p.settings) }

def refresh : PageM Unit := do
  let p ← get
  wait (← settle (p.dispatch.completer.selectionMoved p.area))

def input (kind : InputKind) : PageM Unit := do
  let p ← get
  wait (← settle (p.dispatch.completer.input p.area kind))

/-- A key goes down; only an open mention looks at it. Says whether the key was taken. -/
def keyDown (name : Text) : PageM Bool := do
  let p ← get
  if p.dispatch.completer.isOpen then
    return (← settleEditor (p.editor.key (.ofName name))) == .handled
  else return false

def press (name : Text) (edit : TextArea → TextArea) (kind : InputKind) : PageM Bool := do
  let taken ← keyDown name
  if !taken then
    modify fun p => { p with area := edit p.area }
    input kind
  refresh
  return taken

def typeText (t : Text) : PageM (List Bool) :=
  t.mapM fun c => press [c] (·.typeChar c) .insert

def backspace : PageM Bool := press "Backspace".toList (·.backspace) .delete

def toggleMention : PageM Unit := do
  match ← settleEditor (← get).editor.toggle with
  | .ok request => wait request
  | .error _ => return

def format (markup : Markup) : PageM Unit := do
  settleField (markup.apply (← get).area)
  refresh

def hasItem (p : Page) (index : Nat) : Bool :=
  match p.drawn with
  | none => false
  | some d => index < d.popup.candidates.length

def hover (index : Nat) : PageM Unit := do
  settle ⟨(), (← get).dispatch.completer.highlight index, []⟩

def pick (index : Nat) : PageM Unit := do
  match ← settleEditor ((← get).editor.commit index) with
  | .ok _ => return
  | .error error =>
    report [.commitRejected error]
    settle ((← get).dispatch.completer.close .anchorOutOfRange)

def prefill (detail : ScriptValue) : PageM Unit := do
  match Prefill.ofDetail? detail with
  | none => report [.prefillIgnored ((← get).wording.prefill detail)]
  | some wanted =>
    settle ((← get).dispatch.completer.close .replaced)
    settleField (TextField.prefill (← get).area wanted.text)
    modify fun p => { p with hash := wanted.hash }

end Page

end PostEditor
