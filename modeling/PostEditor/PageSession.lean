import PostEditor.PageRequests
import PostEditor.PageView

namespace PostEditor

inductive FaultPlace
  | submit
  | formData
  | request
  | headers
  | setHeader
  | selection
  deriving DecidableEq, Repr

inductive PageEvent
  | typeText (text : Text)
  | backspace
  | pressKey (name : Text)
  | keyDown (name : Text)
  | keyUp
  | input (value : Text) (selection : Nat × Nat) (kind : InputKind)
  | setValue (value : Text)
  | select (selection : Nat × Nat)
  | click
  | blur
  | tool (tool : Tool)
  | hover (index : Nat)
  | pick (index : Nat)
  | prefill (detail : ScriptValue)
  | advance (span : Nat)
  | respond (number : Nat) (outcome : FetchOutcome)
  | chooseMedium
  | post
  | resize (height : Int)
  | fault (place : FaultPlace) (thrown : Option ScriptValue)

inductive PageAnswer
  | nothing
  | flag (value : Bool)
  | flags (values : List Bool)

namespace Page

/-- Makes a part of the browser throw, or work again. A selection that throws null is only hidden. -/
def setFault (p : Page) (place : FaultPlace) (thrown : Option ScriptValue) : Page :=
  match place with
  | .submit => { p with faults := { p.faults with submit := thrown } }
  | .formData => { p with faults := { p.faults with formData := thrown } }
  | .request => { p with faults := { p.faults with request := thrown } }
  | .headers => { p with faults := { p.faults with headers := thrown } }
  | .setHeader => { p with faults := { p.faults with setHeader := thrown } }
  | .selection =>
    let access := match thrown with
      | none => .full
      | some .null => .hidden
      | some _ => .refused
    { p with area := { p.area with access } }

def withItem (index : Nat) (prevented : Bool) (act : PageM Unit) : PageM PageAnswer := do
  if (← get).hasItem index then
    act
    return .flag prevented
  else return .nothing

def perform : PageEvent → PageM PageAnswer
  | .typeText t => return .flags (← typeText t)
  | .backspace => return .flag (← backspace)
  | .pressKey name => do
    let taken ← keyDown name
    refresh
    return .flag taken
  | .keyDown name => return .flag (← keyDown name)
  | .keyUp => do
    refresh
    return .flag false
  | .input value selection kind => do
    modify fun p => { p with area := { p.area with value, selection } }
    input kind
    return .nothing
  | .setValue value => do
    modify fun p => { p with area := p.area.setValue value }
    return .nothing
  | .select selection => do
    modify fun p => { p with area := { p.area with selection } }
    return .nothing
  | .click => do
    refresh
    return .flag false
  | .blur => do
    settle (← get).dispatch.completer.blur
    return .flag false
  | .tool tool => do
    useTool tool
    return .flags [true, false]
  | .hover index => withItem index false (hover index)
  | .pick index => withItem index true (pick index)
  | .prefill detail => do
    prefill detail
    return .flag false
  | .advance span => do
    advance span
    return .nothing
  | .respond number outcome => return .flag (← respond number outcome)
  | .chooseMedium => do
    upload
    return .flag false
  | .post => do
    post
    return .flag true
  | .resize height => do
    modify fun p => { p with height }
    return .nothing
  | .fault place thrown => do
    modify fun p => p.setFault place thrown
    return .nothing

/-- Lets events happen one after the other; each leaves an answer, and a page with its own effects. -/
def run (p : Page) : List PageEvent → List (PageAnswer × Page)
  | [] => []
  | event :: rest =>
    let (answer, next) := (perform event).run { p with effects := [] }
    (answer, next) :: run next rest

end Page

end PostEditor
