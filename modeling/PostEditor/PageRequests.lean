import PostEditor.Page

namespace PostEditor

inductive ReplyBody
  | text (value : Text)
  | absent
  | failed (thrown : ScriptValue)

/-- How a request ended: with a reply, or with a value that is no reply. -/
inductive FetchOutcome
  | reply (status : Nat) (body : ReplyBody)
  | failed (value : ScriptValue)

def FetchOutcome.body (url : Text) : FetchOutcome → Except Failure Text
  | .failed value => .error (.network url value.describe)
  | .reply status body =>
    if status < 200 ∨ 299 < status then .error (.status url status)
    else
      match body with
      | .text t => .ok t
      | .absent => .ok []
      | .failed thrown => .error (.network url thrown.describe)

namespace Page

def send (request : FetchRequest) : PageM Unit := do
  modify fun p => { p with fetched := p.fetched + 1 }
  emit (.fetch (← get).fetched request)

def lookupAnswered (s : Sent) (answer : Except Failure (List Candidate)) : PageM Unit := do
  let r := (← get).dispatch.answered s answer
  modify fun p => { p with dispatch := r.state }
  let _ ← settle (r.into (·.completer))

/-- Builds the request of a lookup and sends it; what throws on the way is the answer. -/
def sendLookup (s : Sent) : PageM Unit := do
  let p ← get
  let url := lookupAddress p.settings.lookupUrl s.request.query
  match p.faults.headers <|> p.faults.setHeader with
  | some thrown => lookupAnswered s (.error (.browser thrown.shown))
  | none =>
    report [.lookingUp url]
    match p.faults.request with
    | some thrown => lookupAnswered s (.error (.network url thrown.describe))
    | none => send (.lookup url)

def fire (w : Waiting) : PageM Unit := do
  let p ← get
  let (sent, dispatch) := p.dispatch.fire w (p.fetched + 1)
  modify fun p => { p with dispatch }
  match sent with
  | some s => sendLookup s
  | none => return

/-- Fires up to `count` timers that are due by `time`, the one due first before the others. -/
def fireDue (time : Nat) : (count : Nat) → PageM Unit
  | 0 => return
  | count + 1 => do
    match (← get).dispatch.next? time with
    | none => return
    | some w =>
      modify fun p => { p with clock := w.due }
      fire w
      fireDue time count

def advance (span : Nat) : PageM Unit := do
  let p ← get
  fireDue (p.clock + span) p.dispatch.waiting.length
  modify fun q => { q with clock := p.clock + span }

def finishUpload (outcome : Except Failure UploadReply) : PageM Unit := do
  match outcome with
  | .ok reply =>
    settleField (TextField.appendMediaLink (← get).area reply.path)
    refresh
  | .error failure =>
    report [.uploadFailed failure]
    emit (.alert ("An error occurred uploading your media: ".toList ++ failure.message))
  emit .resetUpload
  modify fun p => { p with uploading := false }

def upload : PageM Unit := do
  modify fun p => { p with uploading := true }
  let p ← get
  let url := p.settings.uploadUrl
  match p.faults.formData with
  | some thrown => finishUpload (.error (.browser thrown.shown))
  | none =>
    report [.uploading url]
    match p.faults.request with
    | some thrown => finishUpload (.error (.network url thrown.describe))
    | none =>
      send (.upload url)
      modify fun p => { p with uploads := p.uploads ++ [p.fetched] }

def uploadReply (wording : Text → Text) (url : Text) (outcome : FetchOutcome) : Except Failure UploadReply := do
  let body ← outcome.body url
  match UploadReply.ofText body with
  | .ok reply => .ok reply
  | .error _ => .error (.decode (wording body))

def respond (number : Nat) (outcome : FetchOutcome) : PageM Bool := do
  let p ← get
  match p.dispatch.sent.find? (·.number == number) with
  | some s =>
    match outcome.body (lookupAddress p.settings.lookupUrl s.request.query) with
    | .error failure => lookupAnswered s (.error failure)
    | .ok body =>
      let (found, log) := LookupReply.candidates body (p.wording.lookupReply body)
      report log
      lookupAnswered s (.ok found)
    return true
  | none =>
    if p.uploads.contains number then
      modify fun p => { p with uploads := p.uploads.erase number }
      finishUpload (uploadReply p.wording.uploadReply p.settings.uploadUrl outcome)
      return true
    else return false

def post : PageM Unit := do
  if !(← get).posting then
    modify fun p => { p with posting := true }
    emit .submitPost
    match (← get).faults.submit with
    | none => return
    | some thrown =>
      report [.submitFailed thrown.shown]
      modify fun p => { p with posting := false }

/-- A page with the settings text `raw`, right after it has been loaded. -/
def load (wording : Wording) (raw : Option Text) : Page :=
  let (settings, problem) := Settings.ofPage raw
  let page : Page :=
    { wording, settings, filter := .ofText settings.logFilter,
      dispatch := { completer := { trigger := settings.trigger } } }
  let ignored := match problem with
    | none => []
    | some _ => [.settingsIgnored (.settings (wording.settings (raw.getD [])))]
  ((report (ignored ++ [.starting settings.lookupUrl])).run page).2

end Page

end PostEditor
