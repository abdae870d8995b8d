import PostEditor.Failure
import PostEditor.Json
import PostEditor.Lookup
import PostEditor.Mention

namespace PostEditor

inductive Event
  | starting (lookupUrl : Text)
  | settingsIgnored (failure : Failure)
  | applied (label : Text) (textChanged : Bool)
  | mentionOpened (anchor : Nat)
  | mentionClosed (anchor : Nat) (reason : CloseReason)
  | lookupDropped (ticket : Ticket)
  | lookupFailed (failure : Failure)
  | commitRejected (error : EditError)
  | unexpectedReply (kind : JsonKind)
  | malformedReply (wording : Text)
  | lookingUp (url : Text)
  | uploading (url : Text)
  | uploadFailed (failure : Failure)
  | prefillIgnored (wording : Text)
  | submitFailed (thrown : Text)
  deriving DecidableEq, Repr

/-- What an operation answers, the state it leaves, and the events it reports in order. -/
structure Report (σ ρ : Type) where
  result : ρ
  state : σ
  log : List Event

namespace Report

variable {σ ρ τ : Type}

def andThen (first : Report σ ρ) (next : ρ → σ → Report σ τ) : Report σ τ :=
  let second := next first.result first.state
  { second with log := first.log ++ second.log }

def answer (r : Report σ ρ) (f : ρ → τ) : Report σ τ := ⟨f r.result, r.state, r.log⟩

def into (r : Report σ ρ) (f : σ → τ) : Report τ ρ := ⟨r.result, f r.state, r.log⟩

@[simp] theorem answer_result (r : Report σ ρ) (f : ρ → τ) : (r.answer f).result = f r.result := rfl

@[simp] theorem answer_state (r : Report σ ρ) (f : ρ → τ) : (r.answer f).state = r.state := rfl

@[simp] theorem answer_log (r : Report σ ρ) (f : ρ → τ) : (r.answer f).log = r.log := rfl

@[simp] theorem into_result (r : Report σ ρ) (f : σ → τ) : (r.into f).result = r.result := rfl

@[simp] theorem into_state (r : Report σ ρ) (f : σ → τ) : (r.into f).state = f r.state := rfl

@[simp] theorem into_log (r : Report σ ρ) (f : σ → τ) : (r.into f).log = r.log := rfl

end Report

end PostEditor
