import PostEditor.Proofs.Calls
import PostEditor.Proofs.Commit
import Mathlib.Data.List.Induction

namespace PostEditor

namespace Completer

def asked (query : Text) : Option Text := if query = [] then none else some query

@[simp] theorem asked_nil : asked [] = none := rfl

/-- A completer takes one step, and may hand back a request. -/
inductive Step (c : Completer) : Option Request → Completer → Prop
  | opened (anchor : Nat) :
      Step c (some (c.tickets.issue none).1)
        { c with session := some { anchor }, tickets := (c.tickets.issue none).2 }
  | asked {s : MentionSession} {query : Text} (session : c.session = some s) (changed : query ≠ s.query) :
      Step c (some (c.tickets.issue (asked query)).1)
        { c with session := some { s with query }, tickets := (c.tickets.issue (asked query)).2 }
  | closed : Step c none { c with session := none, tickets := c.tickets.cancel }
  | shown {s shown : MentionSession} (session : c.session = some s)
      (anchor : shown.anchor = s.anchor) (query : shown.query = s.query) :
      Step c none { c with session := some shown }
  | stayed : Step c none c

theorem Step.trigger_eq {c c' : Completer} {r : Option Request} (h : Step c r c') :
    c'.trigger = c.trigger := by
  cases h <;> rfl

theorem openAt_step (c : Completer) (anchor : Nat) :
    Step c (some (c.openAt anchor).result) (c.openAt anchor).state :=
  .opened anchor

theorem close_step (c : Completer) (reason : CloseReason) : Step c none (c.close reason).state :=
  .closed

theorem highlight_step (c : Completer) (index : Nat) : Step c none (c.highlight index) := by
  unfold highlight
  split
  next => exact .stayed
  next s hs =>
    split
    next => exact .shown hs rfl rfl
    next => exact .stayed

theorem applyLookup_step (c : Completer) (t : Ticket) (answer : Except Failure (List Candidate)) :
    Step c none (c.applyLookup t answer).state := by
  unfold applyLookup
  split
  next => exact .stayed
  next =>
    split
    next => exact .stayed
    next s hs =>
      cases answer with
      | ok found => exact .shown hs rfl rfl
      | error failure => exact .shown hs rfl rfl

section

variable {β : Type} [TextField β]

theorem refresh_step (c : Completer) (b : β) : Step c (c.refresh b).result (c.refresh b).state := by
  unfold refresh
  split
  next => exact .stayed
  next s hs =>
    split
    next reason _ => exact c.close_step reason
    next query _ =>
      split
      next => exact .stayed
      next changed => exact .asked hs changed

theorem input_step (c : Completer) (b : β) (kind : InputKind) :
    Step c (c.input b kind).result (c.input b kind).state := by
  unfold input
  split
  next => exact c.refresh_step b
  next =>
    split
    next =>
      split
      next => exact .stayed
      next anchor _ => exact c.openAt_step anchor
    next => exact .stayed

end

end Completer

namespace Editor

open Completer

variable {β : Type} [TextField β]

theorem toggle_step (e : Editor β) :
    Step e.completer (Answer.toggled e.toggle.result).request? e.toggle.state.completer := by
  unfold toggle
  split
  next => exact e.completer.close_step .cancelled
  next =>
    split
    next => exact .stayed
    next applied _ => exact e.completer.openAt_step _

/-- The completer takes a step without a request, and the field stays as it is or the mention is closed. -/
def Quiet (e e' : Editor β) : Prop :=
  Step e.completer none e'.completer ∧ (e'.field = e.field ∨ e'.completer.session = none)

theorem commit_quiet (e : Editor β) (index : Nat) : Quiet e (e.commit index).state := by
  have reported := e.commit_report index
  generalize e.commit index = r at reported ⊢
  cases reported with
  | noCandidate candidate => exact ⟨.stayed, Or.inl rfl⟩
  | ended session candidate query => exact ⟨.closed, Or.inl rfl⟩
  | refused session candidate query edit => exact ⟨.closed, Or.inl rfl⟩
  | applied session candidate query edit => exact ⟨.closed, Or.inr rfl⟩

theorem commitHighlighted_state (e : Editor β) (index : Nat) :
    (e.commitHighlighted (some index)).state = (e.commit index).state := by
  simp only [commitHighlighted]
  have reported := e.commit_report index
  generalize e.commit index = r at reported ⊢
  cases reported with
  | noCandidate candidate => rfl
  | ended session candidate query => rfl
  | refused session candidate query edit => rfl
  | applied session candidate query edit => rfl

theorem key_keeps_or_commits (e : Editor β) (k : Key) :
    (e.key k).state.field = e.field ∨ ∃ index, (e.key k).state = (e.commit index).state := by
  have commits : ∀ highlighted, (e.commitHighlighted highlighted).state.field = e.field ∨
      ∃ index, (e.commitHighlighted highlighted).state = (e.commit index).state := by
    intro highlighted
    cases highlighted with
    | none => exact Or.inl rfl
    | some index => exact Or.inr ⟨index, e.commitHighlighted_state index⟩
  unfold key
  split
  next => exact Or.inl rfl
  next s hs =>
    cases k with
    | escape | backspace | other => exact Or.inl rfl
    | arrowUp | arrowDown =>
      simp only
      split
      next => exact Or.inl rfl
      next => exact Or.inl rfl
    | tab | enter => exact commits s.highlighted

theorem key_quiet (e : Editor β) (k : Key) : Quiet e (e.key k).state := by
  have commits : ∀ highlighted, Quiet e (e.commitHighlighted highlighted).state := by
    intro highlighted
    cases highlighted with
    | none => exact ⟨.stayed, Or.inl rfl⟩
    | some index =>
      rw [commitHighlighted_state]
      exact e.commit_quiet index
  have moves : ∀ s, e.completer.session = some s → ∀ down,
      Quiet e { e with completer := e.completer.move s down } :=
    fun s hs down => ⟨.shown hs rfl rfl, Or.inl rfl⟩
  unfold key
  split
  next => exact ⟨.stayed, Or.inl rfl⟩
  next s hs =>
    cases k with
    | escape => exact ⟨e.completer.close_step .cancelled, Or.inl rfl⟩
    | arrowUp =>
      simp only
      split
      next => exact ⟨.stayed, Or.inl rfl⟩
      next => exact moves s hs _
    | arrowDown =>
      simp only
      split
      next => exact ⟨.stayed, Or.inl rfl⟩
      next => exact moves s hs _
    | tab => exact commits s.highlighted
    | enter => exact commits s.highlighted
    | backspace => exact ⟨.stayed, Or.inl rfl⟩
    | other => exact ⟨.stayed, Or.inl rfl⟩

theorem call_step (e : Editor β) (a : Call β) :
    Step e.completer (e.call a).result.request? (e.call a).state.completer := by
  cases a with
  | edit b => exact .stayed
  | openAt anchor => exact e.completer.openAt_step anchor
  | close reason => exact e.completer.close_step reason
  | blur => exact e.completer.close_step .focusLost
  | toggle => exact e.toggle_step
  | input kind => exact e.completer.input_step e.field kind
  | selectionMoved => exact e.completer.refresh_step e.field
  | key k => exact (e.key_quiet k).1
  | commit index => exact (e.commit_quiet index).1
  | highlight index => exact e.completer.highlight_step index
  | lookupAnswer t answer => exact e.completer.applyLookup_step t answer

/-- What holds of no reports and the first completer, and goes on to hold after a step and its report, holds after all
calls. -/
theorem history_induction {P : List (Report (Editor β) Answer) → Completer → Prop} {e : Editor β}
    (start : P [] e.completer)
    (step : ∀ h c (q : Report (Editor β) Answer), P h c →
      Step c q.result.request? q.state.completer → P (h ++ [q]) q.state.completer)
    (calls : List (Call β)) : P (e.history calls) (e.after calls).completer := by
  induction calls using List.reverseRecOn with
  | nil => exact start
  | append_singleton calls a ih =>
    rw [history_append, after_append]
    exact step _ _ _ ih ((e.after calls).call_step a)

theorem after_induction {P : Completer → Prop} {e : Editor β} (start : P e.completer)
    (step : ∀ c r c', P c → Step c r c' → P c') (calls : List (Call β)) :
    P (e.after calls).completer :=
  history_induction (P := fun _ c => P c) start (fun _ c _ hc hs => step c _ _ hc hs) calls

theorem after_trigger (e : Editor β) (calls : List (Call β)) :
    (e.after calls).completer.trigger = e.completer.trigger :=
  after_induction (P := fun c => c.trigger = e.completer.trigger) rfl
    (fun _ _ _ hc hs => hs.trigger_eq.trans hc) calls

end Editor

end PostEditor
