import PostEditor.Proofs.KeyReports
import PostEditor.Proofs.Openings

namespace PostEditor

namespace Event

def tellsMention : Event → Bool
  | .mentionOpened _ | .mentionClosed _ _ => true
  | _ => false

def tellsEdit : Event → Bool
  | .applied _ _ => true
  | _ => false

end Event

namespace Call

variable {β : Type}

def isOpenAt : Call β → Bool
  | .openAt _ => true
  | _ => false

def commits : Call β → Answer → Bool
  | .commit _, .committed (.ok true) => true
  | .key .tab, .key .handled | .key .enter, .key .handled => true
  | _, _ => false

def insertsTrigger : Call β → Answer → Bool
  | .toggle, .toggled (.ok (some _)) => true
  | _, _ => false

def edits (a : Call β) (x : Answer) : Bool := a.commits x || a.insertsTrigger x

end Call

namespace Completer

variable {c : Completer}

theorem anchor?_eq_none (hs : c.session = none) : c.anchor? = none := by simp [anchor?, hs]

theorem anchor?_eq_some {s : MentionSession} (hs : c.session = some s) : c.anchor? = some s.anchor := by
  simp [anchor?, hs]

theorem anchor?_of_closed (closed : c.isOpen = false) : c.anchor? = none :=
  anchor?_eq_none (by simpa [isOpen] using closed)

end Completer

namespace Editor

/-- All that a call can log: nothing of mentions and edits, a mention that has been opened, behind a trigger that has
been inserted or behind one that was there, or a mention that has been closed, for a candidate or without one. -/
inductive CallLog (e : Editor Draft) (a : Call Draft) (r : Report (Editor Draft) Answer) : Prop
  | aside (log : ∀ event ∈ r.log, event.tellsMention = false ∧ event.tellsEdit = false)
      (after : r.state.completer.anchor? = e.completer.anchor?) (edits : a.edits r.result = false)
  | opened {p : Nat} (before : e.completer.anchor? = none) (log : r.log = [.mentionOpened p])
      (after : r.state.completer.anchor? = some p) (edits : a.edits r.result = false)
  | inserted {p : Nat} {label : Text} {changed : Bool} (before : e.completer.anchor? = none)
      (log : r.log = [.applied label changed, .mentionOpened p]) (after : r.state.completer.anchor? = some p)
      (commits : a.commits r.result = false) (inserts : a.insertsTrigger r.result = true)
  | closed {p : Nat} {reason : CloseReason} (before : e.completer.anchor? = some p)
      (log : r.log = [.mentionClosed p reason]) (after : r.state.completer.anchor? = none)
      (edits : a.edits r.result = false)
  | committed {p : Nat} {changed : Bool} (before : e.completer.anchor? = some p)
      (log : r.log = [.mentionClosed p .committed, .applied "mention-commit".toList changed])
      (after : r.state.completer.anchor? = none) (commits : a.commits r.result = true)

variable {e : Editor Draft} {a : Call Draft} {r : Report (Editor Draft) Answer}

theorem CallLog.silent (log : r.log = []) (after : r.state.completer.anchor? = e.completer.anchor?)
    (edits : a.edits r.result = false) : CallLog e a r :=
  .aside (by simp [log]) after edits

theorem CallLog.of_close {reason : CloseReason} (log : r.log = (e.completer.close reason).log)
    (after : r.state.completer.session = none) (edits : a.edits r.result = false) : CallLog e a r := by
  have after := Completer.anchor?_eq_none after
  cases hs : e.completer.session with
  | none =>
    have before := Completer.anchor?_eq_none hs
    refine .silent ?_ (after.trans before.symm) edits
    simpa [Completer.close, hs] using log
  | some s =>
    have before := Completer.anchor?_eq_some hs
    have told : r.log = [.mentionClosed s.anchor reason] := by simpa [Completer.close, hs] using log
    exact .closed before told after edits

theorem CallLog.of_commit {s : MentionSession} {change : Change} {selection : Selection} {applied : Applied Draft}
    (session : e.completer.session = some s)
    (edit : TextField.apply e.field ⟨change, selection, "mention-commit".toList⟩ = .ok applied)
    (log : r.log = (e.completer.close .committed).log ++ [applied.event])
    (after : r.state.completer.session = none) (commits : a.commits r.result = true) : CallLog e a r := by
  obtain ⟨changed, event⟩ := TextField.apply_event edit
  have before := Completer.anchor?_eq_some session
  have after := Completer.anchor?_eq_none after
  have told : r.log = [.mentionClosed s.anchor .committed, .applied "mention-commit".toList changed] := by
    simp [log, event, Completer.close, session]
  exact .committed before told after commits

theorem refresh_callLog (e : Editor Draft) {a : Call Draft} (ha : ∀ request, a.edits (.request request) = false) :
    CallLog e a (e.withCompleter (e.completer.refresh e.field) .request) := by
  cases hs : e.completer.session with
  | none =>
    simp only [Completer.refresh, hs]
    exact .silent rfl rfl (ha _)
  | some s =>
    simp only [Completer.refresh, hs]
    cases e.completer.queryAt s.anchor e.field with
    | error reason => exact .of_close rfl rfl (ha _)
    | ok query =>
      simp only
      split
      next => exact .silent rfl rfl (ha _)
      next =>
        exact .silent rfl (Completer.anchor?_eq_some hs).symm (ha _)

theorem input_callLog (e : Editor Draft) (kind : InputKind) : CallLog e (.input kind) (e.call (.input kind)) := by
  cases ho : e.completer.isOpen with
  | true =>
    have told : e.completer.input e.field kind = e.completer.refresh e.field := by simp [Completer.input, ho]
    simp only [call, told]
    exact e.refresh_callLog fun _ => rfl
  | false =>
    have before := Completer.anchor?_of_closed ho
    rcases Completer.input_of_closed ho e.field kind with ⟨_, p, _, told⟩ | ⟨_, told⟩
    · simp only [call, told]
      exact .opened before rfl rfl rfl
    · simp only [call, told]
      exact .silent rfl rfl rfl

theorem toggle_callLog (e : Editor Draft) : CallLog e .toggle (e.call .toggle) := by
  cases ho : e.completer.isOpen with
  | true =>
    simp only [call, toggle, ho, if_true]
    exact .of_close rfl rfl rfl
  | false =>
    have before := Completer.anchor?_of_closed ho
    obtain ⟨a, replaced⟩ := e.field.replaceSelection_succeeds [e.completer.trigger] .afterInsert
      "mention-trigger".toList
    obtain ⟨changed, event⟩ := TextField.apply_event replaced
    simp only [call, toggle, ho, replaced]
    exact .inserted before (by rw [← event]; rfl) rfl rfl rfl

theorem commit_callLog (e : Editor Draft) (index : Nat) : CallLog e (.commit index) (e.call (.commit index)) := by
  have succeeds := e.commit_succeeds index
  have reported := e.commit_report index
  simp only [call]
  generalize e.commit index = r at succeeds reported ⊢
  cases reported with
  | noCandidate candidate => exact .silent rfl rfl rfl
  | ended session candidate query => exact .of_close rfl rfl rfl
  | refused session candidate query edit =>
    obtain ⟨done, hd⟩ := succeeds
    cases hd
  | applied session candidate query edit => exact .of_commit session edit rfl rfl rfl

theorem key_callLog (e : Editor Draft) (valid : ∀ s, e.completer.session = some s → s.HighlightValid) (k : Key) :
    CallLog e (.key k) (e.call (.key k)) := by
  have reported := e.key_report k valid
  simp only [call]
  generalize e.key k = r at reported ⊢
  cases reported with
  | ignored idle => exact .silent rfl rfl (by cases k <;> rfl)
  | escaped session escape =>
    rw [escape]
    exact .of_close rfl rfl rfl
  | @moved s down session moves candidates =>
    refine .silent rfl (Completer.anchor?_eq_some session).symm ?_
    rcases moves with rfl | rfl <;> rfl
  | committed session commits highlighted candidate stands edit =>
    refine .of_commit session edit rfl rfl ?_
    rcases commits with rfl | rfl <;> rfl
  | ended session commits candidates gone => exact .of_close rfl rfl (by cases k <;> rfl)

theorem highlight_callLog (e : Editor Draft) (index : Nat) :
    CallLog e (.highlight index) (e.call (.highlight index)) := by
  refine .silent rfl ?_ rfl
  show (e.completer.highlight index).anchor? = _
  unfold Completer.highlight
  split
  next => rfl
  next s hs =>
    split
    next => exact (Completer.anchor?_eq_some hs).symm
    next => rfl

theorem lookupAnswer_callLog (e : Editor Draft) (t : Ticket) (answer : Except Failure (List Candidate)) :
    CallLog e (.lookupAnswer t answer) (e.call (.lookupAnswer t answer)) := by
  simp only [call]
  cases current : e.completer.tickets.isCurrent t with
  | false =>
    rw [Completer.applyLookup_of_not_isCurrent current]
    exact .aside (by simp [withCompleter, Event.tellsMention, Event.tellsEdit]) rfl rfl
  | true =>
    simp only [Completer.applyLookup, current, not_true_eq_false, if_false]
    cases hs : e.completer.session with
    | none => exact .silent rfl rfl rfl
    | some s =>
      have kept := (Completer.anchor?_eq_some hs).symm
      cases answer with
      | ok found => exact .silent rfl kept rfl
      | error failure => exact .aside (by simp [withCompleter, Event.tellsMention, Event.tellsEdit]) kept rfl

theorem call_callLog (e : Editor Draft) (valid : ∀ s, e.completer.session = some s → s.HighlightValid)
    {a : Call Draft} (ha : a.isOpenAt = false) : CallLog e a (e.call a) := by
  cases a with
  | openAt p => cases ha
  | edit d => exact .silent rfl rfl rfl
  | close reason => exact .of_close rfl rfl rfl
  | blur => exact .of_close rfl rfl rfl
  | toggle => exact e.toggle_callLog
  | input kind => exact e.input_callLog kind
  | selectionMoved => exact e.refresh_callLog fun _ => rfl
  | key k => exact e.key_callLog valid k
  | commit index => exact e.commit_callLog index
  | highlight index => exact e.highlight_callLog index
  | lookupAnswer t answer => exact e.lookupAnswer_callLog t answer

end Editor

end PostEditor
