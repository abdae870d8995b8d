import PostEditor.Session
import PostEditor.Proofs.CheckedCompleter
import PostEditor.Proofs.CheckedEdits
import PostEditor.Proofs.FieldFollowing

namespace PostEditor

namespace Editor

def toggle? (e : Editor Draft) : Option (Report (Editor Draft) (Except EditError (Option Request))) :=
  if e.completer.isOpen then
    some (((e.completer.close .cancelled).answer fun _ => .ok none).into ({ e with completer := · }))
  else do
    match ← e.field.replaceSelection? [e.completer.trigger] .afterInsert "mention-trigger".toList with
    | .error error => return ⟨.error error, e, []⟩
    | .ok applied =>
      let opened := e.completer.openAt (TextField.selection applied.field).stop
      return ⟨.ok (some opened.result), ⟨opened.state, applied.field⟩, applied.event :: opened.log⟩

def commit? (e : Editor Draft) (index : Nat) : Option (Report (Editor Draft) (Except EditError Bool)) :=
  match e.completer.session with
  | none => some ⟨.ok false, e, []⟩
  | some s =>
    match s.candidates[index]? with
    | none => some ⟨.ok false, e, []⟩
    | some candidate => do
      match ← e.completer.queryAt? s.anchor e.field with
      | .error reason =>
        return ((e.completer.close reason).answer fun _ => .ok false).into ({ e with completer := · })
      | .ok _ =>
        let closed := e.completer.close .committed
        let insert := candidate.shown
        match ← e.field.transact? ⟨⟨s.anchor, (TextField.selection e.field).stop, insert⟩,
            .cursor (s.anchor + insert.bytes), "mention-commit".toList⟩ with
        | .error error => return ⟨.error error, { e with completer := closed.state }, closed.log⟩
        | .ok applied =>
          return ⟨.ok true, ⟨closed.state, applied.field⟩, closed.log ++ [applied.event]⟩

def commitHighlighted? (e : Editor Draft) : Option Nat → Option (Report (Editor Draft) KeyOutcome)
  | none => some ⟨.passThrough, e, []⟩
  | some index => do
    return (← e.commit? index).andThen fun result e =>
      match result with
      | .ok true => ⟨.handled, e, []⟩
      | .ok false => ⟨.passThrough, e, []⟩
      | .error error =>
        let closed := e.completer.close .anchorOutOfRange
        ⟨.passThrough, { e with completer := closed.state }, .commitRejected error :: closed.log⟩

def key? (e : Editor Draft) (k : Key) : Option (Report (Editor Draft) KeyOutcome) :=
  match e.completer.session with
  | none => some ⟨.passThrough, e, []⟩
  | some s =>
    match k with
    | .escape =>
      some (((e.completer.close .cancelled).answer fun _ => .handled).into ({ e with completer := · }))
    | .arrowUp | .arrowDown =>
      if s.candidates = [] then some ⟨.passThrough, e, []⟩
      else do
        return ⟨.handled, { e with completer := ← e.completer.move? s (k = .arrowDown) }, []⟩
    | .tab | .enter => e.commitHighlighted? s.highlighted
    | .backspace | .other => some ⟨.passThrough, e, []⟩

def edited? (e : Editor Draft) (d : Draft) (kind : InputKind) :
    Option (Report (Editor Draft) (Option Request)) := do
  return (← e.completer.input? d kind).into (⟨·, d⟩)

def typeText? (e : Editor Draft) : Text → Option (Report (Editor Draft) (List (Option Request)))
  | [] => some ⟨[], e, []⟩
  | c :: t => do
    let typed ← e.edited? (← e.field.typeChar? c) .insert
    let rest ← typeText? typed.state t
    return ⟨typed.result :: rest.result, rest.state, typed.log ++ rest.log⟩

/-- An action with all its checks. The actions at the end cut no text and take no difference. -/
def perform? (e : Editor Draft) : Action → Option (Report (Editor Draft) Answer)
  | .typeText t => do return (← e.typeText? t).answer .requests
  | .backspace => do return (← e.edited? (← e.field.backspace?) .delete).answer .request
  | .input t s kind => do return (← e.edited? (← Draft.takeInput? t s) kind).answer .request
  | .inputOnly kind => do return (← e.edited? e.field kind).answer .request
  | .select s => do
    let d ← e.field.setSelection? s
    return ((← e.completer.refresh? d).answer .request).into (⟨·, d⟩)
  | .selectionMoved => do return e.withCompleter (← e.completer.refresh? e.field) .request
  | .setSelection s => do return e.withDraft (← e.field.setSelection? s)
  | .selectRange start stop => do return e.withDraft (← e.field.select? start stop)
  | .takeInput t s => do return e.withDraft (← Draft.takeInput? t s)
  | .apply tr => do return e.withApplied (← e.field.transact? tr)
  | .replaceSelection insert policy label => do
    return e.withApplied (← e.field.replaceSelection? insert policy label)
  | .readSelected => do return ⟨.selected (← e.field.selectedText?), e, []⟩
  | .prefill t => do return e.withApplied (← e.field.prefill? t)
  | .appendMediaLink path => do return e.withApplied (← e.field.appendMediaLink? path)
  | .format markup => do return e.withApplied (← e.field.format? markup)
  | .key k => do return (← e.key? k).answer .key
  | .commit index => do return (← e.commit? index).answer .committed
  | .toggle => do return (← e.toggle?).answer .toggled
  | .storeSelection s => some (e.perform (.storeSelection s))
  | .highlight index => some (e.perform (.highlight index))
  | .blur => some (e.perform .blur)
  | .close reason => some (e.perform (.close reason))
  | .openAt anchor => some (e.perform (.openAt anchor))
  | .isCurrent t => some (e.perform (.isCurrent t))
  | .lookupAnswer t answer => some (e.perform (.lookupAnswer t answer))
  | .lookupReply t body wording => some (e.perform (.lookupReply t body wording))

@[simp] theorem toggle?_eq (e : Editor Draft) : e.toggle? = some e.toggle := by
  unfold toggle? toggle
  split
  next => rfl
  next =>
    simp only [Draft.replaceSelection?_eq, Option.bind_eq_bind, Option.bind_some]
    cases TextField.replaceSelection e.field [e.completer.trigger] .afterInsert "mention-trigger".toList with
    | error error => rfl
    | ok applied => rfl

@[simp] theorem commit?_eq (e : Editor Draft) (index : Nat) : e.commit? index = some (e.commit index) := by
  cases hs : e.completer.session with
  | none => simp only [commit?, commit, hs]
  | some s =>
    cases hx : s.candidates[index]? with
    | none => simp only [commit?, commit, hs, hx]
    | some x =>
      simp only [commit?, commit, hs, hx, Completer.queryAt?_eq, Option.bind_eq_bind, Option.bind_some]
      cases e.completer.queryAt s.anchor e.field with
      | error reason => rfl
      | ok query =>
        simp only [Draft.transact?_eq, Option.bind_some]
        cases TextField.apply e.field ⟨⟨s.anchor, (TextField.selection e.field).stop, x.shown⟩,
            .cursor (s.anchor + x.shown.bytes), "mention-commit".toList⟩ with
        | error error => rfl
        | ok applied => rfl

@[simp] theorem commitHighlighted?_eq (e : Editor Draft) (highlighted : Option Nat) :
    e.commitHighlighted? highlighted = some (e.commitHighlighted highlighted) := by
  cases highlighted with
  | none => rfl
  | some index =>
    rw [commitHighlighted?, commit?_eq]
    rfl

@[simp] theorem key?_eq (e : Editor Draft) (k : Key) : e.key? k = some (e.key k) := by
  cases hs : e.completer.session with
  | none => simp only [key?, key, hs]
  | some s =>
    by_cases hc : s.candidates = []
    · cases k <;> simp [key?, key, hs, hc]
    · have hmove : ∀ down, e.completer.move? s down = some (e.completer.move s down) :=
        e.completer.move?_eq hc
      cases k <;> simp [key?, key, hs, hc, hmove]

@[simp] theorem edited?_eq (e : Editor Draft) (d : Draft) (kind : InputKind) :
    e.edited? d kind = some (e.edited d kind) := by
  simp [edited?, edited]

@[simp] theorem typeText?_eq (e : Editor Draft) (t : Text) : e.typeText? t = some (e.typeText t) := by
  induction t generalizing e with
  | nil => rfl
  | cons c t ih =>
    simp only [typeText?, Draft.typeChar?_eq, edited?_eq, ih, Option.bind_eq_bind, Option.bind_some]
    rfl

theorem perform?_eq (e : Editor Draft) (a : Action) : e.perform? a = some (e.perform a) := by
  cases a <;> simp [perform?, perform, Completer.selectionMoved]

end Editor

def Answer.error? : Answer → Option EditError
  | .outcome (.error error) | .committed (.error error) | .toggled (.error error) => some error
  | _ => none

namespace Editor

theorem withApplied_error?_of_ok {β : Type} {e : Editor β} {r : Except EditError (Applied β)}
    (h : ∃ a, r = .ok a) : (e.withApplied r).result.error? = none := by
  obtain ⟨a, rfl⟩ := h
  rfl

theorem perform_error?_of_not_apply (e : Editor Draft) {a : Action} (h : ∀ tr, a ≠ .apply tr) :
    (e.perform a).result.error? = none := by
  cases a with
  | apply tr => exact absurd rfl (h tr)
  | replaceSelection insert policy label =>
    exact withApplied_error?_of_ok (e.field.replaceSelection_succeeds insert policy label)
  | prefill t => exact withApplied_error?_of_ok (e.field.prefill_succeeds t)
  | appendMediaLink path => exact withApplied_error?_of_ok (e.field.appendMediaLink_succeeds path)
  | format markup => exact withApplied_error?_of_ok (e.field.format_succeeds markup)
  | commit index =>
    obtain ⟨done, hr⟩ := e.commit_succeeds index
    simp [perform, hr, Answer.error?]
  | toggle =>
    obtain ⟨request, hr⟩ := e.toggle_succeeds
    simp [perform, hr, Answer.error?]
  | _ => rfl

theorem perform_apply_error? (e : Editor Draft) (tr : Transaction) (error : EditError) :
    (e.perform (.apply tr)).result.error? = some error ↔
      e.field.text.checkRange tr.change.start tr.change.stop = .error error := by
  rw [← Draft.apply_eq_error_iff]
  change (e.withApplied (TextField.apply e.field tr)).result.error? = _ ↔ _
  cases TextField.apply e.field tr with
  | error other => simp [withApplied, Answer.error?]
  | ok a => simp [withApplied, Answer.error?]

/-- Every action finishes with all its checks and does what it does without them; it answers with an error exactly when
it is a transaction whose range does not fit. -/
theorem actions_finish_and_only_misfits_fail (e : Editor Draft) (a : Action) :
    e.perform? a = some (e.perform a) ∧
      ∀ error, (e.perform a).result.error? = some error ↔
        ∃ tr, a = .apply tr ∧ e.field.text.checkRange tr.change.start tr.change.stop = .error error := by
  refine ⟨e.perform?_eq a, fun error => ⟨fun h => ?_, ?_⟩⟩
  · by_cases ha : ∃ tr, a = .apply tr
    · obtain ⟨tr, rfl⟩ := ha
      exact ⟨tr, rfl, (e.perform_apply_error? tr error).mp h⟩
    · rw [e.perform_error?_of_not_apply fun tr he => ha ⟨tr, he⟩] at h
      cases h
  · rintro ⟨tr, rfl, hr⟩
    exact (e.perform_apply_error? tr error).mpr hr

end Editor

end PostEditor
