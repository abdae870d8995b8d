import PostEditor.Proofs.MentionRequests
import PostEditor.Proofs.Typing

namespace PostEditor

def Call.mayOpen {β : Type} : Call β → Bool
  | .openAt _ | .toggle | .input _ => true
  | _ => false

structure CaretBehind {β : Type} [TextField β] (b : β) (trigger : Char) (p : Nat) : Prop where
  selection : TextField.selection b = .cursor p
  boundary : (TextField.text b).IsBoundary p
  trigger : ((TextField.text b).before p).getLast? = some trigger

theorem CaretBehind.query {β : Type} [TextField β] {b : β} {trigger : Char} {p : Nat}
    (h : CaretBehind b trigger p) : Mention.query (TextField.text b) p p trigger = .ok [] := by
  have empty := Text.slice_self_of_isBoundary h.boundary
  exact Mention.query_eq_ok_iff.mpr ⟨Nat.le_refl p, h.boundary, h.boundary, h.trigger, empty, by simp⟩

namespace Completer

section

variable {β : Type} [TextField β] {c : Completer}

theorem input_of_closed (closed : c.isOpen = false) (b : β) (kind : InputKind) :
    (kind = .insert ∧ ∃ p, CaretBehind b c.trigger p ∧ c.input b kind = (c.openAt p).answer some) ∨
      (¬(kind = .insert ∧ ∃ p, CaretBehind b c.trigger p) ∧ c.input b kind = ⟨none, c, []⟩) := by
  have hs : c.session = none := by simpa [isOpen] using closed
  by_cases h : kind = .insert ∧ ∃ p, CaretBehind b c.trigger p
  · left
    obtain ⟨rfl, p, behind⟩ := h
    exact ⟨rfl, p, behind, input_of_trigger hs behind.selection behind.boundary behind.trigger⟩
  · right
    refine ⟨h, ?_⟩
    simp only [input, closed, Bool.false_eq_true, if_false]
    split
    next inserted =>
      obtain ⟨hk, hc⟩ := inserted
      have cursor := Selection.eq_cursor_of_isCursor hc
      split
      next => rfl
      next p hp =>
        obtain ⟨rfl, boundary, trigger⟩ := Mention.typedTrigger?_eq_some_iff.mp hp
        exact absurd ⟨hk, _, cursor, boundary, trigger⟩ h
    next => rfl

theorem input_opens_iff (closed : c.isOpen = false) (b : β) (kind : InputKind) :
    (c.input b kind).state.isOpen = true ↔ kind = .insert ∧ ∃ p, CaretBehind b c.trigger p := by
  rcases input_of_closed closed b kind with ⟨inserted, p, behind, opened⟩ | ⟨none_behind, kept⟩
  · rw [opened]
    exact ⟨fun _ => ⟨inserted, p, behind⟩, fun _ => rfl⟩
  · rw [kept]
    constructor
    · intro open_after
      rw [closed] at open_after
      cases open_after
    · exact fun h => absurd h none_behind

end

theorem Step.closed_of_no_request {c c' : Completer} (h : Step c none c') (closed : c.isOpen = false) :
    c'.isOpen = false := by
  cases h with
  | closed => rfl
  | shown session anchor query =>
    simp only [isOpen, session] at closed
    cases closed
  | stayed => exact closed

end Completer

namespace Editor

open Completer

section

variable {β : Type} [TextField β] {e : Editor β}

/-- The report tells of a mention that has been opened at the caret, behind the trigger. -/
structure OpenedAtCaret (e : Editor β) (r : Report (Editor β) Answer) (p : Nat) : Prop where
  behind : CaretBehind r.state.field e.completer.trigger p
  completer : r.state.completer = (e.completer.openAt p).state
  request : r.result.request? = some (e.completer.openAt p).result

theorem input_openedAtCaret (closed : e.completer.isOpen = false) {kind : InputKind}
    (opened : (e.call (.input kind)).state.completer.isOpen = true) :
    ∃ p, OpenedAtCaret e (e.call (.input kind)) p := by
  have opened : (e.completer.input e.field kind).state.isOpen = true := opened
  rcases input_of_closed closed e.field kind with ⟨_, p, behind, report⟩ | ⟨_, kept⟩
  · refine ⟨p, behind, ?_, ?_⟩
    · exact congrArg Report.state report
    · exact congrArg Report.result report
  · rw [kept, closed] at opened
    cases opened

theorem call_closed_of_not_mayOpen (closed : e.completer.isOpen = false) {a : Call β} (ha : a.mayOpen = false) :
    (e.call a).state.completer.isOpen = false := by
  have silent : (e.call a).result.request? = none := by
    cases a with
    | openAt _ | toggle | input _ => cases ha
    | selectionMoved =>
      have hs : e.completer.session = none := by simpa [isOpen] using closed
      simp only [call, withCompleter, selectionMoved, refresh, hs]
      rfl
    | _ => rfl
  have step := e.call_step a
  rw [silent] at step
  exact step.closed_of_no_request closed

theorem OpenedAtCaret.selectionMoved {r : Report (Editor β) Answer} {p : Nat} (h : OpenedAtCaret e r p) :
    r.state.completer.selectionMoved r.state.field = ⟨none, r.state.completer, []⟩ := by
  have behind := h.behind
  rw [h.completer]
  exact refresh_of_follows (e.completer.openAt_follows behind.selection behind.boundary behind.trigger)

end

theorem toggle_openedAtCaret {e : Editor Draft} (closed : e.completer.isOpen = false) :
    ∃ p, OpenedAtCaret e (e.call .toggle) p := by
  obtain ⟨result, state⟩ := toggle_of_closed closed
  obtain ⟨_, hs, _⟩ := e.field.clamped_valid
  have inserted := Text.before_splice hs (TextField.clamped e.field).stop [e.completer.trigger]
  have report : (e.call .toggle).state = e.toggle.state := rfl
  refine ⟨_, ⟨?_, ?_, ?_⟩, congrArg Editor.completer state, ?_⟩
  · rw [report, state]
    rfl
  · rw [report, state]
    exact Text.isBoundary_splice hs _ _
  · rw [report, state]
    exact (congrArg List.getLast? inserted).trans (by simp)
  · show (Answer.toggled e.toggle.result).request? = _
    rw [result]
    rfl

/-- Where no mention is open, only an insertion behind the trigger opens one, and always the button of the trigger. It
starts at the caret, is asked for once under a new ticket, and looking again changes nothing. -/
theorem mention_opens_behind_trigger {β : Type} [TextField β] (trigger : Char) (b : β) (calls : List (Call β))
    (closed : ((⟨{ trigger }, b⟩ : Editor β).after calls).completer.isOpen = false) (d : Draft) :
    let e : Editor Draft := ⟨((⟨{ trigger }, b⟩ : Editor β).after calls).completer, d⟩
    let selected := d.selection.clampTo d.text
    (∀ kind, (e.call (.input kind)).state.completer.isOpen = true ↔
        kind = .insert ∧ ∃ p, d.selection = .cursor p ∧ p ≤ d.text.bytes ∧ d.text.IsBoundary p ∧
          (d.text.before p).getLast? = some trigger) ∧
      (e.call .toggle).state.completer.isOpen = true ∧
      (e.call .toggle).state.field = ⟨d.text.splice selected.start selected.stop [trigger],
        .cursor (selected.start + Text.bytes [trigger])⟩ ∧
      (∀ a : Call Draft, a.mayOpen = false → (e.call a).state.completer.isOpen = false) ∧
      ∀ a : Call Draft, (a = .toggle ∨ ∃ kind, a = .input kind) → (e.call a).state.completer.isOpen = true →
        let after := (e.call a).state
        ∃ p request, (e.call a).result.request? = some request ∧ request.query = none ∧
          (∀ q ∈ requests ((⟨{ trigger }, b⟩ : Editor β).history calls),
            q.ticket.number < request.ticket.number) ∧
          after.field.selection = .cursor p ∧ (after.field.text.before p).getLast? = some trigger ∧
          after.completer.session = some { anchor := p } ∧
          Mention.query after.field.text after.field.selection.stop p trigger = .ok [] ∧
          after.completer.selectionMoved after.field = ⟨none, after.completer, []⟩ := by
  intro e selected
  have ht : e.completer.trigger = trigger := after_trigger _ calls
  have closed : e.completer.isOpen = false := closed
  refine ⟨?_, ?_, ?_, fun a => call_closed_of_not_mayOpen closed, ?_⟩
  · intro kind
    have opens_iff := input_opens_iff closed d kind
    rw [show (e.call (.input kind)).state.completer.isOpen = true ↔ _ from opens_iff, ht]
    constructor
    · rintro ⟨inserted, p, behind⟩
      exact ⟨inserted, p, behind.selection, behind.boundary.le_bytes, behind.boundary, behind.trigger⟩
    · rintro ⟨inserted, p, hs, _, hp, before⟩
      exact ⟨inserted, p, hs, hp, before⟩
  · obtain ⟨p, opened⟩ := toggle_openedAtCaret closed
    rw [opened.completer]
    rfl
  · have state := (toggle_of_closed closed).2
    rw [← ht]
    exact congrArg Editor.field state
  · intro a ha open_after after
    obtain ⟨p, opened⟩ : ∃ p, OpenedAtCaret e (e.call a) p := by
      rcases ha with rfl | ⟨kind, rfl⟩
      · exact toggle_openedAtCaret closed
      · exact input_openedAtCaret closed open_after
    have behind := opened.behind
    rw [ht] at behind
    have query := behind.query
    have caret : after.field.selection = .cursor p := behind.selection
    refine ⟨p, _, opened.request, rfl, ?_, caret, behind.trigger, ?_, ?_, opened.selectionMoved⟩
    · intro q hq
      have issued := requests_number_le trigger b calls q hq
      exact Nat.lt_succ_of_le issued
    · show (e.call a).state.completer.session = _
      rw [opened.completer]
      rfl
    · rw [caret]
      exact query

theorem mention_opens_behind_trigger_again :
    let calls : List (Call Draft) := [.toggle, .lookupAnswer ⟨1⟩ (.ok [⟨['a'], ['a']⟩]), .blur]
    let c := ((⟨{ trigger := 'é' }, .ofText ['x']⟩ : Editor Draft).after calls).completer
    let e : Editor Draft := ⟨c, ⟨['ñ', 'é', 'x'], .cursor 4⟩⟩
    c.isOpen = false ∧ (e.call (.input .insert)).state.completer.isOpen = true ∧
      (e.call (.input .delete)).state.completer.isOpen = false ∧
      ∃ request, (e.call (.input .insert)).result.request? = some request ∧ request.query = none ∧
        1 < request.ticket.number := by
  intro calls c e
  have closed : c.isOpen = false := by decide
  obtain ⟨opens_iff, _, _, _, opening⟩ :=
    mention_opens_behind_trigger 'é' (Draft.ofText ['x']) calls closed ⟨['ñ', 'é', 'x'], .cursor 4⟩
  have inserted : (e.call (.input .insert)).state.completer.isOpen = true :=
    (opens_iff .insert).mpr ⟨rfl, 4, by decide, by decide, by decide, by decide⟩
  have deleted : (e.call (.input .delete)).state.completer.isOpen = false := by
    rw [Bool.eq_false_iff]
    intro opened
    obtain ⟨kind, _⟩ := (opens_iff .delete).mp opened
    cases kind
  obtain ⟨p, request, handed, all, beyond, _⟩ := opening (.input .insert) (Or.inr ⟨.insert, rfl⟩) inserted
  have first : (⟨⟨1⟩, none⟩ : Request) ∈
      requests ((⟨{ trigger := 'é' }, .ofText ['x']⟩ : Editor Draft).history calls) := by decide
  exact ⟨closed, inserted, deleted, request, handed, all, beyond _ first⟩

end Editor

end PostEditor
