import PostEditor.Completer
import PostEditor.Reply
import PostEditor.Proofs.ShiftedDraft

namespace PostEditor

def MentionSession.shift (s : MentionSession) (n : Nat) : MentionSession := { s with anchor := s.anchor + n }

namespace Completer

/-- The completer with its open mention moved on. -/
def shift (c : Completer) (n : Nat) : Completer := { c with session := c.session.map (·.shift n) }

variable (c : Completer) (n : Nat)

@[simp] theorem shift_trigger : (c.shift n).trigger = c.trigger := rfl

@[simp] theorem shift_session : (c.shift n).session = c.session.map (·.shift n) := rfl

@[simp] theorem shift_tickets : (c.shift n).tickets = c.tickets := rfl

@[simp] theorem shift_isOpen : (c.shift n).isOpen = c.isOpen := by simp [isOpen, shift]

@[simp] theorem shift_isCurrent (t : Ticket) : (c.shift n).isCurrent t = c.isCurrent t := by
  simp only [isCurrent, shift_isOpen]
  rfl

theorem close_shift (reason : CloseReason) : (c.shift n).close reason = (c.close reason).moved n (·.shift n) := by
  cases hs : c.session <;> simp [close, shift, hs, Report.moved, Event.shift, MentionSession.shift]

theorem highlight_shift (index : Nat) : (c.shift n).highlight index = (c.highlight index).shift n := by
  cases hs : c.session with
  | none => simp only [highlight, shift_session, hs, Option.map_none]
  | some s =>
    simp only [highlight, shift_session, hs, Option.map_some]
    by_cases hi : index < s.candidates.length
    · have hi' : index < (s.shift n).candidates.length := hi
      simp only [hi, hi', if_true]
      rfl
    · have hi' : ¬index < (s.shift n).candidates.length := hi
      simp only [hi, hi', if_false]

theorem applyLookup_shift (t : Ticket) (answer : Except Failure (List Candidate)) :
    (c.shift n).applyLookup t answer = (c.applyLookup t answer).moved n (·.shift n) := by
  cases current : c.tickets.isCurrent t with
  | false =>
    have current' : (c.shift n).tickets.isCurrent t = false := current
    rw [applyLookup_of_not_isCurrent current, applyLookup_of_not_isCurrent current']
    rfl
  | true =>
    simp only [applyLookup, shift_tickets, shift_session, current, not_true_eq_false, if_false]
    cases c.session with
    | none => rfl
    | some s => cases answer <;> rfl

section

variable {c} {p : Text} (hp : p.getLast? ≠ some c.trigger) (d : Draft)

include hp

theorem queryAt_shift (anchor : Nat) :
    (c.shift p.bytes).queryAt (anchor + p.bytes) (d.withHead p) = c.queryAt anchor d := by
  have query := Mention.query_append_add hp d.text d.selection.stop anchor
  simp only [queryAt, TextField.selection, TextField.text, Draft.withHead_selection, Draft.withHead_text,
    Selection.shift_start, Selection.shift_stop, Nat.add_lt_add_iff_right, shift_trigger, query]

/-- A text in front that does not end with the trigger changes nothing for a mention behind it. -/
theorem refresh_shift : (c.shift p.bytes).refresh (d.withHead p) = (c.refresh d).moved p.bytes (·.shift p.bytes) := by
  cases hs : c.session with
  | none =>
    simp only [refresh, shift_session, hs, Option.map_none]
    rfl
  | some s =>
    have query : (c.shift p.bytes).queryAt (s.shift p.bytes).anchor (d.withHead p) = c.queryAt s.anchor d :=
      queryAt_shift hp d s.anchor
    simp only [refresh, shift_session, hs, Option.map_some, query]
    cases c.queryAt s.anchor d with
    | error reason => simp only [close_shift]; rfl
    | ok query =>
      have kept : (s.shift p.bytes).query = s.query := rfl
      simp only [kept]
      split
      next => rfl
      next => rfl

theorem input_shift (kind : InputKind) :
    (c.shift p.bytes).input (d.withHead p) kind = (c.input d kind).moved p.bytes (·.shift p.bytes) := by
  have typed := Mention.typedTrigger?_append_add hp d.text d.selection.stop
  simp only [input, shift_isOpen, refresh_shift hp, TextField.selection, TextField.text, Draft.withHead_selection,
    Draft.withHead_text, Selection.isCursor_shift, Selection.shift_stop, shift_trigger, typed]
  split
  next => rfl
  next =>
    split
    next =>
      cases Mention.typedTrigger? d.text d.selection.stop c.trigger with
      | none => rfl
      | some anchor => rfl
    next => rfl

end

end Completer

theorem LookupReply.map_shift_candidates (body wording : Text) (n : Nat) :
    (candidates body wording).2.map (·.shift n) = (candidates body wording).2 := by
  unfold candidates
  split
  next => rfl
  next value _ => cases names? value <;> rfl

end PostEditor
