import PostEditor.Proofs.CompleterStep
import PostEditor.Proofs.ShiftedCompleter

namespace PostEditor

namespace Editor

def withHead (e : Editor Draft) (p : Text) : Editor Draft := ⟨e.completer.shift p.bytes, e.field.withHead p⟩

theorem withApplied_withHead (e : Editor Draft) (p : Text) (r : Except EditError (Applied Draft)) :
    (e.withHead p).withApplied (r.map (·.withHead p)) = (e.withApplied r).moved p.bytes (·.withHead p) := by
  cases r with
  | error error => rfl
  | ok a => rfl

section

variable {e : Editor Draft} {p : Text}

theorem toggle_withHead : (e.withHead p).toggle = e.toggle.moved p.bytes (·.withHead p) := by
  have isOpen : (e.withHead p).completer.isOpen = e.completer.isOpen := e.completer.shift_isOpen p.bytes
  have trigger : (e.withHead p).completer.trigger = e.completer.trigger := rfl
  have replaced := e.field.replaceSelection_withHead p [e.completer.trigger] .afterInsert "mention-trigger".toList
  have field : (e.withHead p).field = e.field.withHead p := rfl
  unfold toggle
  rw [isOpen, trigger, field, replaced]
  split
  next =>
    have closed := e.completer.close_shift p.bytes .cancelled
    simp only [withHead, closed]
    rfl
  next =>
    cases TextField.replaceSelection e.field [e.completer.trigger] .afterInsert "mention-trigger".toList with
    | error error => rfl
    | ok a => rfl

variable (hp : p.getLast? ≠ some e.completer.trigger)

include hp

/-- The candidate is put in the same place of the text, further on in the field. -/
theorem commit_withHead (index : Nat) :
    (e.withHead p).commit index = (e.commit index).moved p.bytes (·.withHead p) := by
  have closed (reason : CloseReason) : (e.withHead p).completer.close reason =
      (e.completer.close reason).moved p.bytes (·.shift p.bytes) :=
    e.completer.close_shift p.bytes reason
  cases hs : e.completer.session with
  | none =>
    have hs' : (e.withHead p).completer.session = none := by simp [withHead, hs]
    simp only [commit, hs, hs']
    rfl
  | some s =>
    have hs' : (e.withHead p).completer.session = some (s.shift p.bytes) := by simp [withHead, hs]
    cases hx : s.candidates[index]? with
    | none =>
      have hx' : (s.shift p.bytes).candidates[index]? = none := hx
      simp only [commit, hs, hs', hx, hx']
      rfl
    | some x =>
      have hx' : (s.shift p.bytes).candidates[index]? = some x := hx
      have query : (e.withHead p).completer.queryAt (s.shift p.bytes).anchor (e.withHead p).field =
          e.completer.queryAt s.anchor e.field :=
        Completer.queryAt_shift hp e.field s.anchor
      cases hq : e.completer.queryAt s.anchor e.field with
      | error reason =>
        simp only [commit, hs, hs', hx, hx', query, hq, closed]
        rfl
      | ok q =>
        have stands := (Completer.queryAt_eq_ok_iff.mp hq).1
        let tr : Transaction := ⟨⟨s.anchor, (TextField.selection e.field).stop, x.shown⟩,
          .cursor (s.anchor + x.shown.bytes), "mention-commit".toList⟩
        have applied : TextField.apply (e.withHead p).field ⟨⟨(s.shift p.bytes).anchor,
            (TextField.selection (e.withHead p).field).stop, x.shown⟩,
            .cursor ((s.shift p.bytes).anchor + x.shown.bytes), "mention-commit".toList⟩ =
          (TextField.apply e.field tr).map (·.withHead p) := by
          rw [← e.field.apply_withHead p tr stands.anchor_le_stop stands.anchor_isBoundary
            stands.stop_isBoundary]
          simp only [MentionSession.shift, Nat.add_right_comm s.anchor p.bytes]
          rfl
        simp only [commit, hs, hs', hx, hx', query, hq, closed, applied]
        cases TextField.apply e.field tr with
        | error error => rfl
        | ok a =>
          simp only [Except.map, Report.moved, List.map_append]
          rfl

theorem commitHighlighted_withHead (highlighted : Option Nat) :
    (e.withHead p).commitHighlighted highlighted = (e.commitHighlighted highlighted).moved p.bytes (·.withHead p) := by
  cases highlighted with
  | none => rfl
  | some index =>
    simp only [commitHighlighted, commit_withHead hp]
    cases hr : (e.commit index).result with
    | error error =>
      have closed := (e.commit index).state.completer.close_shift p.bytes .anchorOutOfRange
      simp only [Report.andThen, Report.moved, hr, withHead, closed, List.map_append, List.map_cons]
      rfl
    | ok done =>
      simp only [Report.andThen, Report.moved, hr]
      cases done <;> simp

theorem key_withHead (k : Key) : (e.withHead p).key k = (e.key k).moved p.bytes (·.withHead p) := by
  cases hs : e.completer.session with
  | none =>
    have hs' : (e.withHead p).completer.session = none := by simp [withHead, hs]
    simp only [key, hs, hs']
    rfl
  | some s =>
    have hs' : (e.withHead p).completer.session = some (s.shift p.bytes) := by simp [withHead, hs]
    simp only [key, hs, hs']
    cases k with
    | backspace | other => rfl
    | escape =>
      have closed := e.completer.close_shift p.bytes .cancelled
      simp only [withHead, closed]
      rfl
    | arrowUp | arrowDown =>
      have candidates : (s.shift p.bytes).candidates = s.candidates := rfl
      simp only [candidates]
      split
      next => rfl
      next => rfl
    | tab | enter => exact commitHighlighted_withHead hp s.highlighted

theorem edited_withHead (d : Draft) (kind : InputKind) :
    (e.withHead p).edited (d.withHead p) kind = (e.edited d kind).moved p.bytes (·.withHead p) := by
  have told : (e.withHead p).completer.input (d.withHead p) kind =
      (e.completer.input d kind).moved p.bytes (·.shift p.bytes) :=
    Completer.input_shift hp d kind
  simp only [edited, told]
  rfl

theorem typeText_withHead (t : Text) :
    (e.withHead p).typeText t = (e.typeText t).moved p.bytes (·.withHead p) := by
  induction t generalizing e with
  | nil => rfl
  | cons c t ih =>
    have typed : (e.withHead p).edited ((e.withHead p).field.typeChar c) .insert =
        (e.edited (e.field.typeChar c) .insert).moved p.bytes (·.withHead p) := by
      rw [← edited_withHead hp, ← Draft.typeChar_withHead]
      rfl
    have trigger : (e.edited (e.field.typeChar c) .insert).state.completer.trigger = e.completer.trigger :=
      (e.completer.input_step (e.field.typeChar c) .insert).trigger_eq
    have later := ih (e := (e.edited (e.field.typeChar c) .insert).state) (trigger ▸ hp)
    simp only [typeText, typed, Report.andThen, Report.moved, later, List.map_append, Report.answer]

end

end Editor

end PostEditor
