import PostEditor.Proofs.ShiftedEditor

namespace PostEditor

namespace Action

/-- The action works in the text that is there, wherever it starts, and its answer tells no offset. -/
def isLocal : Action → Bool
  | .backspace | .apply _ | .readSelected | .prefill _ => false
  | _ => true

/-- The action on a draft with a text in front, all its offsets moved along. -/
def withHead (p : Text) : Action → Action
  | .input t s kind => .input (p ++ t) (s.shift p.bytes) kind
  | .takeInput t s => .takeInput (p ++ t) (s.shift p.bytes)
  | .select s => .select (s.shift p.bytes)
  | .setSelection s => .setSelection (s.shift p.bytes)
  | .storeSelection s => .storeSelection (s.shift p.bytes)
  | .selectRange start stop => .selectRange (start + p.bytes) (stop + p.bytes)
  | .openAt anchor => .openAt (anchor + p.bytes)
  | a => a

end Action

namespace Editor

section

variable {e : Editor Draft} {p : Text} (hp : p.getLast? ≠ some e.completer.trigger)

include hp

theorem perform_withHead {a : Action} (ha : a.isLocal = true) :
    (e.withHead p).perform (a.withHead p) = (e.perform a).moved p.bytes (·.withHead p) := by
  have field : (e.withHead p).field = e.field.withHead p := rfl
  cases a with
  | backspace | apply _ | readSelected | prefill _ => cases ha
  | typeText t =>
    have typed := typeText_withHead hp t
    simp only [Action.withHead, perform, typed]
    rfl
  | input t s kind =>
    have told := edited_withHead hp (.takeInput t s) kind
    simp only [Action.withHead, perform, Draft.takeInput_withHead, told]
    rfl
  | inputOnly kind =>
    have told := edited_withHead hp e.field kind
    simp only [Action.withHead, perform, field, told]
    rfl
  | select s =>
    have told : (e.withHead p).completer.refresh ((e.field.setSelection s).withHead p) = _ :=
      Completer.refresh_shift hp (e.field.setSelection s)
    simp only [Action.withHead, perform, field, Draft.setSelection_withHead, Completer.selectionMoved, told]
    rfl
  | selectionMoved =>
    have told : (e.withHead p).completer.refresh (e.field.withHead p) = _ := Completer.refresh_shift hp e.field
    simp only [Action.withHead, perform, field, Completer.selectionMoved, told]
    rfl
  | setSelection s =>
    simp only [Action.withHead, perform, field, Draft.setSelection_withHead]
    rfl
  | selectRange start stop =>
    have selected : TextField.select (e.field.withHead p) (start + p.bytes) (stop + p.bytes) =
        (TextField.select e.field start stop).withHead p := by
      simp only [TextField.select, Selection.between_add, Draft.setSelection_withHead]
    simp only [Action.withHead, perform, field, selected]
    rfl
  | storeSelection s => rfl
  | takeInput t s =>
    simp only [Action.withHead, perform, Draft.takeInput_withHead]
    rfl
  | replaceSelection insert policy label =>
    simp only [Action.withHead, perform, field, Draft.replaceSelection_withHead, withApplied_withHead]
  | appendMediaLink path =>
    simp only [Action.withHead, perform, field, Draft.appendMediaLink_withHead, withApplied_withHead]
  | format markup => simp only [Action.withHead, perform, field, Draft.format_withHead, withApplied_withHead]
  | key k =>
    simp only [Action.withHead, perform, key_withHead hp]
    rfl
  | commit index =>
    simp only [Action.withHead, perform, commit_withHead hp]
    rfl
  | highlight index =>
    have highlighted := e.completer.highlight_shift p.bytes index
    simp only [Action.withHead, perform, withHead, highlighted]
    rfl
  | blur =>
    have closed := e.completer.close_shift p.bytes .focusLost
    simp only [Action.withHead, perform, withHead, Completer.blur, closed]
    rfl
  | close reason =>
    have closed := e.completer.close_shift p.bytes reason
    simp only [Action.withHead, perform, withHead, closed]
    rfl
  | toggle =>
    simp only [Action.withHead, perform, toggle_withHead]
    rfl
  | openAt anchor => rfl
  | isCurrent t =>
    have current := e.completer.shift_isCurrent p.bytes t
    simp only [Action.withHead, perform, withHead, current]
    rfl
  | lookupAnswer t answer =>
    have taken := e.completer.applyLookup_shift p.bytes t answer
    simp only [Action.withHead, perform, withHead, taken]
    rfl
  | lookupReply t body wording =>
    have taken := e.completer.applyLookup_shift p.bytes t (.ok (LookupReply.candidates body wording).1)
    have read := LookupReply.map_shift_candidates body wording p.bytes
    simp only [Action.withHead, perform, withHead, taken, Report.moved, List.map_append, read]
    rfl

theorem run_withHead {actions : List Action} (ha : ∀ a ∈ actions, a.isLocal = true) :
    (e.withHead p).run (actions.map (·.withHead p)) = (e.run actions).map (·.moved p.bytes (·.withHead p)) := by
  induction actions generalizing e with
  | nil => rfl
  | cons a rest ih =>
    obtain ⟨calls, made⟩ := e.perform_exists_calls a
    have trigger : (e.perform a).state.completer.trigger = e.completer.trigger := by
      rw [made]
      exact after_trigger e calls
    have first := perform_withHead hp (ha a List.mem_cons_self)
    have later := ih (e := (e.perform a).state) (trigger ▸ hp) fun b hb => ha b (List.mem_cons_of_mem a hb)
    simp only [List.map_cons, run, first, Report.moved]
    rw [later]
    rfl

end

/-- A text that does not end with the trigger may stand in front: with all offsets moved along, actions in the text
itself answer, ask and leave the same, only further on. -/
theorem position_in_field_does_not_matter (e : Editor Draft) {p : Text}
    (hp : p.getLast? ≠ some e.completer.trigger) {actions : List Action} (ha : ∀ a ∈ actions, a.isLocal = true) :
    (e.withHead p).run (actions.map (·.withHead p)) = (e.run actions).map (·.moved p.bytes (·.withHead p)) ∧
      ∀ (t insert : Text) (i j : Nat) (s : Selection),
        (Action.takeInput (t.splice i j insert) s).withHead p =
          .takeInput ((p ++ t).splice (i + p.bytes) (j + p.bytes) insert) (s.shift p.bytes) := by
  refine ⟨run_withHead hp ha, ?_⟩
  intro t insert i j s
  rw [Text.splice_append_add]
  rfl

theorem position_in_field_does_not_matter_beyond_ascii :
    let e : Editor Draft := ⟨{ trigger := 'é' }, ⟨['a', 'é'], ⟨9, 2⟩⟩⟩
    let p : Text := ['é', '😀']
    let actions : List Action := [.takeInput ['é', 'b'] (.cursor 2), .inputOnly .insert, .storeSelection (.cursor 3),
      .selectionMoved, .lookupAnswer ⟨2⟩ (.ok [⟨['ñ'], ['ñ']⟩]), .key .enter, .format .bold]
    (p.getLast? ≠ some e.completer.trigger ∧ ∀ a ∈ actions, a.isLocal = true) ∧
      ((e.withHead p).run (actions.map (·.withHead p))).map (·.result) = (e.run actions).map (·.result) ∧
      ((e.withHead p).run (actions.map (·.withHead p))).map (·.state.field.text) =
        (e.run actions).map (p ++ ·.state.field.text) ∧
      ((e.run actions).getLast?.map (·.state.field)) = some ⟨['é', 'ñ', '*', '*', '*', '*'], .cursor 6⟩ := by
  intro e p actions
  have hp : p.getLast? ≠ some e.completer.trigger := by decide
  have ha : ∀ a ∈ actions, a.isLocal = true := by decide
  obtain ⟨runs, _⟩ := position_in_field_does_not_matter e hp ha
  rw [runs, List.map_map, List.map_map]
  exact ⟨⟨hp, ha⟩, rfl, rfl, by decide⟩

end Editor

end PostEditor
