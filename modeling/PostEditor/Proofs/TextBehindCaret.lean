import PostEditor.Proofs.CaretAtEnd
import PostEditor.Proofs.FieldSimulation

namespace PostEditor

def Call.isEdit {β : Type} : Call β → Bool
  | .edit _ => true
  | _ => false

namespace Editor

def withTail (e : Editor Draft) (t : Text) : Editor Draft := { e with field := e.field.withTail t }

variable {e : Editor Draft}

theorem toggle_withTail (h : e.field.CaretAtEnd) (t : Text) :
    (e.withTail t).toggle = e.toggle.into (·.withTail t) := by
  cases ho : e.completer.isOpen with
  | true =>
    have ho' : (e.withTail t).completer.isOpen = true := ho
    simp only [toggle, ho, ho', if_true]
    rfl
  | false =>
    have ho' : (e.withTail t).completer.isOpen = false := ho
    obtain ⟨hle, hs, he⟩ := e.field.clamped_valid
    obtain ⟨a, applied, applied'⟩ := Draft.apply_caret_withTail
      ⟨(TextField.clamped e.field).start, (TextField.clamped e.field).stop, [e.completer.trigger]⟩ hle hs he
      "mention-trigger".toList t
    have replaced : TextField.replaceSelection e.field [e.completer.trigger] .afterInsert "mention-trigger".toList =
        .ok a := applied
    have replaced' : TextField.replaceSelection (e.withTail t).field [(e.withTail t).completer.trigger] .afterInsert
        "mention-trigger".toList = .ok { a with field := a.field.withTail t } := by
      simp only [TextField.replaceSelection, withTail, h.clamped_withTail]
      exact applied'
    simp only [toggle, ho, ho', replaced, replaced']
    rfl

theorem commit_withTail (h : e.field.CaretAtEnd) (t : Text) (index : Nat) :
    (e.withTail t).commit index = (e.commit index).into (·.withTail t) := by
  have completer : (e.withTail t).completer = e.completer := rfl
  cases hs : e.completer.session with
  | none =>
    simp only [commit, completer, hs]
    rfl
  | some s =>
    cases hx : s.candidates[index]? with
    | none =>
      simp only [commit, completer, hs, hx]
      rfl
    | some x =>
      have found' : e.completer.queryAt s.anchor (e.withTail t).field = e.completer.queryAt s.anchor e.field :=
        e.completer.queryAt_withTail h t s.anchor
      cases hq : e.completer.queryAt s.anchor e.field with
      | error reason =>
        simp only [commit, completer, hs, hx, found', hq]
        rfl
      | ok query =>
        have stands := (Completer.queryAt_eq_ok_iff.mp hq).1
        obtain ⟨a, applied, applied'⟩ := Draft.apply_caret_withTail
          ⟨s.anchor, (TextField.selection e.field).stop, x.shown⟩ stands.anchor_le_stop
          stands.anchor_isBoundary stands.stop_isBoundary "mention-commit".toList t
        have field : (e.withTail t).field = e.field.withTail t := rfl
        have selection : TextField.selection (e.field.withTail t) = TextField.selection e.field := rfl
        rw [field] at found'
        simp only [commit, completer, field, hs, hx, found', hq, selection, applied, applied']
        rfl

theorem commitHighlighted_withTail (h : e.field.CaretAtEnd) (t : Text) (highlighted : Option Nat) :
    (e.withTail t).commitHighlighted highlighted = (e.commitHighlighted highlighted).into (·.withTail t) := by
  cases highlighted with
  | none => rfl
  | some index =>
    simp only [commitHighlighted, commit_withTail h, Report.andThen, Report.into_result, Report.into_state,
      Report.into_log]
    cases (e.commit index).result with
    | error error => rfl
    | ok done => cases done <;> rfl

theorem key_withTail (h : e.field.CaretAtEnd) (t : Text) (k : Key) :
    (e.withTail t).key k = (e.key k).into (·.withTail t) := by
  have completer : (e.withTail t).completer = e.completer := rfl
  cases hs : e.completer.session with
  | none =>
    simp only [key, completer, hs]
    rfl
  | some s =>
    simp only [key, completer, hs]
    cases k with
    | escape | backspace | other => rfl
    | arrowUp | arrowDown =>
      simp only
      split
      next => rfl
      next => rfl
    | tab | enter => exact commitHighlighted_withTail h t s.highlighted

/-- A call that does not edit the draft does the same with and without a text behind the caret, and keeps that text. -/
theorem call_withTail (h : e.field.CaretAtEnd) (t : Text) {a : Call Draft} (ha : a.isEdit = false) :
    (e.withTail t).call a = (e.call a).into (·.withTail t) := by
  cases a with
  | edit d => cases ha
  | openAt _ | close _ | blur | highlight _ | lookupAnswer _ _ => rfl
  | toggle =>
    simp only [call, toggle_withTail h]
    rfl
  | input kind =>
    have told := e.completer.input_withTail h t kind
    simp only [call, withTail, told]
    rfl
  | selectionMoved =>
    have told := e.completer.refresh_withTail h t
    simp only [call, withTail, Completer.selectionMoved, told]
    rfl
  | key k =>
    simp only [call, key_withTail h]
    rfl
  | commit index =>
    simp only [call, commit_withTail h]
    rfl

theorem commit_caretAtEnd (h : e.field.CaretAtEnd) (index : Nat) : (e.commit index).state.field.CaretAtEnd := by
  by_cases hc : ∃ s x, Committable e index s x
  · obtain ⟨s, x, hs, hx, hm⟩ := hc
    obtain ⟨-, -, field⟩ := commit_of_inMention hs hx hm
    have stop : e.field.selection.stop = e.field.text.bytes := h.stop_eq_bytes
    rw [field, stop]
    exact Draft.caretAtEnd_of_spliced hm.anchor_isBoundary x.shown
  · have field := (commit_of_not_committable fun s x hc' => hc ⟨s, x, hc'⟩).2.1
    rw [field]
    exact h

theorem call_caretAtEnd (h : e.field.CaretAtEnd) {a : Call Draft} (ha : a.isEdit = false) :
    (e.call a).state.field.CaretAtEnd := by
  cases a with
  | edit d => cases ha
  | openAt _ | close _ | blur | input _ | selectionMoved | highlight _ | lookupAnswer _ _ => exact h
  | toggle =>
    have state : (e.call .toggle).state = e.toggle.state := rfl
    rw [state]
    cases ho : e.completer.isOpen with
    | true =>
      rw [(toggle_of_open ho).2]
      exact h
    | false =>
      rw [(toggle_of_closed ho).2, h.clamped_stop]
      exact Draft.caretAtEnd_of_spliced e.field.clamped_valid.2.1 [e.completer.trigger]
  | key k =>
    have state : (e.call (.key k)).state = (e.key k).state := rfl
    rw [state]
    rcases e.key_keeps_or_commits k with kept | ⟨index, commits⟩
    · rw [kept]
      exact h
    · rw [commits]
      exact commit_caretAtEnd h index
  | commit index => exact commit_caretAtEnd h index

theorem history_withTail (h : e.field.CaretAtEnd) (t : Text) {calls : List (Call Draft)}
    (hcalls : ∀ a ∈ calls, a.isEdit = false) :
    (e.withTail t).history calls = (e.history calls).map (·.into (·.withTail t)) := by
  induction calls generalizing e with
  | nil => rfl
  | cons a rest ih =>
    have ha : a.isEdit = false := hcalls a List.mem_cons_self
    have hrest : ∀ b ∈ rest, b.isEdit = false := fun b hb => hcalls b (List.mem_cons_of_mem a hb)
    have first := call_withTail h t ha
    have later := ih (call_caretAtEnd h ha) hrest
    simp only [history_cons, List.map_cons, first, Report.into_state, later]

end Editor

/-- Two drafts with the same selection differ by the texts at their ends only. -/
def AlikeBefore (t₁ t₂ : Text) (d₁ d₂ : Draft) : Prop :=
  ∃ head, d₁.text = head ++ t₁ ∧ d₂.text = head ++ t₂ ∧ d₁.selection = d₂.selection

theorem sameReport_of_tails {ρ : Type} (r : Report (Editor Draft) ρ) (t₁ t₂ : Text) :
    SameReport (AlikeBefore t₁ t₂) (r.into (·.withTail t₁)) (r.into (·.withTail t₂)) :=
  ⟨rfl, rfl, rfl, r.state.field.text, rfl, rfl, rfl⟩

namespace Editor

/-- Two drafts that differ only behind carets at the same place: every run of calls that does not edit them gives the
same answers and log, leaves the same completer, and keeps what stands behind the carets. -/
theorem text_behind_caret_is_inert (c : Completer) (head t₁ t₂ : Text) {start : Nat} (hs : start ≤ head.bytes) :
    let e₁ : Editor Draft := ⟨c, ⟨head ++ t₁, ⟨start, head.bytes⟩⟩⟩
    let e₂ : Editor Draft := ⟨c, ⟨head ++ t₂, ⟨start, head.bytes⟩⟩⟩
    (∀ a : Call Draft, a.isEdit = false → SameReport (AlikeBefore t₁ t₂) (e₁.call a) (e₂.call a)) ∧
      ∀ calls : List (Call Draft), (∀ a ∈ calls, a.isEdit = false) →
        List.Forall₂ (SameReport (AlikeBefore t₁ t₂)) (e₁.history calls) (e₂.history calls) := by
  intro e₁ e₂
  let e : Editor Draft := ⟨c, ⟨head, ⟨start, head.bytes⟩⟩⟩
  have h : e.field.CaretAtEnd := ⟨hs, rfl⟩
  have h₁ : e₁ = e.withTail t₁ := rfl
  have h₂ : e₂ = e.withTail t₂ := rfl
  constructor
  · intro a ha
    rw [h₁, h₂, call_withTail h t₁ ha, call_withTail h t₂ ha]
    exact sameReport_of_tails (e.call a) t₁ t₂
  · intro calls hcalls
    rw [h₁, h₂, history_withTail h t₁ hcalls, history_withTail h t₂ hcalls, List.forall₂_map_left_iff,
      List.forall₂_map_right_iff]
    exact List.forall₂_same.mpr fun r _ => sameReport_of_tails r t₁ t₂

theorem text_behind_caret_is_inert_beyond_ascii :
    let c : Completer := { session := some ⟨1, ['é'], [⟨['ñ'], ['ñ']⟩], some 0, none⟩ }
    let e₁ : Editor Draft := ⟨c, ⟨['@', 'é'] ++ [' ', 'x'], ⟨1, 3⟩⟩⟩
    let e₂ : Editor Draft := ⟨c, ⟨['@', 'é'] ++ ['😀'], ⟨1, 3⟩⟩⟩
    SameReport (AlikeBefore [' ', 'x'] ['😀']) (e₁.call (.key .enter)) (e₂.call (.key .enter)) ∧
      (e₂.call (.key .enter)).state.field.text = ['@', 'ñ', '😀'] ∧
      List.Forall₂ (SameReport (AlikeBefore [' ', 'x'] ['😀'])) (e₁.history [.key .enter, .toggle])
        (e₂.history [.key .enter, .toggle]) := by
  intro c e₁ e₂
  obtain ⟨calls, runs⟩ :=
    text_behind_caret_is_inert c ['@', 'é'] [' ', 'x'] ['😀'] (show 1 ≤ Text.bytes ['@', 'é'] by decide)
  have unedited : ∀ a ∈ ([.key .enter, .toggle] : List (Call Draft)), a.isEdit = false := by simp [Call.isEdit]
  exact ⟨calls (.key .enter) rfl, by decide, runs [.key .enter, .toggle] unedited⟩

end Editor

end PostEditor
