import PostEditor.Proofs.Openings
import PostEditor.Proofs.ValidSelections

namespace PostEditor

namespace Call

def onDraft : Call Draft → Bool
  | .edit _ | .openAt _ => false
  | _ => true

/-- The completer is told of every edit at once, and every edit leaves a valid selection. -/
inductive Told : List (Call Draft) → Prop
  | nil : Told []
  | edit {d : Draft} {look : Call Draft} {rest : List (Call Draft)} (valid : d.Valid)
      (tells : look = .selectionMoved ∨ ∃ kind, look = .input kind) (told : Told rest) :
      Told (.edit d :: look :: rest)
  | call {a : Call Draft} {rest : List (Call Draft)} (onDraft : a.onDraft = true) (told : Told rest) :
      Told (a :: rest)

end Call

theorem Draft.Valid.exists_split {d : Draft} (h : d.Valid) :
    ∃ pre sel post, d = ⟨pre ++ sel ++ post, ⟨pre.bytes, pre.bytes + sel.bytes⟩⟩ := by
  obtain ⟨text, start, stop⟩ := d
  obtain ⟨hle, hstart, hstop⟩ := h
  obtain ⟨pre, sel, post, ht, hs, he⟩ := Text.exists_split hle hstart hstop
  subst ht hs he
  exact ⟨pre, sel, post, rfl⟩

theorem Draft.Valid.exists_mention_split {d : Draft} {anchor : Nat} {trigger : Char} (h : d.Valid)
    (stands : InMention d anchor trigger) :
    ∃ p q sel post, d = ⟨p ++ q ++ sel ++ post, ⟨(p ++ q).bytes, (p ++ q).bytes + sel.bytes⟩⟩ ∧
      p.bytes = anchor ∧ p.getLast? = some trigger ∧ d.text.slice anchor d.selection.start = q ∧
      ∀ x ∈ q, isBlank x = false := by
  obtain ⟨hle, hstart, hstop⟩ := h
  obtain ⟨p, q, sel, post, ht, ha, hs, he⟩ :=
    Text.exists_split_three stands.anchor_le_start hle stands.anchor_isBoundary hstart hstop
  have hs : d.selection.start = (p ++ q).bytes := by rw [Text.bytes_append, hs]; rfl
  have he : d.selection.stop = (p ++ q).bytes + sel.bytes := by rw [Text.bytes_append, he]
  have ht : d.text = p ++ q ++ sel ++ post := ht
  have hd : d = ⟨p ++ q ++ sel ++ post, ⟨(p ++ q).bytes, (p ++ q).bytes + sel.bytes⟩⟩ := by
    rw [← ht, ← he, ← hs]
  have before : d.text.before anchor = p := by
    rw [ht, ← ha, List.append_assoc, List.append_assoc, Text.before_bytes_append]
  have query : d.text.slice anchor d.selection.start = q := by
    have cut := Text.slice_append p q (sel ++ post)
    rw [ht, hs, ← ha, Text.bytes_append, List.append_assoc]
    exact cut
  have found : d.text.slice anchor d.selection.stop = q ++ sel := by
    rw [ht, he, ← ha, Text.bytes_append]
    exact Text.slice_append_append p q sel post
  refine ⟨p, q, sel, post, hd, ha, ?_, query, ?_⟩
  · rw [← before]
    exact stands.trigger_before
  · intro x hx
    apply stands.no_blank x
    show x ∈ d.text.slice anchor d.selection.stop
    rw [found]
    exact List.mem_append_left sel hx

theorem Completer.refresh_of_query {β : Type} [TextField β] {c : Completer} {b : β} {s : MentionSession}
    {q : Text} (hs : c.session = some s) (hq : c.queryAt s.anchor b = .ok q) :
    (c.refresh b).state.session = some { s with query := q } := by
  by_cases same : q = s.query
  · subst same
    simp only [refresh, hs, hq, if_true]
  · rw [refresh_of_changed hs hq same]

namespace Editor

open Completer

/-- The selection of the draft is valid, and an open mention is one in which it stands. -/
structure InStep (e : Editor Draft) : Prop where
  valid : e.field.Valid
  follows : e.completer.Follows e.field

variable {e : Editor Draft}

theorem valid_of_valid_or_kept {e' : Editor Draft} (h : e'.field.Valid ∨ e'.field = e.field)
    (valid : e.field.Valid) : e'.field.Valid := by
  rcases h with left | kept
  · exact left
  · rw [kept]
    exact valid

theorem InStep.call {a : Call Draft} (h : e.InStep) (ha : a.onDraft = true) : (e.call a).state.InStep := by
  cases a with
  | edit _ | openAt _ => cases ha
  | close _ | blur => exact ⟨h.valid, follows_of_closed rfl _⟩
  | toggle => exact ⟨valid_of_valid_or_kept e.toggle_valid_or_kept h.valid, call_follows_of_looks rfl⟩
  | input _ | selectionMoved => exact ⟨h.valid, call_follows_of_looks rfl⟩
  | key k => exact ⟨valid_of_valid_or_kept (e.key_valid_or_kept k) h.valid, call_follows_of_rests rfl h.follows⟩
  | commit index =>
    exact ⟨valid_of_valid_or_kept (e.commit_valid_or_kept index) h.valid, (e.commit_quiet index).follows h.follows⟩
  | highlight _ | lookupAnswer _ _ => exact ⟨h.valid, call_follows_of_rests rfl h.follows⟩

theorem inStep_of_told_edit (e : Editor Draft) {d : Draft} (valid : d.Valid) {look : Call Draft}
    (tells : look = .selectionMoved ∨ ∃ kind, look = .input kind) :
    (e.after [.edit d, look]).InStep := by
  rcases tells with rfl | ⟨kind, rfl⟩
  · exact ⟨valid, call_follows_of_looks (e := ⟨e.completer, d⟩) (a := .selectionMoved) rfl⟩
  · exact ⟨valid, call_follows_of_looks (e := ⟨e.completer, d⟩) (a := .input kind) rfl⟩

theorem InStep.after {calls : List (Call Draft)} (h : e.InStep) (told : Call.Told calls) :
    (e.after calls).InStep := by
  induction told generalizing e with
  | nil => exact h
  | edit valid tells _ ih => exact ih (e.inStep_of_told_edit valid tells)
  | call onDraft _ ih => exact ih (h.call onDraft)

theorem type_trigger_of_closed (valid : e.field.Valid) (closed : e.completer.isOpen = false) :
    let typed := e.edited (e.field.typeChar e.completer.trigger) .insert
    (∃ request, typed.result = some request ∧ request.query = none) ∧
      ∃ s, typed.state.completer.session = some s ∧ s.anchor = typed.state.field.selection.stop := by
  intro typed
  have hs : e.completer.session = none := by simpa [isOpen] using closed
  obtain ⟨c, d⟩ := e
  obtain ⟨pre, sel, post, rfl⟩ := valid.exists_split
  obtain ⟨result, atQuery, _⟩ := type_trigger hs pre sel post
  obtain ⟨s, session, anchor, _⟩ := atQuery.session
  refine ⟨⟨_, result, rfl⟩, s, session, ?_⟩
  show s.anchor = Selection.stop (Draft.selection typed.state.field)
  rw [anchor, atQuery.field]
  simp [Selection.cursor]

theorem type_char_in_query {c : Completer} {s : MentionSession} (hs : c.session = some s) {p q : Text}
    (ha : p.bytes = s.anchor) (ht : p.getLast? = some c.trigger) (hq : ∀ x ∈ q, isBlank x = false) {x : Char}
    (hx : isBlank x = false) (sel post : Text) :
    let e : Editor Draft := ⟨c, ⟨p ++ q ++ sel ++ post, ⟨(p ++ q).bytes, (p ++ q).bytes + sel.bytes⟩⟩⟩
    (e.edited (e.field.typeChar x) .insert).state.completer.session = some { s with query := q ++ [x] } := by
  intro e
  have draft : e.field.typeChar x = ⟨p ++ (q ++ [x]) ++ post, .cursor (p.bytes + (q ++ [x]).bytes)⟩ := by
    have typed := Draft.typeChar_of_split (p ++ q) sel post x
    have place : (p ++ q).bytes + x.utf8Size = p.bytes + (q ++ [x]).bytes := by
      simp [Nat.add_assoc]
    rw [place, List.append_assoc p q [x]] at typed
    exact typed
  have extended : ∀ y ∈ q ++ [x], isBlank y = false := by
    intro y hy
    rcases List.mem_append.mp hy with old | new
    · exact hq y old
    · rw [List.mem_singleton.mp new]
      exact hx
  have found : c.queryAt s.anchor (e.field.typeChar x) = .ok (q ++ [x]) := by
    rw [draft, ← ha]
    exact queryAt_of_split ht extended post
  have opened : c.isOpen = true := by simp [isOpen, hs]
  have told : (e.edited (e.field.typeChar x) .insert).state.completer = (c.refresh (e.field.typeChar x)).state := by
    simp only [edited, Report.into_state, Completer.input, e, opened, if_true]
  rw [told]
  exact refresh_of_query hs found

theorem InStep.type_trigger_of_open (h : e.InStep) (hb : isBlank e.completer.trigger = false)
    {s : MentionSession} (hs : e.completer.session = some s) :
    (e.edited (e.field.typeChar e.completer.trigger) .insert).state.completer.session =
      some { s with query := e.field.text.slice s.anchor e.field.selection.start ++ [e.completer.trigger] } := by
  obtain ⟨c, d⟩ := e
  obtain ⟨stands, _⟩ := h.follows s hs
  obtain ⟨p, q, sel, post, hd, ha, ht, query, no_blank⟩ := h.valid.exists_mention_split stands
  rw [show d.text.slice s.anchor d.selection.start = q from query, hd]
  exact type_char_in_query hs ha ht no_blank hb sel post

/-- While the completer is told of every edit at once and selections are valid, a typed trigger leaves a mention open: a
new one at the caret, or the one that was open with the trigger in its query. -/
theorem typed_trigger_is_never_lost {trigger : Char} (hb : isBlank trigger = false) {d : Draft} (hd : d.Valid)
    {calls : List (Call Draft)} (told : Call.Told calls) :
    let e := (⟨{ trigger }, d⟩ : Editor Draft).after calls
    let selected := e.field.selection
    let typed := e.edited (e.field.typeChar trigger) .insert
    typed.state.field = ⟨e.field.text.splice selected.start selected.stop [trigger],
        .cursor (selected.start + trigger.utf8Size)⟩ ∧
      typed.state.completer.isOpen = true ∧
      (e.completer.isOpen = false →
        (∃ request, typed.result = some request ∧ request.query = none) ∧
          ∃ s, typed.state.completer.session = some s ∧ s.anchor = typed.state.field.selection.stop) ∧
      ∀ s, e.completer.session = some s →
        ∃ s', typed.state.completer.session = some s' ∧ s'.anchor = s.anchor ∧
          s'.query = e.field.text.slice s.anchor selected.start ++ [trigger] := by
  intro e selected typed
  have start : (⟨{ trigger }, d⟩ : Editor Draft).InStep := ⟨hd, follows_of_closed rfl d⟩
  have inStep : e.InStep := start.after told
  have ht : e.completer.trigger = trigger := after_trigger _ calls
  have field : typed.state.field = ⟨e.field.text.splice selected.start selected.stop [trigger],
      .cursor (selected.start + trigger.utf8Size)⟩ := by
    obtain ⟨pre, sel, post, hsplit⟩ := inStep.valid.exists_split
    show e.field.typeChar trigger = _
    simp only [selected]
    rw [hsplit, Draft.typeChar_of_split, Text.splice_append]
  rw [← ht] at hb
  have opens : e.completer.isOpen = false →
      (∃ request, typed.result = some request ∧ request.query = none) ∧
        ∃ s, typed.state.completer.session = some s ∧ s.anchor = typed.state.field.selection.stop := by
    intro closed
    have opened := type_trigger_of_closed inStep.valid closed
    rwa [ht] at opened
  have extends_query : ∀ s, e.completer.session = some s →
      ∃ s', typed.state.completer.session = some s' ∧ s'.anchor = s.anchor ∧
        s'.query = e.field.text.slice s.anchor selected.start ++ [trigger] := by
    intro s hs
    have extended := inStep.type_trigger_of_open hb hs
    rw [ht] at extended
    exact ⟨_, extended, rfl, rfl⟩
  refine ⟨field, ?_, opens, extends_query⟩
  cases hs : e.completer.session with
  | none =>
    obtain ⟨_, s, session, _⟩ := opens (by simp [isOpen, hs])
    simp [isOpen, session]
  | some s =>
    obtain ⟨s', session, _⟩ := extends_query s hs
    simp [isOpen, session]

theorem typed_trigger_is_never_lost_in_query :
    let d : Draft := ⟨['é'], ⟨0, 2⟩⟩
    let calls : List (Call Draft) :=
      [.toggle, .edit ⟨['@', 'ñ', 'x'], ⟨3, 4⟩⟩, .input .insert, .lookupAnswer ⟨2⟩ (.ok [⟨['a'], ['a']⟩]),
        .highlight 0]
    let e := (⟨{}, d⟩ : Editor Draft).after calls
    let typed := e.edited (e.field.typeChar '@') .insert
    isBlank '@' = false ∧ d.Valid ∧ Call.Told calls ∧
      e.completer.session = some ⟨1, ['ñ', 'x'], [⟨['a'], ['a']⟩], some 0, none⟩ ∧
      typed.state.field = ⟨['@', 'ñ', '@'], .cursor 4⟩ ∧
      ∃ s', typed.state.completer.session = some s' ∧ s'.anchor = 1 ∧ s'.query = ['ñ', '@'] := by
  intro d calls e typed
  have hb : isBlank '@' = false := by decide
  have hd : d.Valid := ⟨by decide, by decide, by decide⟩
  have edited : (⟨['@', 'ñ', 'x'], ⟨3, 4⟩⟩ : Draft).Valid := ⟨by decide, by decide, by decide⟩
  have told : Call.Told calls :=
    .call rfl (.edit edited (Or.inr ⟨.insert, rfl⟩) (.call rfl (.call rfl .nil)))
  have session : e.completer.session = some ⟨1, ['ñ', 'x'], [⟨['a'], ['a']⟩], some 0, none⟩ := by decide
  obtain ⟨field, _, _, in_query⟩ := typed_trigger_is_never_lost hb hd told
  obtain ⟨s', open_after, anchor, query⟩ := in_query _ session
  refine ⟨hb, hd, told, session, field.trans (by decide), s', ?_, anchor, query.trans (by decide)⟩
  simp only [typed, e]
  exact open_after

example :
    let e := (⟨{ trigger := ' ' }, .ofText []⟩ : Editor Draft).after [.toggle]
    e.completer.isOpen = true ∧
      (e.edited (e.field.typeChar ' ') .insert).state.completer.isOpen = false := by decide

end Editor

end PostEditor
