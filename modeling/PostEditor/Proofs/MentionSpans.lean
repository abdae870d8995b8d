import PostEditor.Proofs.MentionTurns

namespace PostEditor

namespace Editor

open Completer

variable {β : Type} [TextField β] {e : Editor β}

/-- The call opens a mention: it is told to, or none is open before it and one is open after it. -/
def Opens (e : Editor β) (a : Call β) : Prop :=
  (∃ anchor, a = .openAt anchor) ∨
    e.completer.isOpen = false ∧ (e.call a).state.completer.isOpen = true

def GoesOn (e : Editor β) : List (Call β) → Prop
  | [] => True
  | a :: rest => ¬e.Opens a ∧ (e.call a).state.completer.isOpen = true ∧ GoesOn (e.call a).state rest

/-- A call opens a mention, which is still open after the calls that follow. -/
structure Spans (e : Editor β) (opening : Call β) (later : List (Call β)) : Prop where
  opens : e.Opens opening
  goesOn : (e.call opening).state.GoesOn later

theorem goesOn_append_singleton {calls : List (Call β)} {a : Call β} :
    e.GoesOn (calls ++ [a]) ↔ e.GoesOn calls ∧ ¬(e.after calls).Opens a ∧
      ((e.after calls).call a).state.completer.isOpen = true := by
  induction calls generalizing e with
  | nil => simp [GoesOn]
  | cons b calls ih => simp [GoesOn, ih, and_assoc]

theorem Opens.turn {a : Call β} (h : e.Opens a) :
    ∃ anchor r, (e.call a).state.completer.session = some { anchor } ∧
      (e.call a).result.request? = some r ∧ r.query = none := by
  rcases h with ⟨anchor, rfl⟩ | ⟨closed, opened⟩
  · exact ⟨anchor, _, rfl, rfl, rfl⟩
  · have turn := e.call_turn a
    have hs : e.completer.session = none := by simpa [Completer.isOpen] using closed
    obtain ⟨s', hs'⟩ := Option.isSome_iff_exists.mp opened
    rw [hs'] at turn ⊢
    cases turn with
    | @opened anchor r told request asks => exact ⟨anchor, r, rfl, request, asks⟩
    | onward session on => rw [hs] at session; cases session

theorem exists_onward {a : Call β} {s' : MentionSession} (ha : ¬e.Opens a)
    (hs' : (e.call a).state.completer.session = some s') :
    ∃ s, e.completer.session = some s ∧ s.Onward a (e.call a).result s' := by
  have turn := e.call_turn a
  have opened : (e.call a).state.completer.isOpen = true := by simp [Completer.isOpen, hs']
  rw [hs'] at turn
  cases turn with
  | opened told request asks =>
    rcases told with told | closed
    · exact absurd (Or.inl told) ha
    · have before : e.completer.isOpen = false := by simp [Completer.isOpen, closed]
      exact absurd (Or.inr ⟨before, opened⟩) ha
  | onward session on => exact ⟨_, session, on⟩

theorem Spans.exists_session {opening : Call β} {later : List (Call β)} (h : e.Spans opening later) :
    ∃ s, (e.after (opening :: later)).completer.session = some s := by
  rcases List.eq_nil_or_concat later with rfl | ⟨later, a, rfl⟩
  · obtain ⟨anchor, r, session, _⟩ := h.opens.turn
    exact ⟨_, session⟩
  · have goesOn := h.goesOn
    rw [List.concat_eq_append] at goesOn
    rw [List.concat_eq_append, ← List.cons_append, after_append_singleton]
    exact Option.isSome_iff_exists.mp (goesOn_append_singleton.mp goesOn).2.2

theorem Spans.induction {P : List (Call β × Report (Editor β) Answer) → MentionSession → Prop}
    (start : ∀ a (q : Report (Editor β) Answer) anchor r, q.result.request? = some r → r.query = none →
      P [(a, q)] { anchor })
    (step : ∀ p s a (q : Report (Editor β) Answer) s', P p s → s.Onward a q.result s' →
      P (p ++ [(a, q)]) s')
    {opening : Call β} {later : List (Call β)} (h : e.Spans opening later) {s : MentionSession}
    (hs : (e.after (opening :: later)).completer.session = some s) :
    P (e.transcript (opening :: later)) s := by
  obtain ⟨opens, goesOn⟩ := h
  induction later using List.reverseRecOn generalizing s with
  | nil =>
    obtain ⟨anchor, r, session, request, asks⟩ := opens.turn
    obtain rfl := Option.some.inj (hs.symm.trans session)
    exact start opening _ anchor r request asks
  | append_singleton later a ih =>
    obtain ⟨goesOn, notOpens, _⟩ := goesOn_append_singleton.mp goesOn
    rw [← List.cons_append, after_append_singleton] at hs
    obtain ⟨before, hbefore, on⟩ := exists_onward notOpens hs
    rw [← List.cons_append, transcript_append_singleton]
    exact step _ before a _ s (ih hbefore goesOn) on

/-- A mention that is open after some calls has been opened by one of them, and has lasted ever since. -/
theorem exists_spans (closed : e.completer.session = none) {calls : List (Call β)} {s : MentionSession}
    (hs : (e.after calls).completer.session = some s) :
    ∃ earlier opening later, calls = earlier ++ opening :: later ∧
      (e.after earlier).Spans opening later := by
  induction calls using List.reverseRecOn generalizing s with
  | nil =>
    rw [after_nil, closed] at hs
    cases hs
  | append_singleton calls a ih =>
    rw [after_append_singleton] at hs
    by_cases opens : (e.after calls).Opens a
    · exact ⟨calls, a, [], rfl, opens, trivial⟩
    · obtain ⟨before, hbefore, _⟩ := exists_onward opens hs
      obtain ⟨earlier, opening, later, rfl, spans⟩ := ih hbefore
      have opened : (((e.after earlier).after (opening :: later)).call a).state.completer.isOpen = true := by
        rw [← after_append, Completer.isOpen, hs]
        rfl
      rw [after_append] at opens
      refine ⟨earlier, opening, later ++ [a], by simp, spans.opens, ?_⟩
      exact goesOn_append_singleton.mpr ⟨spans.goesOn, opens, opened⟩

theorem after_session_induction {P : MentionSession → Prop} (start : ∀ anchor, P { anchor })
    (step : ∀ {s a x s'}, P s → s.Onward (β := β) a x s' → P s')
    (closed : e.completer.session = none) {calls : List (Call β)} {s : MentionSession}
    (hs : (e.after calls).completer.session = some s) : P s := by
  obtain ⟨earlier, opening, later, rfl, spans⟩ := exists_spans closed hs
  rw [after_append] at hs
  exact spans.induction (P := fun _ s => P s) (fun _ _ anchor _ _ _ => start anchor)
    (fun _ _ _ _ _ hp on => step hp on) hs

end Editor

end PostEditor
