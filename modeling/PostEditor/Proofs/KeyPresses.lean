import PostEditor.Proofs.KeyReports

namespace PostEditor

namespace Editor

def Acts (e : Editor Draft) (k : Key) : Prop :=
  ∃ s, e.completer.session = some s ∧
    (k = .escape ∨ k.Moves ∧ s.candidates ≠ [] ∨
      k.Commits ∧ s.candidates ≠ [] ∧ e.completer.Stands s.anchor e.field)

variable {e : Editor Draft} {k : Key} {r : Report (Editor Draft) KeyOutcome}

theorem KeyReport.handled_iff (h : KeyReport e k r) : r.result = .handled ↔ e.Acts k := by
  cases h with
  | ignored idle =>
    refine ⟨fun taken => (by cases taken), ?_⟩
    rintro ⟨s, hs, acts⟩
    obtain ⟨not_escape, nothing⟩ := idle s hs
    rcases acts with escape | ⟨moves, candidates⟩ | ⟨commits, candidates, _⟩
    · exact absurd escape not_escape
    · exact absurd (nothing (Or.inl moves)) candidates
    · exact absurd (nothing (Or.inr commits)) candidates
  | escaped session escape => exact ⟨fun _ => ⟨_, session, Or.inl escape⟩, fun _ => rfl⟩
  | moved session moves candidates =>
    exact ⟨fun _ => ⟨_, session, Or.inr (Or.inl ⟨moves, candidates⟩)⟩, fun _ => rfl⟩
  | @committed s index x a session commits highlighted candidate stands edit =>
    have candidates : s.candidates ≠ [] := List.ne_nil_of_mem (List.mem_of_getElem? candidate)
    have stands := Completer.stands_iff_inMention.mpr stands
    exact ⟨fun _ => ⟨s, session, Or.inr (Or.inr ⟨commits, candidates, stands⟩)⟩, fun _ => rfl⟩
  | ended session commits candidates gone =>
    refine ⟨fun taken => (by cases taken), ?_⟩
    rintro ⟨t, ht, acts⟩
    obtain rfl := Option.some.inj (session.symm.trans ht)
    rcases acts with escape | ⟨moves, _⟩ | ⟨_, _, stands⟩
    · exact absurd escape commits.ne_escape
    · exact absurd moves commits.not_moves
    · exact absurd (Completer.stands_iff_inMention.mp stands) gone

theorem KeyReport.passThrough (h : KeyReport e k r) (left : r.result = .passThrough) :
    r.state.field = e.field ∧
      (e.completer.Lapsed k e.field →
        r.state.completer = { e.completer with session := none, tickets := e.completer.tickets.cancel }) ∧
      (¬e.completer.Lapsed k e.field → r.state.completer = e.completer) := by
  cases h with
  | ignored idle =>
    refine ⟨rfl, ?_, fun _ => rfl⟩
    rintro ⟨commits, s, hs, candidates, _⟩
    exact absurd ((idle s hs).2 (Or.inr commits)) candidates
  | escaped session escape => cases left
  | moved session moves candidates => cases left
  | committed session commits highlighted candidate stands edit => cases left
  | ended session commits candidates gone =>
    refine ⟨rfl, fun _ => rfl, ?_⟩
    intro not_lapsed
    refine absurd ⟨commits, _, session, candidates, ?_⟩ not_lapsed
    exact fun stands => gone (Completer.stands_iff_inMention.mp stands)

theorem KeyReport.field_of_not_commits (h : KeyReport e k r) (hk : ¬k.Commits) :
    r.state.field = e.field := by
  cases h with
  | ignored idle => rfl
  | escaped session escape => rfl
  | moved session moves candidates => rfl
  | committed session commits highlighted candidate stands edit => exact absurd commits hk
  | ended session commits candidates gone => rfl

theorem KeyReport.inserts (h : KeyReport e k r) (taken : r.result = .handled) (hk : k.Commits) :
    ∃ s index x, e.completer.session = some s ∧ s.highlighted = some index ∧
      s.candidates[index]? = some x ∧
      r.state.field =
        ⟨e.field.text.before s.anchor ++ x.shown ++ e.field.text.after e.field.selection.stop,
          .cursor (s.anchor + x.shown.bytes)⟩ := by
  cases h with
  | ignored idle => cases taken
  | escaped session escape => exact absurd escape hk.ne_escape
  | moved session moves candidates => exact absurd moves hk.not_moves
  | @committed s index x a session commits highlighted candidate stands edit =>
    obtain ⟨b, hb, field⟩ := e.field.apply_caret_of_fits
      ⟨s.anchor, (TextField.selection e.field).stop, x.shown⟩ stands.anchor_le_stop
      stands.anchor_isBoundary stands.stop_isBoundary "mention-commit".toList
    obtain rfl := Except.ok.inj (edit.symm.trans hb)
    exact ⟨s, index, x, session, highlighted, candidate, field⟩
  | ended session commits candidates gone => cases taken

theorem KeyReport.not_rejected (h : KeyReport e k r) (error : EditError) :
    .commitRejected error ∉ r.log := by
  cases h with
  | ignored idle => simp
  | escaped session escape => exact Completer.commitRejected_not_mem_close_log
  | moved session moves candidates => simp
  | committed session commits highlighted candidate stands edit =>
    obtain ⟨changed, event⟩ := TextField.apply_event edit
    rw [event, List.mem_append, List.mem_singleton]
    rintro (closed | applied)
    · exact Completer.commitRejected_not_mem_close_log closed
    · cases applied
  | ended session commits candidates gone => exact Completer.commitRejected_not_mem_close_log

/-- A key is taken exactly when it closes the open mention, moves among its candidates or commits one while the mention
stands. A key that is left has not touched the draft, and no commit is rejected. -/
theorem key_taken_iff_acts {β : Type} [TextField β] (trigger : Char) (b : β) (calls : List (Call β)) (k : Key)
    (d : Draft) :
    let c := ((⟨{ trigger }, b⟩ : Editor β).after calls).completer
    let r := (⟨c, d⟩ : Editor Draft).key k
    (r.result = .handled ↔ (⟨c, d⟩ : Editor Draft).Acts k) ∧
      (r.result = .passThrough → r.state.field = d ∧
        (c.Lapsed k d → r.state.completer = { c with session := none, tickets := c.tickets.cancel }) ∧
        (¬c.Lapsed k d → r.state.completer = c)) ∧
      (r.result = .handled → k = .escape ∨ k.Moves → r.state.field = d) ∧
      (r.result = .handled → k.Commits →
        ∃ s index x, c.session = some s ∧ s.highlighted = some index ∧ s.candidates[index]? = some x ∧
          r.state.field = ⟨d.text.before s.anchor ++ x.shown ++ d.text.after d.selection.stop,
            .cursor (s.anchor + x.shown.bytes)⟩) ∧
      ∀ error, .commitRejected error ∉ r.log := by
  intro c r
  have reported : KeyReport ⟨c, d⟩ k r := key_report _ k fun s hs => after_highlightValid rfl hs
  refine ⟨reported.handled_iff, reported.passThrough, ?_, reported.inserts, reported.not_rejected⟩
  intro _ hk
  refine reported.field_of_not_commits ?_
  intro commits
  rcases hk with escape | moves
  · exact commits.ne_escape escape
  · exact commits.not_moves moves

example :
    let found : List Candidate := [⟨['a'], ['a']⟩]
    let e : Editor Draft := ⟨{ session := some ⟨1, [], found, some 0, none⟩ }, .ofText ['@', ' ']⟩
    (e.key .enter).result = .passThrough ∧ (e.key .enter).state = ⟨{}, .ofText ['@', ' ']⟩ := by decide

end Editor

end PostEditor
