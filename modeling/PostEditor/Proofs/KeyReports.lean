import PostEditor.Proofs.ShownAnswers

namespace PostEditor

namespace Key

def Moves (k : Key) : Prop := k = .arrowUp ∨ k = .arrowDown

def Commits (k : Key) : Prop := k = .tab ∨ k = .enter

theorem Commits.ne_escape {k : Key} (h : k.Commits) : k ≠ .escape := by
  rcases h with rfl | rfl <;> simp

theorem Commits.not_moves {k : Key} (h : k.Commits) : ¬k.Moves := by
  rcases h with rfl | rfl <;> simp [Moves]

end Key

namespace Completer

/-- A mention with this anchor still stands in the field: all of the selection is behind the anchor, and there is a
query between anchor and caret. -/
def Stands {β : Type} [TextField β] (c : Completer) (anchor : Nat) (b : β) : Prop :=
  anchor ≤ (TextField.selection b).start ∧
    ∃ query, Mention.query (TextField.text b) (TextField.selection b).stop anchor c.trigger = .ok query

/-- The key is to commit a candidate of a mention that no longer stands in the draft. -/
def Lapsed (c : Completer) (k : Key) (d : Draft) : Prop :=
  k.Commits ∧ ∃ s, c.session = some s ∧ s.candidates ≠ [] ∧ ¬c.Stands s.anchor d

theorem stands_iff_inMention {β : Type} [TextField β] {c : Completer} {anchor : Nat} {b : β} :
    c.Stands anchor b ↔ InMention b anchor c.trigger := by
  constructor
  · rintro ⟨hs, query, hq⟩
    have found : c.queryAt anchor b = .ok query := by simp [queryAt, Nat.not_lt.mpr hs, hq]
    exact (queryAt_eq_ok_iff.mp found).1
  · intro h
    have found := queryAt_eq_ok_iff.mpr ⟨h, rfl⟩
    simp only [queryAt, Nat.not_lt.mpr h.anchor_le_start, if_false] at found
    exact ⟨h.anchor_le_start, _, found⟩

theorem commitRejected_not_mem_close_log {c : Completer} {reason : CloseReason} {error : EditError} :
    .commitRejected error ∉ (c.close reason).log := by
  cases hs : c.session <;> simp [close, hs]

end Completer

theorem TextField.apply_event {β : Type} [TextField β] {b : β} {tr : Transaction} {a : Applied β}
    (h : TextField.apply b tr = .ok a) : ∃ changed, a.event = .applied tr.label changed := by
  unfold TextField.apply at h
  simp only at h
  split at h
  next => cases h
  next =>
    cases h
    exact ⟨_, rfl⟩

namespace Editor

/-- All that a key can report: it is left to the browser without effect, closes the mention, moves the highlight,
commits the highlighted candidate, or finds that the mention has ended. -/
inductive KeyReport (e : Editor Draft) (k : Key) : Report (Editor Draft) KeyOutcome → Prop
  | ignored (idle : ∀ s, e.completer.session = some s → k ≠ .escape ∧
      (k.Moves ∨ k.Commits → s.candidates = [])) : KeyReport e k ⟨.passThrough, e, []⟩
  | escaped {s : MentionSession} (session : e.completer.session = some s) (escape : k = .escape) :
      KeyReport e k ⟨.handled, { e with completer := (e.completer.close .cancelled).state },
        (e.completer.close .cancelled).log⟩
  | moved {s : MentionSession} {down : Bool} (session : e.completer.session = some s) (moves : k.Moves)
      (candidates : s.candidates ≠ []) :
      KeyReport e k ⟨.handled, { e with completer := e.completer.move s down }, []⟩
  | committed {s : MentionSession} {index : Nat} {x : Candidate} {a : Applied Draft}
      (session : e.completer.session = some s) (commits : k.Commits) (highlighted : s.highlighted = some index)
      (candidate : s.candidates[index]? = some x) (stands : InMention e.field s.anchor e.completer.trigger)
      (edit : TextField.apply e.field ⟨⟨s.anchor, (TextField.selection e.field).stop, x.shown⟩,
        .cursor (s.anchor + x.shown.bytes), "mention-commit".toList⟩ = .ok a) :
      KeyReport e k ⟨.handled, ⟨(e.completer.close .committed).state, a.field⟩,
        (e.completer.close .committed).log ++ [a.event]⟩
  | ended {s : MentionSession} {reason : CloseReason} (session : e.completer.session = some s)
      (commits : k.Commits) (candidates : s.candidates ≠ [])
      (gone : ¬InMention e.field s.anchor e.completer.trigger) :
      KeyReport e k ⟨.passThrough, { e with completer := (e.completer.close reason).state },
        (e.completer.close reason).log⟩

variable {e : Editor Draft} {s : MentionSession}

theorem commitHighlighted_report (hs : e.completer.session = some s) (valid : s.HighlightValid) {k : Key}
    (hk : k.Commits) : KeyReport e k (e.commitHighlighted s.highlighted) := by
  cases hh : s.highlighted with
  | none =>
    refine .ignored ?_
    intro t ht
    obtain rfl := Option.some.inj (hs.symm.trans ht)
    exact ⟨hk.ne_escape, fun _ => valid.none_iff.mp hh⟩
  | some index =>
    have hlt := valid.lt_length index hh
    have hx : s.candidates[index]? = some s.candidates[index] := List.getElem?_eq_getElem hlt
    have some_candidates : s.candidates ≠ [] := List.length_pos_iff.mp (Nat.zero_lt_of_lt hlt)
    simp only [commitHighlighted]
    have succeeds := e.commit_succeeds index
    have reported := e.commit_report index
    generalize e.commit index = r at reported succeeds ⊢
    cases reported with
    | noCandidate candidate =>
      have hc : e.completer.candidates = s.candidates := by simp [Completer.candidates, hs]
      rw [hc, hx] at candidate
      cases candidate
    | @ended t x reason session candidate query =>
      obtain rfl := Option.some.inj (hs.symm.trans session)
      have gone : ¬InMention e.field s.anchor e.completer.trigger := by
        intro stands
        rw [Completer.queryAt_eq_ok_iff.mpr ⟨stands, rfl⟩] at query
        cases query
      simp only [Report.andThen, List.append_nil]
      exact .ended hs hk some_candidates gone
    | refused session candidate query edit =>
      obtain ⟨done, hd⟩ := succeeds
      cases hd
    | @applied t x q a session candidate query edit =>
      obtain rfl := Option.some.inj (hs.symm.trans session)
      simp only [Report.andThen, List.append_nil]
      exact .committed hs hk hh candidate (Completer.queryAt_eq_ok_iff.mp query).1 edit

theorem key_report (e : Editor Draft) (k : Key)
    (valid : ∀ s, e.completer.session = some s → s.HighlightValid) : KeyReport e k (e.key k) := by
  unfold key
  split
  next hs =>
    refine .ignored ?_
    intro s hs'
    rw [hs] at hs'
    cases hs'
  next s hs =>
    have ignored : (k ≠ .escape ∧ (k.Moves ∨ k.Commits → s.candidates = [])) →
        KeyReport e k ⟨.passThrough, e, []⟩ := by
      intro idle
      refine .ignored ?_
      intro t ht
      obtain rfl := Option.some.inj (hs.symm.trans ht)
      exact idle
    cases k with
    | escape => exact .escaped hs rfl
    | arrowUp =>
      simp only
      split
      next hc => exact ignored ⟨by simp, fun _ => hc⟩
      next hc => exact .moved hs (Or.inl rfl) hc
    | arrowDown =>
      simp only
      split
      next hc => exact ignored ⟨by simp, fun _ => hc⟩
      next hc => exact .moved hs (Or.inr rfl) hc
    | tab => exact commitHighlighted_report hs (valid s hs) (Or.inl rfl)
    | enter => exact commitHighlighted_report hs (valid s hs) (Or.inr rfl)
    | backspace => exact ignored ⟨by simp, by simp [Key.Moves, Key.Commits]⟩
    | other => exact ignored ⟨by simp, by simp [Key.Moves, Key.Commits]⟩

end Editor

end PostEditor
