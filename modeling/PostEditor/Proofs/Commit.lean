import PostEditor.Proofs.DraftEdits

namespace PostEditor

namespace Editor

section

variable {β : Type} [TextField β]

/-- All that a commit can report: it finds no candidate, finds that the mention has ended, is refused by the field, or
is carried out. -/
inductive CommitReport (e : Editor β) (index : Nat) : Report (Editor β) (Except EditError Bool) → Prop
  | noCandidate (candidate : e.completer.candidates[index]? = none) : CommitReport e index ⟨.ok false, e, []⟩
  | ended {s : MentionSession} {x : Candidate} {reason : CloseReason}
      (session : e.completer.session = some s) (candidate : s.candidates[index]? = some x)
      (query : e.completer.queryAt s.anchor e.field = .error reason) :
      CommitReport e index ⟨.ok false, { e with completer := (e.completer.close reason).state },
        (e.completer.close reason).log⟩
  | refused {s : MentionSession} {x : Candidate} {q : Text} {error : EditError}
      (session : e.completer.session = some s) (candidate : s.candidates[index]? = some x)
      (query : e.completer.queryAt s.anchor e.field = .ok q)
      (edit : TextField.apply e.field ⟨⟨s.anchor, (TextField.selection e.field).stop, x.shown⟩,
        .cursor (s.anchor + x.shown.bytes), "mention-commit".toList⟩ = .error error) :
      CommitReport e index ⟨.error error, { e with completer := (e.completer.close .committed).state },
        (e.completer.close .committed).log⟩
  | applied {s : MentionSession} {x : Candidate} {q : Text} {a : Applied β}
      (session : e.completer.session = some s) (candidate : s.candidates[index]? = some x)
      (query : e.completer.queryAt s.anchor e.field = .ok q)
      (edit : TextField.apply e.field ⟨⟨s.anchor, (TextField.selection e.field).stop, x.shown⟩,
        .cursor (s.anchor + x.shown.bytes), "mention-commit".toList⟩ = .ok a) :
      CommitReport e index ⟨.ok true, ⟨(e.completer.close .committed).state, a.field⟩,
        (e.completer.close .committed).log ++ [a.event]⟩

theorem commit_report (e : Editor β) (index : Nat) : CommitReport e index (e.commit index) := by
  unfold commit
  split
  next hs => exact .noCandidate (by simp [Completer.candidates, hs])
  next s hs =>
    split
    next hx => exact .noCandidate (by simpa [Completer.candidates, hs] using hx)
    next x hx =>
      split
      next reason hq => exact .ended hs hx hq
      next q hq =>
        simp only
        split
        next error ha => exact .refused hs hx hq ha
        next a ha => exact .applied hs hx hq ha

end

variable {e : Editor Draft} {index : Nat} {s : MentionSession} {x : Candidate}

theorem commit_of_inMention (hs : e.completer.session = some s) (hx : s.candidates[index]? = some x)
    (h : InMention e.field s.anchor e.completer.trigger) :
    (e.commit index).result = .ok true ∧
      (e.commit index).state.completer = (e.completer.close .committed).state ∧
      (e.commit index).state.field =
        ⟨e.field.text.before s.anchor ++ x.shown ++ e.field.text.after e.field.selection.stop,
          .cursor (s.anchor + x.shown.bytes)⟩ := by
  have hq := Completer.queryAt_eq_ok_iff.mpr ⟨h, rfl⟩
  obtain ⟨a, ha, hf⟩ :=
    e.field.apply_caret_of_fits ⟨s.anchor, (TextField.selection e.field).stop, x.shown⟩
      h.anchor_le_stop h.anchor_isBoundary h.stop_isBoundary "mention-commit".toList
  simp only [commit, hs, hx, hq, ha]
  exact ⟨trivial, trivial, hf⟩

/-- The candidate of this index can be put in place of the query of the open mention. -/
def Committable (e : Editor Draft) (index : Nat) (s : MentionSession) (x : Candidate) : Prop :=
  e.completer.session = some s ∧ s.candidates[index]? = some x ∧
    InMention e.field s.anchor e.completer.trigger

theorem Committable.unique {t : MentionSession} {y : Candidate} (hx : Committable e index s x)
    (hy : Committable e index t y) : s = t ∧ x = y := by
  obtain rfl := Option.some.inj (hx.1.symm.trans hy.1)
  exact ⟨rfl, Option.some.inj (hx.2.1.symm.trans hy.2.1)⟩

theorem commit_of_not_committable (h : ∀ s x, ¬Committable e index s x) :
    (e.commit index).result = .ok false ∧ (e.commit index).state.field = e.field ∧
      (e.completer.candidates[index]? = none → (e.commit index).state.completer = e.completer) ∧
      (e.completer.candidates[index]?.isSome →
        (e.commit index).state.completer.session = none ∧
          (e.commit index).state.completer.tickets.current = none) := by
  have reported := e.commit_report index
  generalize e.commit index = r at reported ⊢
  cases reported with
  | noCandidate candidate => simp [candidate]
  | ended session candidate query =>
    simp [Completer.candidates, session, candidate, Tickets.cancel]
  | refused session candidate query edit =>
    exact absurd ⟨session, candidate, (Completer.queryAt_eq_ok_iff.mp query).1⟩ (h _ _)
  | applied session candidate query edit =>
    exact absurd ⟨session, candidate, (Completer.queryAt_eq_ok_iff.mp query).1⟩ (h _ _)

theorem commit_succeeds (e : Editor Draft) (index : Nat) : ∃ done, (e.commit index).result = .ok done := by
  by_cases h : ∃ s x, Committable e index s x
  · obtain ⟨s, x, hs, hx, hm⟩ := h
    exact ⟨true, (commit_of_inMention hs hx hm).1⟩
  · exact ⟨false, (commit_of_not_committable fun s x hc => h ⟨s, x, hc⟩).1⟩

/-- Committing never fails. It puts the candidate in place of the query exactly if the mention has one of that index and
still stands; else the draft stays, and so does the completer unless it had to close. -/
theorem commit_replaces_query_or_nothing (e : Editor Draft) (index : Nat) :
    (∃ done, (e.commit index).result = .ok done) ∧
      ((e.commit index).result = .ok true ↔ ∃ s x, Committable e index s x) ∧
      (∀ s x, Committable e index s x →
        (e.commit index).state.field.text =
            e.field.text.before s.anchor ++ x.shown ++ e.field.text.after e.field.selection.stop ∧
          (e.commit index).state.field.selection = .cursor (s.anchor + x.shown.bytes) ∧
          (e.commit index).state.completer.session = none ∧
          (e.commit index).state.completer.tickets.current = none) ∧
      ((¬∃ s x, Committable e index s x) →
        (e.commit index).result = .ok false ∧ (e.commit index).state.field = e.field ∧
          (e.completer.isOpen = false ∨ e.completer.candidates.length ≤ index →
            (e.commit index).state.completer = e.completer) ∧
          (e.completer.isOpen = true → index < e.completer.candidates.length →
            (e.commit index).state.completer.session = none ∧
              (e.commit index).state.completer.tickets.current = none)) := by
  by_cases hc : ∃ s x, Committable e index s x
  · obtain ⟨s, x, hc⟩ := hc
    obtain ⟨result, completer, field⟩ := commit_of_inMention hc.1 hc.2.1 hc.2.2
    refine ⟨⟨true, result⟩, ⟨fun _ => ⟨s, x, hc⟩, fun _ => result⟩, ?_, fun hn => absurd ⟨s, x, hc⟩ hn⟩
    intro t y hy
    obtain ⟨rfl, rfl⟩ := hc.unique hy
    rw [field, completer]
    exact ⟨rfl, rfl, rfl, rfl⟩
  · obtain ⟨result, field, kept, closed⟩ := commit_of_not_committable (fun s x h => hc ⟨s, x, h⟩)
    refine ⟨⟨false, result⟩, ?_, fun s x h => absurd ⟨s, x, h⟩ hc, ?_⟩
    · rw [result]
      exact ⟨fun h => (by cases h), fun h => absurd h hc⟩
    · intro _
      refine ⟨result, field, ?_, ?_⟩
      · intro h
        apply kept
        rcases h with ho | hi
        · have hs : e.completer.session = none := by simpa [Completer.isOpen] using ho
          simp [Completer.candidates, hs]
        · exact List.getElem?_eq_none hi
      · intro _ hi
        apply closed
        simp [hi]

end Editor

end PostEditor
