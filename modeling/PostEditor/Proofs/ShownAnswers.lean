import PostEditor.Proofs.MentionSpans

namespace PostEditor

/-- The candidates that the last of some answers has brought, and none when it was a failure. -/
def lastFound (answers : List (Ticket × Except Failure (List Candidate))) : List Candidate :=
  match answers.getLast? with
  | some (_, .ok found) => found
  | _ => []

/-- The failure that the last of some answers was, in words. -/
def lastFailure? (answers : List (Ticket × Except Failure (List Candidate))) : Option Text :=
  match answers.getLast? with
  | some (_, .error failure) => some failure.message
  | _ => none

namespace MentionSession

structure Shows (s : MentionSession) (answers : List (Ticket × Except Failure (List Candidate))) : Prop where
  candidates : s.candidates = lastFound answers
  error : s.error = lastFailure? answers

structure HighlightValid (s : MentionSession) : Prop where
  none_iff : s.highlighted = none ↔ s.candidates = []
  lt_length : ∀ index, s.highlighted = some index → index < s.candidates.length

theorem answered_shows (s : MentionSession) (answers : List (Ticket × Except Failure (List Candidate)))
    (t : Ticket) (answer : Except Failure (List Candidate)) :
    (s.answered answer).Shows (answers ++ [(t, answer)]) := by
  cases answer with
  | ok found => exact ⟨by simp [answered, lastFound], by simp [answered, lastFailure?]⟩
  | error failure => exact ⟨by simp [answered, lastFound], by simp [answered, lastFailure?]⟩

theorem answered_highlightValid (s : MentionSession) (answer : Except Failure (List Candidate)) :
    (s.answered answer).HighlightValid := by
  cases answer with
  | error failure => exact ⟨by simp [answered], by simp [answered]⟩
  | ok found =>
    by_cases hf : found = []
    · exact ⟨by simp [answered, hf], by simp [answered, hf]⟩
    · have positive : 0 < found.length := List.length_pos_iff.mpr hf
      refine ⟨by simp [answered, hf], ?_⟩
      intro index hi
      have first : 0 = index := by simpa [answered, hf] using hi
      rw [← first]
      exact positive

variable {β : Type} {s s' : MentionSession} {a : Call β} {x : Answer}

theorem Onward.shows (h : s.Onward a x s') {answers : List (Ticket × Except Failure (List Candidate))}
    (hs : s.Shows answers) : s'.Shows (answers ++ (a.taken? x).toList) := by
  cases h with
  | asked changed request asks =>
    rw [Call.taken?_of_request request, Option.toList_none, List.append_nil]
    exact ⟨hs.candidates, hs.error⟩
  | answered request taken =>
    rw [taken]
    exact s.answered_shows answers _ _
  | highlighted request taken valid =>
    rw [taken, Option.toList_none, List.append_nil]
    exact ⟨hs.candidates, hs.error⟩
  | stayed request taken =>
    rw [taken, Option.toList_none, List.append_nil]
    exact hs

theorem Onward.highlightValid (h : s.Onward a x s') (hs : s.HighlightValid) : s'.HighlightValid := by
  cases h with
  | asked changed request asks => exact ⟨hs.none_iff, hs.lt_length⟩
  | answered request taken => exact s.answered_highlightValid _
  | @highlighted index request taken valid =>
    have some_candidates : s.candidates ≠ [] := List.length_pos_iff.mp (Nat.zero_lt_of_lt valid)
    refine ⟨by simp [some_candidates], ?_⟩
    intro i hi
    obtain rfl := Option.some.inj hi
    exact valid
  | stayed request taken => exact hs

end MentionSession

namespace Editor

variable {β : Type} [TextField β]

theorem Spans.shows {e : Editor β} {opening : Call β} {later : List (Call β)} (h : e.Spans opening later)
    {s : MentionSession} (hs : (e.after (opening :: later)).completer.session = some s) :
    s.Shows (e.taken (opening :: later)) := by
  refine h.induction (P := fun p s => s.Shows (takenAnswers p)) ?_ ?_ hs
  · intro a q anchor r request asks
    have none_taken : takenAnswers [(a, q)] = [] := by
      simp [takenAnswers, Call.taken?_of_request request]
    rw [none_taken]
    exact ⟨rfl, rfl⟩
  · intro p s a q s' shows on
    rw [takenAnswers_append_singleton]
    exact on.shows shows

theorem after_highlightValid {e : Editor β} (closed : e.completer.session = none) {calls : List (Call β)}
    {s : MentionSession} (hs : (e.after calls).completer.session = some s) : s.HighlightValid :=
  after_session_induction (P := MentionSession.HighlightValid)
    (fun anchor => ⟨by simp, by simp⟩) (fun hp on => on.highlightValid hp) closed hs

/-- A popup is empty while no mention is open, and otherwise shows the candidates or the failure of the last answer
taken since it was opened, with one highlighted exactly if there are any. -/
theorem popup_shows_last_answer (trigger : Char) (b : β) (calls : List (Call β)) :
    let e : Editor β := ⟨{ trigger }, b⟩
    let c := (e.after calls).completer
    (c.isOpen = false → c.popup = {}) ∧
      (c.isOpen = true →
        (∃ earlier opening later, calls = earlier ++ opening :: later ∧
          (e.after earlier).Spans opening later) ∧
        (∀ earlier opening later, calls = earlier ++ opening :: later →
          (e.after earlier).Spans opening later →
            c.popup.candidates = lastFound ((e.after earlier).taken (opening :: later)) ∧
              c.popup.error = lastFailure? ((e.after earlier).taken (opening :: later))) ∧
        c.popup.isOpen = true ∧
        (c.popup.highlighted = none ↔ c.popup.candidates = []) ∧
        ∀ index, c.popup.highlighted = some index → index < c.popup.candidates.length) := by
  intro e c
  have start : e.completer.session = none := rfl
  refine ⟨?_, ?_⟩
  · intro closed
    have hs : c.session = none := by simpa [Completer.isOpen] using closed
    simp only [Completer.popup, hs]
  · intro opened
    obtain ⟨s, hs⟩ := Option.isSome_iff_exists.mp opened
    have popup : c.popup = ⟨true, s.candidates, s.highlighted, s.error⟩ := by
      simp only [Completer.popup, hs]
    have valid := after_highlightValid start hs
    rw [popup]
    refine ⟨exists_spans start hs, ?_, rfl, valid.none_iff, valid.lt_length⟩
    intro earlier opening later hc spans
    have still : ((e.after earlier).after (opening :: later)).completer.session = some s := by
      rw [← after_append, ← hc]
      exact hs
    have shows := spans.shows still
    exact ⟨shows.candidates, shows.error⟩

example :
    let e : Editor Draft := ⟨{}, .ofText ['@']⟩
    let calls : List (Call Draft) :=
      [.input .insert, .lookupAnswer ⟨1⟩ (.ok [⟨['a'], ['a']⟩]), .edit (.ofText ['@', 'é']), .input .insert,
        .lookupAnswer ⟨2⟩ (.error (.settings ['x'])), .lookupAnswer ⟨1⟩ (.ok [⟨['b'], ['b']⟩])]
    (e.after calls).completer.popup = ⟨true, [], none, some (Failure.settings ['x']).message⟩ ∧
      (e.after (calls ++ [.openAt 1])).completer.popup = ⟨true, [], none, none⟩ := by decide

end Editor

end PostEditor
