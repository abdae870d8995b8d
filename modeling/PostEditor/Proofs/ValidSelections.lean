import PostEditor.Proofs.FieldFollowing

namespace PostEditor

namespace Action

def storesBlindly : Action → Bool
  | .storeSelection _ => true
  | _ => false

/-- The action, with this answer, has put a selection into the draft that it leaves. -/
def places : Action → Answer → Bool
  | .typeText t, _ => t != []
  | .backspace, _ | .input _ _ _, _ | .takeInput _ _, _ => true
  | .select _, _ | .setSelection _, _ | .selectRange _ _, _ => true
  | .apply _, .outcome (.ok _) => true
  | .replaceSelection _ _ _, _ | .format _, _ | .prefill _, _ | .appendMediaLink _, _ => true
  | .toggle, .toggled (.ok (some _)) => true
  | .commit _, .committed (.ok true) => true
  | _, _ => false

end Action

namespace Editor

variable {e : Editor Draft}

theorem typeText_valid {t : Text} (h : t ≠ [] ∨ e.field.Valid) : (e.typeText t).state.field.Valid := by
  induction t generalizing e with
  | nil =>
    have hd : e.field.Valid := h.resolve_left (by simp)
    exact hd
  | cons c t ih =>
    have typed : (e.edited (e.field.typeChar c) .insert).state.field.Valid := Draft.typeChar_valid e.field c
    exact ih (Or.inr typed)

theorem withApplied_valid {tr : Transaction} (h : ∃ a, TextField.apply e.field tr = .ok a) :
    (e.withApplied (TextField.apply e.field tr)).state.field.Valid := by
  obtain ⟨a, ha⟩ := h
  rw [ha]
  exact Draft.apply_valid ha

theorem withApplied_of_error {r : Except EditError (Applied Draft)} {error : EditError}
    (h : (e.withApplied r).result = .outcome (.error error)) :
    (e.withApplied r).state = e ∧ (e.withApplied r).log = [] := by
  cases r with
  | error reason => exact ⟨rfl, rfl⟩
  | ok a =>
    have h : Answer.outcome (.ok a.outcome) = .outcome (.error error) := h
    cases h

theorem withApplied_valid_or_kept (e : Editor Draft) (tr : Transaction) :
    (e.withApplied (TextField.apply e.field tr)).state.field.Valid ∨
      (e.withApplied (TextField.apply e.field tr)).state.field = e.field := by
  cases hr : TextField.apply e.field tr with
  | error reason => exact Or.inr rfl
  | ok a => exact Or.inl (Draft.apply_valid hr)

theorem toggle_valid_of_closed (ho : e.completer.isOpen = false) : e.toggle.state.field.Valid := by
  obtain ⟨_, hs, _⟩ := e.field.clamped_valid
  rw [(toggle_of_closed ho).2]
  exact Selection.cursor_valid (Text.isBoundary_splice hs _ _)

theorem toggle_valid_of_request {request : Request} (h : e.toggle.result = .ok (some request)) :
    e.toggle.state.field.Valid := by
  cases ho : e.completer.isOpen with
  | true =>
    rw [(toggle_of_open ho).1] at h
    cases h
  | false => exact toggle_valid_of_closed ho

theorem toggle_valid_or_kept (e : Editor Draft) :
    e.toggle.state.field.Valid ∨ e.toggle.state.field = e.field := by
  cases ho : e.completer.isOpen with
  | true =>
    rw [(toggle_of_open ho).2]
    exact Or.inr rfl
  | false => exact Or.inl (toggle_valid_of_closed ho)

theorem commit_valid_of_done {index : Nat} (h : (e.commit index).result = .ok true) :
    (e.commit index).state.field.Valid := by
  have reported := e.commit_report index
  generalize e.commit index = r at reported h ⊢
  cases reported with
  | noCandidate candidate => cases h
  | ended session candidate query => cases h
  | refused session candidate query edit => cases h
  | applied session candidate query edit => exact Draft.apply_valid edit

theorem commit_valid_or_kept (e : Editor Draft) (index : Nat) :
    (e.commit index).state.field.Valid ∨ (e.commit index).state.field = e.field := by
  have reported := e.commit_report index
  generalize e.commit index = r at reported ⊢
  cases reported with
  | noCandidate candidate => exact Or.inr rfl
  | ended session candidate query => exact Or.inr rfl
  | refused session candidate query edit => exact Or.inr rfl
  | applied session candidate query edit => exact Or.inl (Draft.apply_valid edit)

theorem key_valid_or_kept (e : Editor Draft) (k : Key) :
    (e.key k).state.field.Valid ∨ (e.key k).state.field = e.field := by
  rcases e.key_keeps_or_commits k with kept | ⟨index, committed⟩
  · exact Or.inr kept
  · rw [committed]
    exact e.commit_valid_or_kept index

theorem perform_valid_of_places {a : Action} (h : a.places (e.perform a).result = true) :
    (e.perform a).state.field.Valid := by
  cases a with
  | typeText t =>
    have ht : t ≠ [] := by simpa [Action.places] using h
    exact typeText_valid (Or.inl ht)
  | backspace => exact e.field.backspace_valid
  | input t s kind => exact Draft.takeInput_valid t s
  | select s => exact e.field.setSelection_valid s
  | setSelection s => exact e.field.setSelection_valid s
  | selectRange start stop => exact e.field.setSelection_valid _
  | takeInput t s => exact Draft.takeInput_valid t s
  | apply tr =>
    have succeeds : ∃ a, TextField.apply e.field tr = .ok a := by
      cases hr : TextField.apply e.field tr with
      | ok a => exact ⟨a, rfl⟩
      | error reason =>
        simp only [perform, hr] at h
        cases h
    exact withApplied_valid succeeds
  | replaceSelection insert policy label =>
    exact withApplied_valid (e.field.replaceSelection_succeeds insert policy label)
  | prefill t => exact withApplied_valid (e.field.prefill_succeeds t)
  | appendMediaLink path => exact withApplied_valid (e.field.appendMediaLink_succeeds path)
  | format markup =>
    cases markup with
    | marks mark label => exact withApplied_valid (e.field.surround_succeeds mark label)
    | template snippet label =>
      exact withApplied_valid (e.field.replaceSelection_succeeds snippet .insideTrailingParen label)
  | toggle =>
    have h : Action.toggle.places (.toggled e.toggle.result) = true := h
    show e.toggle.state.field.Valid
    cases hr : e.toggle.result with
    | error reason => rw [hr] at h; cases h
    | ok request =>
      cases request with
      | none => rw [hr] at h; cases h
      | some request => exact toggle_valid_of_request hr
  | commit index =>
    have h : (Action.commit index).places (.committed (e.commit index).result) = true := h
    show (e.commit index).state.field.Valid
    cases hr : (e.commit index).result with
    | error reason => rw [hr] at h; cases h
    | ok done =>
      cases done with
      | false => rw [hr] at h; cases h
      | true => exact commit_valid_of_done hr
  | _ => cases h

/-- An action that looks at the text puts a valid selection into the draft, or leaves the draft as it is. -/
theorem perform_valid_or_kept {a : Action} (ha : a.storesBlindly = false) :
    (e.perform a).state.field.Valid ∨ (e.perform a).state.field = e.field := by
  cases a with
  | typeText t =>
    by_cases ht : t = []
    · rw [ht]
      exact Or.inr rfl
    · exact Or.inl (typeText_valid (Or.inl ht))
  | storeSelection s => cases ha
  | apply tr => exact e.withApplied_valid_or_kept tr
  | backspace | input _ _ _ | takeInput _ _ | select _ | setSelection _ | selectRange _ _
  | replaceSelection _ _ _ | format _ | prefill _ | appendMediaLink _ =>
    exact Or.inl (perform_valid_of_places rfl)
  | key k => exact e.key_valid_or_kept k
  | commit index => exact e.commit_valid_or_kept index
  | toggle => exact e.toggle_valid_or_kept
  | _ => exact Or.inr rfl

theorem perform_valid {a : Action} (ha : a.storesBlindly = false) (h : e.field.Valid) :
    (e.perform a).state.field.Valid := by
  rcases perform_valid_or_kept (e := e) ha with valid | kept
  · exact valid
  · rw [kept]
    exact h

theorem run_valid {actions : List Action} (ha : ∀ a ∈ actions, a.storesBlindly = false) (h : e.field.Valid) :
    ∀ r ∈ e.run actions, r.state.field.Valid := by
  induction actions generalizing e with
  | nil => simp [run]
  | cons a rest ih =>
    have first : (e.perform a).state.field.Valid := perform_valid (ha a (by simp)) h
    intro r hr
    rcases List.mem_cons.mp hr with rfl | hr
    · exact first
    · exact ih (fun b hb => ha b (List.mem_cons_of_mem a hb)) first r hr

/-- Every action that looks at the text leaves a valid selection whatever was selected before, and a run without blindly
stored selections keeps it so; a transaction that fails changes nothing. -/
theorem edits_leave_valid_selections (e : Editor Draft) :
    (∀ d : Draft, d.Valid → d.selection.start ≤ d.selection.stop ∧ d.selection.stop ≤ d.text.bytes ∧
        d.text.IsBoundary d.selection.start ∧ d.text.IsBoundary d.selection.stop) ∧
      (∀ t, (Draft.ofText t).Valid) ∧
      (∀ a, a.places (e.perform a).result = true → (e.perform a).state.field.Valid) ∧
      (∀ actions, (∀ a ∈ actions, a.storesBlindly = false) → e.field.Valid →
        ∀ r ∈ e.run actions, r.state.field.Valid) ∧
      (∀ a rest, (∀ b ∈ rest, b.storesBlindly = false) → a.places (e.perform a).result = true →
        ∀ r ∈ e.run (a :: rest), r.state.field.Valid) ∧
      ∀ tr error, (e.perform (.apply tr)).result = .outcome (.error error) →
        (e.perform (.apply tr)).state = e ∧ (e.perform (.apply tr)).log = [] := by
  refine ⟨?_, Draft.ofText_valid, fun a => perform_valid_of_places, fun actions => run_valid, ?_, ?_⟩
  · intro d h
    obtain ⟨hle, hstart, hstop⟩ := h
    exact ⟨hle, hstop.le_bytes, hstart, hstop⟩
  · intro a rest hrest placed r hr
    have first : (e.perform a).state.field.Valid := perform_valid_of_places placed
    rcases List.mem_cons.mp hr with rfl | hr
    · exact first
    · exact run_valid hrest first r hr
  · intro tr error failed
    exact withApplied_of_error failed

example :
    let e : Editor Draft := ⟨{}, ⟨['a', 'é'], ⟨7, 2⟩⟩⟩
    (e.perform (.apply ⟨⟨0, 1, []⟩, ⟨1, 9⟩, []⟩)).state.field = ⟨['é'], ⟨0, 2⟩⟩ := by decide

end Editor

end PostEditor
