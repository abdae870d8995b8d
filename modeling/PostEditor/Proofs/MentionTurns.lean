import PostEditor.Proofs.Transcripts

namespace PostEditor

open Completer

/-- What a call that answers `x` makes of a mention that goes on. -/
inductive MentionSession.Onward {β : Type} (s : MentionSession) (a : Call β) (x : Answer) :
    MentionSession → Prop
  | asked {query : Text} {r : Request} (changed : query ≠ s.query) (request : x.request? = some r)
      (asks : r.query = asked query) : Onward s a x { s with query }
  | answered {t : Ticket} {answer : Except Failure (List Candidate)} (request : x.request? = none)
      (taken : a.taken? x = some (t, answer)) : Onward s a x (s.answered answer)
  | highlighted {index : Nat} (request : x.request? = none) (taken : a.taken? x = none)
      (valid : index < s.candidates.length) : Onward s a x { s with highlighted := some index }
  | stayed (request : x.request? = none) (taken : a.taken? x = none) : Onward s a x s

namespace Editor

variable {β : Type}

/-- What a call that answers `x` makes of the mention that is open, or of none. -/
inductive Turn (e : Editor β) (a : Call β) (x : Answer) : Option MentionSession → Prop
  | closed (request : x.request? = none) : Turn e a x none
  | opened {anchor : Nat} {r : Request} (told : (∃ p, a = .openAt p) ∨ e.completer.session = none)
      (request : x.request? = some r) (asks : r.query = none) : Turn e a x (some { anchor })
  | onward {s s' : MentionSession} (session : e.completer.session = some s) (on : s.Onward a x s') :
      Turn e a x (some s')

theorem Turn.unchanged {e : Editor β} {a : Call β} {x : Answer} (request : x.request? = none)
    (taken : a.taken? x = none) : e.Turn a x e.completer.session := by
  cases hs : e.completer.session with
  | none => exact .closed request
  | some s => exact .onward hs (.stayed request taken)

theorem move_highlighted (c : Completer) {s : MentionSession} (hc : s.candidates ≠ []) (down : Bool) :
    ∃ index, index < s.candidates.length ∧
      c.move s down = { c with session := some { s with highlighted := some index } } := by
  have positive : 0 < s.candidates.length := List.length_pos_iff.mpr hc
  cases down with
  | true => exact ⟨_, Nat.mod_lt _ positive, rfl⟩
  | false => exact ⟨_, Nat.mod_lt _ positive, rfl⟩

theorem highlight_turn (e : Editor β) (index : Nat) :
    e.Turn (.highlight index) .done (e.completer.highlight index).session := by
  unfold highlight
  split
  next => exact .unchanged rfl rfl
  next s hs =>
    split
    next valid => exact .onward hs (.highlighted rfl rfl valid)
    next => exact .unchanged rfl rfl

theorem lookupAnswer_turn (e : Editor β) (t : Ticket) (answer : Except Failure (List Candidate)) :
    e.Turn (.lookupAnswer t answer) (.flag (e.completer.applyLookup t answer).result)
      (e.completer.applyLookup t answer).state.session := by
  cases current : e.completer.isCurrent t with
  | false =>
    obtain ⟨result, state⟩ := applyLookup_dropped current answer
    rw [result, state]
    exact .unchanged rfl rfl
  | true =>
    obtain ⟨s, hs, result, state⟩ := applyLookup_of_isCurrent current answer
    rw [result, state]
    exact .onward hs (.answered rfl rfl)

variable [TextField β]

theorem refresh_turn (e : Editor β) {a : Call β} (ha : ∀ x, a.taken? x = none) :
    e.Turn a (.request (e.completer.refresh e.field).result)
      (e.completer.refresh e.field).state.session := by
  cases hs : e.completer.session with
  | none =>
    simp only [refresh, hs]
    exact .closed rfl
  | some s =>
    simp only [refresh, hs]
    split
    next reason _ => exact .closed rfl
    next query _ =>
      split
      next => exact Turn.unchanged rfl (ha _)
      next changed => exact .onward hs (.asked changed rfl rfl)

theorem input_turn (e : Editor β) (kind : InputKind) :
    e.Turn (.input kind) (.request (e.completer.input e.field kind).result)
      (e.completer.input e.field kind).state.session := by
  unfold Completer.input
  split
  next => exact e.refresh_turn fun _ => rfl
  next closed =>
    have hs : e.completer.session = none := by simpa [Completer.isOpen] using closed
    split
    next =>
      split
      next => exact .unchanged rfl rfl
      next => exact .opened (Or.inr hs) rfl rfl
    next => exact .unchanged rfl rfl

theorem toggle_turn (e : Editor β) :
    e.Turn .toggle (.toggled e.toggle.result) e.toggle.state.completer.session := by
  unfold toggle
  split
  next => exact .closed rfl
  next closed =>
    have hs : e.completer.session = none := by simpa [Completer.isOpen] using closed
    split
    next => exact .unchanged rfl rfl
    next => exact .opened (Or.inr hs) rfl rfl

theorem commit_session (e : Editor β) (index : Nat) :
    (e.commit index).state.completer.session = none ∨ (e.commit index).state = e := by
  have reported := e.commit_report index
  generalize e.commit index = r at reported ⊢
  cases reported with
  | noCandidate candidate => exact Or.inr rfl
  | ended session candidate query => exact Or.inl rfl
  | refused session candidate query edit => exact Or.inl rfl
  | applied session candidate query edit => exact Or.inl rfl

theorem commit_turn (e : Editor β) (index : Nat) {a : Call β} {x : Answer} (request : x.request? = none)
    (taken : a.taken? x = none) : e.Turn a x (e.commit index).state.completer.session := by
  rcases e.commit_session index with closed | kept
  · rw [closed]
    exact .closed request
  · rw [kept]
    exact .unchanged request taken

theorem key_turn (e : Editor β) (k : Key) :
    e.Turn (.key k) (.key (e.key k).result) (e.key k).state.completer.session := by
  have unchanged : ∀ outcome, e.Turn (.key k) (.key outcome) e.completer.session :=
    fun outcome => .unchanged rfl rfl
  have commits : ∀ highlighted outcome,
      e.Turn (.key k) (.key outcome) (e.commitHighlighted highlighted).state.completer.session := by
    intro highlighted outcome
    cases highlighted with
    | none => exact unchanged outcome
    | some index =>
      rw [commitHighlighted_state]
      exact e.commit_turn index rfl rfl
  have moves : ∀ s, e.completer.session = some s → s.candidates ≠ [] → ∀ down outcome,
      e.Turn (.key k) (.key outcome) (e.completer.move s down).session := by
    intro s hs hc down outcome
    obtain ⟨index, valid, moved⟩ := move_highlighted e.completer hc down
    rw [moved]
    exact .onward hs (.highlighted rfl rfl valid)
  unfold key
  split
  next => exact unchanged _
  next s hs =>
    cases k with
    | escape => exact .closed rfl
    | arrowUp =>
      simp only
      split
      next => exact unchanged _
      next hc => exact moves s hs hc _ _
    | arrowDown =>
      simp only
      split
      next => exact unchanged _
      next hc => exact moves s hs hc _ _
    | tab => exact commits s.highlighted _
    | enter => exact commits s.highlighted _
    | backspace => exact unchanged _
    | other => exact unchanged _

/-- Every call makes one turn of the mention that is open, or of none. -/
theorem call_turn (e : Editor β) (a : Call β) :
    e.Turn a (e.call a).result (e.call a).state.completer.session := by
  cases a with
  | edit b => exact .unchanged rfl rfl
  | openAt anchor => exact .opened (Or.inl ⟨anchor, rfl⟩) rfl rfl
  | close reason => exact .closed rfl
  | blur => exact .closed rfl
  | toggle => exact e.toggle_turn
  | input kind => exact e.input_turn kind
  | selectionMoved => exact e.refresh_turn fun _ => rfl
  | key k => exact e.key_turn k
  | commit index => exact e.commit_turn index rfl rfl
  | highlight index => exact e.highlight_turn index
  | lookupAnswer t answer => exact e.lookupAnswer_turn t answer

end Editor

end PostEditor
