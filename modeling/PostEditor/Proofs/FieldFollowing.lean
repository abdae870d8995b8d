import PostEditor.Proofs.Commit
import PostEditor.Proofs.LastRequest

namespace PostEditor

namespace Call

variable {β : Type}

/-- The call makes the completer look at the field. -/
def looks : Call β → Bool
  | .input _ | .selectionMoved | .toggle => true
  | _ => false

/-- The call neither looks at the field nor, while the mention stays open, touches it. -/
def rests : Call β → Bool
  | .lookupAnswer _ _ | .highlight _ | .key _ => true
  | _ => false

end Call

theorem Selection.eq_cursor_of_isCursor {s : Selection} (h : s.isCursor = true) : s = .cursor s.stop := by
  obtain ⟨start, stop⟩ := s
  have h : start = stop := by simpa [isCursor] using h
  rw [h]
  rfl

theorem inMention_of_cursor {β : Type} [TextField β] {b : β} {p : Nat} {trigger : Char}
    (hs : TextField.selection b = .cursor p) (hp : (TextField.text b).IsBoundary p)
    (ht : ((TextField.text b).before p).getLast? = some trigger) :
    InMention b p trigger ∧ (TextField.text b).slice p (TextField.selection b).stop = [] := by
  have hslice : (TextField.text b).slice p (TextField.selection b).stop = [] := by
    rw [hs]
    exact Text.slice_self_of_isBoundary hp
  refine ⟨⟨?_, ?_, ?_, hp, ?_, ht, ?_⟩, hslice⟩
  · rw [hs]
    exact Nat.le_refl p
  · rw [hs]
    exact Nat.le_refl p
  · rw [hs]
    exact hp.le_bytes
  · rw [hs]
    exact hp
  · simp [hslice]

namespace Completer

variable {β : Type} [TextField β]

/-- An open mention is one in which the selection of the field stands, with the query found there. -/
def Follows (c : Completer) (b : β) : Prop :=
  ∀ s, c.session = some s → InMention b s.anchor c.trigger ∧
    s.query = (TextField.text b).slice s.anchor (TextField.selection b).stop

theorem follows_of_closed {c : Completer} (h : c.session = none) (b : β) : c.Follows b := by
  intro s hs
  rw [h] at hs
  cases hs

theorem openAt_follows (c : Completer) {b : β} {p : Nat} (hs : TextField.selection b = .cursor p)
    (hp : (TextField.text b).IsBoundary p)
    (ht : ((TextField.text b).before p).getLast? = some c.trigger) : (c.openAt p).state.Follows b := by
  obtain ⟨hm, hslice⟩ := inMention_of_cursor hs hp ht
  intro s hs
  cases hs
  exact ⟨hm, hslice.symm⟩

theorem refresh_follows (c : Completer) (b : β) : (c.refresh b).state.Follows b := by
  unfold refresh
  split
  next hs => exact follows_of_closed hs b
  next s hs =>
    split
    next reason _ => exact follows_of_closed rfl b
    next query hq =>
      obtain ⟨hm, hslice⟩ := queryAt_eq_ok_iff.mp hq
      split
      next same =>
        intro t ht
        obtain rfl := Option.some.inj (hs.symm.trans ht)
        exact ⟨hm, same.symm.trans hslice.symm⟩
      next =>
        intro t ht
        cases ht
        exact ⟨hm, hslice.symm⟩

theorem input_follows (c : Completer) (b : β) (kind : InputKind) : (c.input b kind).state.Follows b := by
  unfold input
  split
  next => exact c.refresh_follows b
  next ho =>
    have hs : c.session = none := by simpa [isOpen] using ho
    split
    next hk =>
      split
      next => exact follows_of_closed hs b
      next anchor ha =>
        obtain ⟨rfl, hp, ht⟩ := Mention.typedTrigger?_eq_some_iff.mp ha
        exact c.openAt_follows (Selection.eq_cursor_of_isCursor hk.2) hp ht
    next => exact follows_of_closed hs b

theorem Step.follows {c c' : Completer} {b : β} (h : Step c none c') (hc : c.Follows b) :
    c'.Follows b := by
  cases h with
  | closed => exact follows_of_closed rfl b
  | @shown s shown session anchor query =>
    intro t ht
    cases ht
    obtain ⟨hm, hq⟩ := hc s session
    rw [anchor, query]
    exact ⟨hm, hq⟩
  | stayed => exact hc

end Completer

namespace Editor

open Completer

section

variable {β : Type} [TextField β]

theorem Quiet.follows {e e' : Editor β} (h : Quiet e e') (hf : e.completer.Follows e.field) :
    e'.completer.Follows e'.field := by
  obtain ⟨step, kept | closed⟩ := h
  · rw [kept]
    exact step.follows hf
  · exact follows_of_closed closed _

theorem call_follows_of_rests {e : Editor β} {a : Call β} (ha : a.rests = true)
    (h : e.completer.Follows e.field) :
    (e.call a).state.completer.Follows (e.call a).state.field := by
  have step := e.call_step a
  cases a with
  | lookupAnswer t answer => exact step.follows h
  | highlight index => exact step.follows h
  | key k => exact (e.key_quiet k).follows h
  | _ => cases ha

theorem after_follows_of_rests {e : Editor β} {calls : List (Call β)}
    (hr : ∀ a ∈ calls, a.rests = true) (h : e.completer.Follows e.field) :
    (e.after calls).completer.Follows (e.after calls).field := by
  induction calls generalizing e with
  | nil => exact h
  | cons a rest ih =>
    exact ih (fun b hb => hr b (List.mem_cons_of_mem a hb)) (call_follows_of_rests (hr a (by simp)) h)

end

theorem toggle_of_open {e : Editor Draft} (ho : e.completer.isOpen = true) :
    e.toggle.result = .ok none ∧ e.toggle.state = ⟨(e.completer.close .cancelled).state, e.field⟩ := by
  simp only [toggle, ho]
  exact ⟨rfl, rfl⟩

theorem toggle_of_closed {e : Editor Draft} (ho : e.completer.isOpen = false) :
    let s := TextField.clamped e.field
    let caret := s.start + Text.bytes [e.completer.trigger]
    e.toggle.result = .ok (some (e.completer.openAt caret).result) ∧
      e.toggle.state = ⟨(e.completer.openAt caret).state,
        ⟨e.field.text.splice s.start s.stop [e.completer.trigger], .cursor caret⟩⟩ := by
  intro s caret
  obtain ⟨a, ha, hf⟩ := e.field.replaceSelection_afterInsert [e.completer.trigger]
    "mention-trigger".toList
  simp only [toggle, ho, ha, hf]
  exact ⟨rfl, rfl⟩

theorem toggle_succeeds (e : Editor Draft) : ∃ request, e.toggle.result = .ok request := by
  cases ho : e.completer.isOpen with
  | true => exact ⟨none, (toggle_of_open ho).1⟩
  | false => exact ⟨_, (toggle_of_closed ho).1⟩

theorem toggle_follows (e : Editor Draft) : e.toggle.state.completer.Follows e.toggle.state.field := by
  cases ho : e.completer.isOpen with
  | true =>
    rw [(toggle_of_open ho).2]
    exact follows_of_closed rfl e.field
  | false =>
    obtain ⟨_, hs, _⟩ := e.field.clamped_valid
    have hb := Text.before_splice hs (TextField.clamped e.field).stop [e.completer.trigger]
    rw [(toggle_of_closed ho).2]
    apply e.completer.openAt_follows rfl
    · exact Text.isBoundary_splice hs _ _
    · exact (congrArg List.getLast? hb).trans (by simp)

theorem call_follows_of_looks {e : Editor Draft} {a : Call Draft} (ha : a.looks = true) :
    (e.call a).state.completer.Follows (e.call a).state.field := by
  cases a with
  | input kind => exact e.completer.input_follows e.field kind
  | selectionMoved => exact e.completer.refresh_follows e.field
  | toggle => exact e.toggle_follows
  | _ => cases ha

end Editor

end PostEditor
