import PostEditor.Proofs.PageMoves

namespace PostEditor

namespace Page

theorem settleField_advances (r : Except EditError (Applied TextArea)) (p : Page) :
    Advances p ((settleField r).run p).2 := by
  cases r with
  | error error => exact .refl p
  | ok applied =>
    have hq := report_quiet [applied.event] { p with area := applied.field }
    have edited : Advances p { p with area := applied.field } := .of_edit (.refl _)
    exact edited.trans hq.advances

theorem refresh_advances (p : Page) : Advances p (refresh.run p).2 :=
  .of_call .selectionMoved (settle_quiet (p.dispatch.completer.selectionMoved p.area) p)

theorem input_advances (kind : InputKind) (p : Page) : Advances p ((input kind).run p).2 :=
  .of_call (.input kind) (settle_quiet (p.dispatch.completer.input p.area kind) p)

/-- A key is one call of the completer, or nothing while no mention is open. -/
theorem keyDown_advances (name : Text) (p : Page) : Advances p ((keyDown name).run p).2 := by
  have taken : Advances p ((settleEditor (p.editor.key (.ofName name))).run p).2 :=
    .of_call (.key (.ofName name)) (settleEditor_quiet _ p)
  unfold keyDown
  rw [run_bind]
  split
  next => exact taken
  next => exact .refl p

theorem press_advances (name : Text) (edit : TextArea → TextArea) (kind : InputKind) (p : Page) :
    Advances p ((press name edit kind).run p).2 := by
  have down := keyDown_advances name p
  have typed : ∀ q : Page,
      Advances q (refresh.run ((input kind).run { q with area := edit q.area }).2).2 := by
    intro q
    have edited : Advances q { q with area := edit q.area } := .of_edit (.refl _)
    exact (edited.trans (input_advances kind _)).trans (refresh_advances _)
  unfold press
  rw [run_bind]
  split
  next => exact down.trans (typed _)
  next => exact down.trans (refresh_advances _)

theorem typeText_advances (t : Text) (p : Page) : Advances p ((typeText t).run p).2 := by
  unfold typeText
  induction t generalizing p with
  | nil => exact .refl p
  | cons c t ih =>
    rw [List.mapM_cons]
    exact (press_advances [c] (·.typeChar c) .insert p).trans (ih _)

theorem toggleMention_advances (p : Page) : Advances p (toggleMention.run p).2 := by
  have called : Advances p ((wait (Answer.toggled p.editor.toggle.result).request?).run
      ((settleEditor p.editor.toggle).run p).2).2 := .of_call .toggle (settleEditor_quiet p.editor.toggle p)
  unfold toggleMention
  rw [run_bind, run_bind]
  split
  next request hr =>
    have hr : p.editor.toggle.result = .ok request := hr
    rw [hr] at called
    exact called
  next error hr =>
    have hr : p.editor.toggle.result = .error error := hr
    rw [hr] at called
    exact called

theorem format_advances (markup : Markup) (p : Page) : Advances p ((format markup).run p).2 :=
  (settleField_advances (markup.apply p.area) p).trans (refresh_advances _)

theorem close_advances (reason : CloseReason) (p : Page) :
    Advances p ((settle (p.dispatch.completer.close reason)).run p).2 :=
  .of_call (.close reason) (settle_quiet _ p)

theorem hover_advances (index : Nat) (p : Page) : Advances p ((hover index).run p).2 :=
  .of_call (.highlight index) (settle_quiet ⟨(), p.dispatch.completer.highlight index, []⟩ p)

theorem pick_advances (index : Nat) (p : Page) : Advances p ((pick index).run p).2 := by
  have called : Advances p ((settleEditor (p.editor.commit index)).run p).2 :=
    .of_call (.commit index) (settleEditor_quiet _ p)
  unfold pick
  rw [run_bind, run_bind]
  split
  next => exact called
  next error _ =>
    have rejected := report_quiet [.commitRejected error] ((settleEditor (p.editor.commit index)).run p).2
    exact (called.trans rejected.advances).trans (close_advances .anchorOutOfRange _)

theorem prefill_advances (detail : ScriptValue) (p : Page) : Advances p ((prefill detail).run p).2 := by
  unfold prefill
  split
  next => exact (report_quiet [.prefillIgnored (p.wording.prefill detail)] p).advances
  next wanted _ =>
    have closed := close_advances .replaced p
    have filled := closed.trans (settleField_advances
      (TextField.prefill ((settle (p.dispatch.completer.close .replaced)).run p).2.area wanted.text) _)
    exact filled.trans (.of_unseen rfl rfl rfl)

end Page

end PostEditor
