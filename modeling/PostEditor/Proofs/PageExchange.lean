import PostEditor.Proofs.RequestHandlers

namespace PostEditor

namespace Page

theorem withItem_advances {act : PageM Unit} {p : Page} (h : Advances p (act.run p).2) (index : Nat)
    (prevented : Bool) : Advances p ((withItem index prevented act).run p).2 := by
  unfold withItem
  rw [run_bind]
  split
  next => exact h
  next => exact .refl p

theorem perform_advances (event : PageEvent) (p : Page) : Advances p ((perform event).run p).2 := by
  have edited : ∀ area : TextArea, Advances p { p with area } := fun area => .of_edit (.refl _)
  cases event with
  | typeText t => exact typeText_advances t p
  | backspace => exact press_advances _ _ _ p
  | pressKey name => exact (keyDown_advances name p).trans (refresh_advances _)
  | keyDown name => exact keyDown_advances name p
  | keyUp => exact refresh_advances p
  | input value selection kind => exact (edited _).trans (input_advances kind _)
  | setValue value => exact edited _
  | select selection => exact edited _
  | click => exact refresh_advances p
  | blur => exact close_advances .focusLost p
  | tool tool =>
    cases tool with
    | markup markup => exact format_advances markup p
    | mention => exact toggleMention_advances p
  | hover index => exact withItem_advances (hover_advances index p) index false
  | pick index => exact withItem_advances (pick_advances index p) index true
  | prefill detail => exact prefill_advances detail p
  | advance span => exact advance_advances span p
  | respond number outcome => exact respond_advances number outcome p
  | chooseMedium => exact upload_advances p
  | post => exact post_advances p
  | resize height => exact .of_unseen rfl rfl rfl
  | fault place thrown =>
    cases place with
    | selection => exact edited _
    | _ => exact .of_unseen rfl rfl rfl

def after (p : Page) (events : List PageEvent) : Page := ((p.run events).getLast?.map (·.2)).getD p

theorem run_cons (p : Page) (event : PageEvent) (rest : List PageEvent) :
    p.run (event :: rest) = (perform event).run { p with effects := [] } ::
      ((perform event).run { p with effects := [] }).2.run rest := rfl

theorem after_cons (p : Page) (event : PageEvent) (rest : List PageEvent) :
    p.after (event :: rest) = ((perform event).run { p with effects := [] }).2.after rest := by
  unfold after
  rw [run_cons, List.getLast?_cons]
  cases (((perform event).run { p with effects := [] }).2.run rest).getLast? <;> rfl

/-- Whatever happens to a page is a run of moves on its exchange, and the lookups handed to the browser are fetches that
these moves have started, in this order. -/
theorem run_exists_moves (p : Page) (events : List PageEvent) :
    ∃ moves, (p.after events).exchange = (p.exchange.run moves).exchange ∧
      ((p.run events).flatMap fun r => lookups r.2.effects).Sublist
        ((p.exchange.run moves).started.map (handed p.settings)) := by
  induction events generalizing p with
  | nil => exact ⟨[], rfl, List.Sublist.refl _⟩
  | cons event rest ih =>
    obtain ⟨hs, moves, new, hx, he, hn⟩ := perform_advances event { p with effects := [] }
    obtain ⟨moves', hx', hn'⟩ := ih ((perform event).run { p with effects := [] }).2
    rw [hx] at hx' hn'
    rw [hs] at hn'
    refine ⟨moves ++ moves', ?_, ?_⟩
    · rw [after_cons, Exchange.run_append]
      exact hx'
    · rw [Exchange.run_append, List.map_append]
      rw [run_cons, List.flatMap_cons, he]
      exact hn.append hn'

end Page

end PostEditor
