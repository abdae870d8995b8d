import PostEditor.PageSession
import PostEditor.Proofs.Exchange

namespace PostEditor

namespace Page

def exchange (p : Page) : Exchange TextArea := ⟨p.dispatch, p.area⟩

def lookups (effects : List Effect) : List (Nat × Text) :=
  effects.filterMap fun
    | .fetch number (.lookup url) => some (number, url)
    | _ => none

def handed (s : Settings) (sent : Sent) : Nat × Text :=
  (sent.number, lookupAddress s.lookupUrl sent.request.query)

@[simp] theorem lookups_append (first rest : List Effect) :
    lookups (first ++ rest) = lookups first ++ lookups rest :=
  List.filterMap_append

/-- Nothing has changed but what is drawn and reported. -/
structure Quiet (p q : Page) : Prop where
  exchange : q.exchange = p.exchange
  settings : q.settings = p.settings
  fetched : q.fetched = p.fetched
  effects : ∃ new, q.effects = p.effects ++ new ∧ lookups new = []

/-- Moves lead from one page to the other. What was handed to the browser on the way are fetches that were owed before
or have been started on the way. -/
structure AdvancesOwing (owed : List Sent) (p q : Page) : Prop where
  settings : q.settings = p.settings
  moves : ∃ moves new, q.exchange = (p.exchange.run moves).exchange ∧ q.effects = p.effects ++ new ∧
    (lookups new).Sublist ((owed ++ (p.exchange.run moves).started).map (handed p.settings))

def Advances (p q : Page) : Prop := AdvancesOwing [] p q

theorem Quiet.refl (p : Page) : Quiet p p := ⟨rfl, rfl, rfl, [], by simp, rfl⟩

theorem Quiet.trans {p q r : Page} (h : Quiet p q) (h' : Quiet q r) : Quiet p r := by
  obtain ⟨new, he, hn⟩ := h.effects
  obtain ⟨new', he', hn'⟩ := h'.effects
  refine ⟨h'.exchange.trans h.exchange, h'.settings.trans h.settings, h'.fetched.trans h.fetched,
    new ++ new', ?_, ?_⟩
  · rw [he', he, List.append_assoc]
  · rw [lookups_append, hn, hn']
    rfl

theorem Advances.of_same {p q : Page} (hx : q.exchange = p.exchange) (hs : q.settings = p.settings)
    (new : List Effect) (he : q.effects = p.effects ++ new) (hn : lookups new = []) : Advances p q :=
  ⟨hs, [], new, hx, he, by rw [hn]; exact List.nil_sublist _⟩

theorem Advances.of_unseen {p q : Page} (hx : q.exchange = p.exchange) (hs : q.settings = p.settings)
    (he : q.effects = p.effects) : Advances p q :=
  .of_same hx hs [] (he.trans (List.append_nil _).symm) rfl

theorem Quiet.advances {p q : Page} (h : Quiet p q) : Advances p q := by
  obtain ⟨new, he, hn⟩ := h.effects
  exact .of_same h.exchange h.settings new he hn

theorem Advances.refl (p : Page) : Advances p p := (Quiet.refl p).advances

theorem Advances.owing {p q : Page} (h : Advances p q) (owed : List Sent) : AdvancesOwing owed p q := by
  obtain ⟨hs, moves, new, hx, he, hn⟩ := h
  refine ⟨hs, moves, new, hx, he, hn.trans ?_⟩
  exact (List.sublist_append_right owed _).map _

theorem Advances.trans {p q r : Page} (h : Advances p q) (h' : Advances q r) : Advances p r := by
  obtain ⟨hs, moves, new, hx, he, hn⟩ := h
  obtain ⟨hs', moves', new', hx', he', hn'⟩ := h'
  rw [hx] at hx' hn'
  rw [hs] at hn'
  refine ⟨hs'.trans hs, moves ++ moves', new ++ new', ?_, ?_, ?_⟩
  · rw [Exchange.run_append]
    exact hx'
  · rw [he', he, List.append_assoc]
  · rw [Exchange.run_append, lookups_append, List.nil_append, List.map_append]
    exact hn.append hn'

theorem AdvancesOwing.after_move {x : Exchange TextArea} {p q : Page} {m : Move TextArea} {owed : List Sent}
    (hm : p.exchange.move m = ⟨x, [], owed⟩)
    (h : AdvancesOwing owed { p with dispatch := x.dispatch, area := x.field } q) : Advances p q := by
  obtain ⟨hs, moves, new, hx, he, hn⟩ := h
  refine ⟨hs, m :: moves, new, ?_, he, ?_⟩
  · simp only [Exchange.run, hm]
    exact hx
  · simp only [Exchange.run, hm]
    exact hn

theorem Advances.of_move {p q : Page} (m : Move TextArea) (hx : q.exchange = (p.exchange.move m).exchange)
    (hs : q.settings = p.settings) (new : List Effect) (he : q.effects = p.effects ++ new)
    (hn : lookups new = []) : Advances p q :=
  ⟨hs, [m], new, hx, he, by rw [hn]; exact List.nil_sublist _⟩

theorem run_bind {α δ : Type} (m : PageM α) (f : α → PageM δ) (p : Page) :
    (m >>= f).run p = (f (m.run p).1).run (m.run p).2 := rfl

theorem emit_quiet {e : Effect} (h : lookups [e] = []) (p : Page) : Quiet p ((emit e).run p).2 :=
  ⟨rfl, rfl, rfl, [e], rfl, h⟩

theorem report_cons (event : Event) (log : List Event) (p : Page) :
    ((report (event :: log)).run p).2 = ((report log).run ((report [event]).run p).2).2 := rfl

theorem console_quiet (event : Event) (p : Page) :
    Quiet p ((do
      if event.passes (← get).filter then emit (.console event.level event.line) : PageM Unit).run p).2 := by
  rw [run_bind]
  split
  next => exact emit_quiet rfl p
  next => exact .refl p

theorem report_singleton_quiet (event : Event) (p : Page) : Quiet p ((report [event]).run p).2 := by
  cases event with
  | applied label changed =>
    exact (emit_quiet rfl p).trans (console_quiet (.applied label changed) ((emit .focusField).run p).2)
  | _ => exact console_quiet _ p

theorem report_quiet (log : List Event) (p : Page) : Quiet p ((report log).run p).2 := by
  induction log generalizing p with
  | nil => exact .refl p
  | cons event log ih =>
    rw [report_cons]
    exact (report_singleton_quiet event p).trans (ih _)

theorem draw_quiet (p : Page) : Quiet p (draw.run p).2 := ⟨rfl, rfl, rfl, [], by simp [draw]; rfl, rfl⟩

theorem settle_quiet {ρ : Type} (r : Report Completer ρ) (p : Page) :
    Quiet { p with dispatch := { p.dispatch with completer := r.state } } ((settle r).run p).2 :=
  (report_quiet r.log _).trans (draw_quiet _)

theorem settleEditor_quiet {ρ : Type} (r : Report (Editor TextArea) ρ) (p : Page) :
    Quiet { p with area := r.state.field, dispatch := { p.dispatch with completer := r.state.completer } }
      ((settleEditor r).run p).2 :=
  settle_quiet (r.into (·.completer)) { p with area := r.state.field }

theorem called_of_quiet {p q : Page} (a : Call TextArea)
    (h : Quiet { p with
      area := (p.editor.call a).state.field
      dispatch := { p.dispatch with completer := (p.editor.call a).state.completer } } q) :
    ((wait (p.editor.call a).result.request?).run q).2.exchange =
      p.exchange.called (p.editor.call a) (q.clock + delay q.settings) := by
  have hd : q.dispatch = { p.dispatch with completer := (p.editor.call a).state.completer } :=
    congrArg Exchange.dispatch h.exchange
  have ha : q.area = (p.editor.call a).state.field := congrArg Exchange.field h.exchange
  unfold Exchange.called
  cases (p.editor.call a).result.request? with
  | none =>
    change Exchange.mk q.dispatch q.area = _
    rw [hd, ha]
    rfl
  | some request =>
    change Exchange.mk (q.dispatch.wait request _) q.area = _
    rw [hd, ha]
    rfl

theorem Advances.of_call {p q : Page} (a : Call TextArea)
    (h : Quiet { p with
      area := (p.editor.call a).state.field
      dispatch := { p.dispatch with completer := (p.editor.call a).state.completer } } q) :
    Advances p ((wait (p.editor.call a).result.request?).run q).2 := by
  have hx := called_of_quiet a h
  obtain ⟨_, hs, _, new, he, hn⟩ := h
  refine .of_move (.call a (q.clock + delay q.settings)) hx ?_ new ?_ hn
  · cases (p.editor.call a).result.request? <;> exact hs
  · cases (p.editor.call a).result.request? <;> exact he

theorem Advances.of_edit {p q : Page} (h : Quiet { p with area := q.area } q) : Advances p q :=
  .of_call (.edit q.area) h

end Page

end PostEditor
