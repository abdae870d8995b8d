import PostEditor.Proofs.CarriedOutEdits
import Mathlib.Data.List.Forall2

namespace PostEditor

namespace Editor

variable {e : Editor Draft} {a : Action}

/-- The second report is of a transaction that was carried out, and changed the text exactly if the first one's edit
did. -/
def TakenBack (r back : Report (Editor Draft) Answer) : Prop :=
  ∃ outcome, back.result = .outcome (.ok outcome) ∧ r.textChanged? = some outcome.textChanged

theorem CarriedOut.takenBack {c : Change} (h : CarriedOut e a c) {f : Editor Draft} {undo : Transaction}
    (left : f.field.text = (e.perform a).state.field.text) (inverse : undo.change = c.inverse e.field.text) :
    TakenBack (e.perform a) (f.perform (.apply undo)) ∧
      (f.perform (.apply undo)).state.field.text = e.field.text := by
  have fits : undo.change.Fits f.field.text := by
    rw [left, h.text, inverse]
    exact h.fits.inverse
  have restored : undo.change.applyTo f.field.text = e.field.text := by
    rw [left, h.text, inverse]
    exact h.fits.inverse_applyTo
  rw [perform_apply_of_fits fits]
  refine ⟨⟨_, rfl, ?_⟩, restored⟩
  rw [h.flag, ← h.text, ← left, bne_comm, ← restored]
  rfl

theorem run_takenBack {edits : List Action} (carried : ∀ r ∈ e.run edits, r.result.succeeded = true)
    {undo : List Transaction} (inverse : undo.map Transaction.change = e.inverses edits) :
    List.Forall₂ TakenBack (e.run edits).reverse ((e.performed edits).run (undo.map .apply)) ∧
      ((e.performed edits).performed (undo.map .apply)).field.text = e.field.text := by
  induction edits generalizing e undo with
  | nil =>
    obtain rfl : undo = [] := List.map_eq_nil_iff.mp inverse
    exact ⟨.nil, rfl⟩
  | cons a rest ih =>
    rw [run_cons] at carried
    obtain ⟨c, first⟩ := exists_carriedOut (carried _ List.mem_cons_self)
    rw [inverses, first.change] at inverse
    obtain ⟨later, last, rfl, hlater, hlast⟩ := List.map_eq_append_iff.mp inverse
    obtain ⟨undoFirst, rfl, hfirst⟩ : ∃ tr, last = [tr] ∧ tr.change = c.inverse e.field.text := by
      simpa [List.map_eq_singleton_iff] using hlast
    obtain ⟨steps, restored⟩ := ih (fun r hr => carried r (List.mem_cons_of_mem _ hr)) hlater
    obtain ⟨step, text⟩ := first.takenBack restored hfirst
    simp only [run_cons, performed_cons, List.reverse_cons, List.map_append, run_append, performed_append]
    exact ⟨List.rel_append steps (.cons step .nil), text⟩

theorem perform_cut {s m r : Text} {tr : Transaction} (text : e.field.text = s ++ m ++ r)
    (cut : tr.change = ⟨s.bytes, s.bytes + m.bytes, []⟩) :
    (e.perform (.apply tr)).result.succeeded = true ∧ (e.perform (.apply tr)).state.field.text = s ++ r := by
  have fits : tr.change.Fits e.field.text := by
    rw [text, cut]
    exact Change.fits_append s m r []
  have left : tr.change.applyTo e.field.text = s ++ r := by
    rw [text, cut, Change.applyTo_append, List.append_nil]
  rw [perform_apply_of_fits fits]
  exact ⟨rfl, left⟩

theorem perform_marks (e : Editor Draft) (mark label : Text) :
    ∃ pre sel post, e.field.text = pre ++ sel ++ post ∧
      TextField.clamped e.field = ⟨pre.bytes, pre.bytes + sel.bytes⟩ ∧
      (e.perform (.format (.marks mark label))).state.field.text = pre ++ (mark ++ sel ++ mark) ++ post := by
  obtain ⟨c, carried⟩ := exists_carriedOut (perform_succeeds (e := e) (a := .format (.marks mark label)) rfl)
  obtain rfl := Option.some.inj carried.change
  obtain ⟨pre, sel, post, text, selected⟩ := e.field.exists_selected_split
  refine ⟨pre, sel, post, text, selected, ?_⟩
  rw [carried.text, Draft.inPlace, Draft.selectedText_of_split text selected, text, Change.applyTo_append]

/-- Edits carried out one after the other are taken back by the inverse changes in reverse order, each of them carried
out with the same flag. Cutting out the marks around a selection restores the text too. -/
theorem edits_can_be_undone (e : Editor Draft) :
    (∀ (edits : List Action) (undo : List Transaction), (∀ r ∈ e.run edits, r.result.succeeded = true) →
      undo.map Transaction.change = e.inverses edits →
        List.Forall₂ TakenBack (e.run edits).reverse ((e.performed edits).run (undo.map .apply)) ∧
          ((e.performed edits).performed (undo.map .apply)).field.text = e.field.text) ∧
      (∀ a : Action, a.alwaysFits = true → (e.perform a).result.succeeded = true) ∧
      ∀ (mark label : Text) (closing opening : Transaction),
        let s := TextField.clamped e.field
        let actions : List Action := [.format (.marks mark label), .apply closing, .apply opening]
        closing.change = ⟨s.stop + mark.bytes, s.stop + 2 * mark.bytes, []⟩ →
        opening.change = ⟨s.start, s.start + mark.bytes, []⟩ →
          (∀ r ∈ e.run actions, r.result.succeeded = true) ∧
            (e.performed actions).field.text = e.field.text := by
  refine ⟨fun edits undo carried inverse => run_takenBack carried inverse, fun a always => perform_succeeds always, ?_⟩
  intro mark label closing opening s actions hclosing hopening
  obtain ⟨pre, sel, post, text, selected, around⟩ := e.perform_marks mark label
  have hclosing : closing.change =
      ⟨(pre ++ mark ++ sel).bytes, (pre ++ mark ++ sel).bytes + mark.bytes, []⟩ := by
    simp only [hclosing, s, selected, Text.bytes_append, Change.mk.injEq, and_true]
    omega
  have hopening : opening.change = ⟨pre.bytes, pre.bytes + mark.bytes, []⟩ := by
    simp only [hopening, s, selected]
  have before : (e.perform (.format (.marks mark label))).state.field.text =
      (pre ++ mark ++ sel) ++ mark ++ post := by simpa using around
  obtain ⟨first, half⟩ := perform_cut before hclosing
  have between : ((e.perform (.format (.marks mark label))).state.perform (.apply closing)).state.field.text =
      pre ++ mark ++ (sel ++ post) := by simpa using half
  obtain ⟨second, restored⟩ := perform_cut between hopening
  simp only [actions, run_cons, run_nil, performed_cons, performed_nil, List.mem_cons, List.not_mem_nil, or_false]
  refine ⟨?_, ?_⟩
  · rintro r (rfl | rfl | rfl)
    · exact perform_succeeds rfl
    · exact first
    · exact second
  · rw [restored, text, List.append_assoc]

theorem edits_can_be_undone_beyond_ascii :
    let c : Completer := { session := some ⟨3, ['ñ'], [⟨['😀'], ['x']⟩], some 0, none⟩ }
    let e : Editor Draft := ⟨c, ⟨['é', '@', 'ñ', ' ', 'z'], ⟨5, 5⟩⟩⟩
    let edits : List Action := [.commit 0, .format (.marks ['~'] []), .format (.template ['ß', ')'] []),
      .replaceSelection ['z'] .afterInsert [], .apply ⟨⟨0, 2, ['é']⟩, ⟨9, 0⟩, []⟩, .prefill ['ü', '\n'],
      .appendMediaLink ['é']]
    let undo : List Transaction := (e.inverses edits).map fun change => ⟨change, ⟨7, 1⟩, []⟩
    (e.performed edits).field.text = ['ü', '\n', ' ', '!', '[', ']', '(', 'é', ')', ' '] ∧
      ((e.performed edits).performed (undo.map .apply)).field.text = ['é', '@', 'ñ', ' ', 'z'] := by
  intro c e edits undo
  have carried : ∀ r ∈ e.run edits, r.result.succeeded = true := by decide
  have inverse : undo.map Transaction.change = e.inverses edits := by simp [undo, List.map_map, Function.comp_def]
  exact ⟨by decide, ((edits_can_be_undone e).1 edits undo carried inverse).2⟩

end Editor

end PostEditor
