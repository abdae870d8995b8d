import PostEditor.Session
import PostEditor.Proofs.CheckedOffsets
import PostEditor.Proofs.DraftEdits

namespace PostEditor

namespace Text

theorem checkRange_eq_invalidRange_iff {t : Text} {p q start stop length : Nat} :
    t.checkRange p q = .error (.invalidRange start stop length) ↔
      (p > q ∨ q > t.bytes) ∧ start = p ∧ stop = q ∧ length = t.bytes := by
  unfold checkRange
  split
  next outside => simp [outside, eq_comm]
  next inside =>
    split
    next => simp [inside]
    next => split <;> simp [inside]

theorem checkRange_eq_notCharBoundary_iff {t : Text} {p q offset : Nat} :
    t.checkRange p q = .error (.notCharBoundary offset) ↔
      p ≤ q ∧ q ≤ t.bytes ∧ [p, q].find? (fun x => ¬t.IsBoundary x) = some offset := by
  unfold checkRange
  split
  next outside =>
    have out : ¬(p ≤ q ∧ q ≤ t.bytes) := by omega
    simp only [Except.error.injEq, reduceCtorEq, false_iff]
    exact fun ⟨hle, hq, _⟩ => out ⟨hle, hq⟩
  next inside =>
    have hle : p ≤ q := by omega
    have hq : q ≤ t.bytes := by omega
    split
    next hp => simp [hle, hq, hp]
    next hp => split <;> simp_all

end Text

namespace Change

/-- The range of the change lies in the text and cuts through no character. -/
def Fits (c : Change) (t : Text) : Prop :=
  c.start ≤ c.stop ∧ t.IsBoundary c.start ∧ t.IsBoundary c.stop

def applyTo (c : Change) (t : Text) : Text := t.before c.start ++ c.insert ++ t.after c.stop

variable {c : Change} {t : Text}

theorem fits_iff : c.Fits t ↔ t.checkRange c.start c.stop = .ok () :=
  ⟨fun ⟨hle, hs, he⟩ => Text.checkRange_of_fits hle hs he, Text.fits_of_checkRange⟩

theorem Fits.exists_split (h : c.Fits t) :
    ∃ s m r, t = s ++ m ++ r ∧ c = ⟨s.bytes, s.bytes + m.bytes, c.insert⟩ := by
  obtain ⟨hle, hs, he⟩ := h
  obtain ⟨s, m, r, ht, hstart, hstop⟩ := Text.exists_split hle hs he
  exact ⟨s, m, r, ht, by rw [hstop, hstart]⟩

theorem fits_append (s m r insert : Text) : Fits ⟨s.bytes, s.bytes + m.bytes, insert⟩ (s ++ m ++ r) := by
  refine ⟨Nat.le_add_right _ _, ?_, Text.isBoundary_bytes_append_append s m r⟩
  rw [List.append_assoc]
  exact Text.isBoundary_bytes_append s (m ++ r)

@[simp] theorem applyTo_append (s m r insert : Text) :
    applyTo ⟨s.bytes, s.bytes + m.bytes, insert⟩ (s ++ m ++ r) = s ++ insert ++ r :=
  Text.splice_append s m r insert

theorem Fits.applyTo_eq_self_iff (h : c.Fits t) : c.applyTo t = t ↔ t.slice c.start c.stop = c.insert := by
  obtain ⟨s, m, r, rfl, hc⟩ := h.exists_split
  rw [hc, applyTo_append, Text.slice_append, List.append_left_inj, List.append_right_inj]
  exact eq_comm

end Change

theorem Selection.clampTo_between (a b : Nat) (t : Text) : (between a b).clampTo t = clampTo ⟨a, b⟩ t := by
  unfold between
  split
  next => rfl
  next => exact between_comm _ _

/-- All that a transaction that fits leaves of a draft, with the whole text and the selection compared. -/
def Transaction.appliedTo (tr : Transaction) (d : Draft) : Applied Draft :=
  let text := tr.change.applyTo d.text
  let selection := tr.selection.clampTo text
  let changed := text != d.text
  ⟨⟨text, selection⟩, ⟨changed, selection != d.selection⟩, .applied tr.label changed⟩

namespace Draft

variable {d : Draft} {tr : Transaction}

theorem apply_of_change_fits (fits : tr.change.Fits d.text) : TextField.apply d tr = .ok (tr.appliedTo d) := by
  have changed : (d.text.slice tr.change.start tr.change.stop != tr.change.insert) =
      (tr.change.applyTo d.text != d.text) := by
    rw [Bool.eq_iff_iff, bne_iff_ne, bne_iff_ne, Ne, Ne, fits.applyTo_eq_self_iff]
  obtain ⟨hle, hs, he⟩ := fits
  rw [apply_of_fits hle hs he, changed, Selection.clampTo_between]
  rfl

theorem apply_eq_ok_iff {a : Applied Draft} :
    TextField.apply d tr = .ok a ↔ tr.change.Fits d.text ∧ a = tr.appliedTo d := by
  constructor
  · intro h
    have fits : tr.change.Fits d.text := by
      cases hr : d.text.checkRange tr.change.start tr.change.stop with
      | error error =>
        rw [apply_eq_error_iff.mpr hr] at h
        cases h
      | ok _ => exact Change.fits_iff.mpr hr
    rw [apply_of_change_fits fits] at h
    exact ⟨fits, (Except.ok.inj h).symm⟩
  · rintro ⟨fits, rfl⟩
    exact apply_of_change_fits fits

end Draft

namespace Editor

variable {e : Editor Draft} {tr : Transaction}

theorem perform_apply_error_iff {error : EditError} :
    (e.perform (.apply tr)).result = .outcome (.error error) ↔
      e.field.text.checkRange tr.change.start tr.change.stop = .error error := by
  rw [← Draft.apply_eq_error_iff]
  change (e.withApplied (TextField.apply e.field tr)).result = _ ↔ _
  cases TextField.apply e.field tr with
  | error _ => simp [withApplied]
  | ok _ => simp [withApplied]

theorem perform_apply_of_error {error : EditError}
    (refused : (e.perform (.apply tr)).result = .outcome (.error error)) :
    (e.perform (.apply tr)).state = e ∧ (e.perform (.apply tr)).log = [] := by
  have h := Draft.apply_eq_error_iff.mpr (perform_apply_error_iff.mp refused)
  simp [perform, withApplied, h]

theorem fits_of_perform_apply_ok {outcome : Outcome} (done : (e.perform (.apply tr)).result = .outcome (.ok outcome)) :
    tr.change.Fits e.field.text := by
  cases h : TextField.apply e.field tr with
  | error _ => simp [perform, withApplied, h] at done
  | ok _ => exact (Draft.apply_eq_ok_iff.mp h).1

theorem perform_apply_of_fits (fits : tr.change.Fits e.field.text) :
    e.perform (.apply tr) =
      ⟨.outcome (.ok (tr.appliedTo e.field).outcome), ⟨e.completer, (tr.appliedTo e.field).field⟩,
        [(tr.appliedTo e.field).event]⟩ := by
  simp only [perform, Draft.apply_of_change_fits fits, withApplied]

/-- A transaction is refused exactly for a range that does not fit, and then changes and reports nothing. Otherwise its
text replaces the range, its selection is clamped, and both flags are exact. -/
theorem transaction_is_exact_splice (e : Editor Draft) (tr : Transaction) :
    let d := e.field
    let c := tr.change
    let r := e.perform (.apply tr)
    (∀ start stop length, r.result = .outcome (.error (.invalidRange start stop length)) ↔
        (c.start > c.stop ∨ c.stop > d.text.bytes) ∧ start = c.start ∧ stop = c.stop ∧ length = d.text.bytes) ∧
      (∀ offset, r.result = .outcome (.error (.notCharBoundary offset)) ↔
        c.start ≤ c.stop ∧ c.stop ≤ d.text.bytes ∧
          [c.start, c.stop].find? (fun p => ¬d.text.IsBoundary p) = some offset) ∧
      (∀ error, r.result = .outcome (.error error) → r.state = e ∧ r.log = []) ∧
      ((∃ outcome, r.result = .outcome (.ok outcome)) ↔
        c.start ≤ c.stop ∧ d.text.IsBoundary c.start ∧ d.text.IsBoundary c.stop) ∧
      (∀ outcome, r.result = .outcome (.ok outcome) →
        r.state.completer = e.completer ∧
          r.state.field.text = d.text.before c.start ++ c.insert ++ d.text.after c.stop ∧
          r.state.field.selection = tr.selection.clampTo r.state.field.text ∧
          (outcome.textChanged = true ↔ r.state.field.text ≠ d.text) ∧
          (outcome.selectionChanged = true ↔ r.state.field.selection ≠ d.selection) ∧
          r.log = [.applied tr.label outcome.textChanged]) := by
  intro d c r
  refine ⟨?_, ?_, ?_, ?_, ?_⟩
  · intro start stop length
    exact perform_apply_error_iff.trans Text.checkRange_eq_invalidRange_iff
  · intro offset
    exact perform_apply_error_iff.trans Text.checkRange_eq_notCharBoundary_iff
  · intro error refused
    exact perform_apply_of_error refused
  · constructor
    · rintro ⟨outcome, done⟩
      exact fits_of_perform_apply_ok done
    · intro fits
      exact ⟨_, congrArg Report.result (perform_apply_of_fits fits)⟩
  · intro outcome done
    have hr : r = _ := perform_apply_of_fits (fits_of_perform_apply_ok done)
    rw [hr] at done ⊢
    cases done
    exact ⟨rfl, rfl, rfl, bne_iff_ne, bne_iff_ne, rfl⟩

end Editor

end PostEditor
