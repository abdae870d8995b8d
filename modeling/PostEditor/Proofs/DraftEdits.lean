import PostEditor.Draft
import PostEditor.Proofs.MentionRegion

namespace PostEditor

namespace Selection

theorem cursor_clampTo {t : Text} {p : Nat} (h : t.IsBoundary p) : (cursor p).clampTo t = cursor p :=
  (cursor_valid h).clampTo_eq

end Selection

theorem Text.checkRange_of_fits {t : Text} {p q : Nat} (hpq : p ≤ q) (hp : t.IsBoundary p)
    (hq : t.IsBoundary q) : t.checkRange p q = .ok () := by
  have hle := hq.le_bytes
  have hr : ¬(p > q ∨ q > t.bytes) := by omega
  simp [Text.checkRange, hr, hp, hq]

theorem Text.isBoundary_splice {t : Text} {p : Nat} (hp : t.IsBoundary p) (q : Nat) (insert : Text) :
    (t.splice p q insert).IsBoundary (p + insert.bytes) := by
  have h := Text.isBoundary_bytes_append_append (t.before p) insert (t.after q)
  rwa [show (t.before p).bytes = p from hp] at h

theorem Text.before_splice {t : Text} {p : Nat} (hp : t.IsBoundary p) (q : Nat) (insert : Text) :
    (t.splice p q insert).before (p + insert.bytes) = t.before p ++ insert := by
  have h := Text.before_bytes_append (t.before p ++ insert) (t.after q)
  rwa [Text.bytes_append, show (t.before p).bytes = p from hp] at h

namespace Draft

theorem clamped_valid (d : Draft) : (TextField.clamped d).Valid d.text := d.selection.clampTo_valid d.text

/-- The clamped selection is the middle of three parts of the text. -/
theorem exists_selected_split (d : Draft) :
    ∃ pre sel post, d.text = pre ++ sel ++ post ∧ TextField.clamped d = ⟨pre.bytes, pre.bytes + sel.bytes⟩ := by
  obtain ⟨hle, hs, he⟩ := d.clamped_valid
  obtain ⟨pre, sel, post, text, start, stop⟩ := Text.exists_split hle hs he
  exact ⟨pre, sel, post, text, by rw [stop, start]⟩

theorem slice_of_split {d : Draft} {pre sel post : Text} (text : d.text = pre ++ sel ++ post) :
    (TextField.text d).slice pre.bytes (pre.bytes + sel.bytes) = sel := by
  rw [show TextField.text d = pre ++ sel ++ post from text, Text.slice_append]

theorem selectedText_of_split {d : Draft} {pre sel post : Text} (text : d.text = pre ++ sel ++ post)
    (selected : TextField.clamped d = ⟨pre.bytes, pre.bytes + sel.bytes⟩) :
    selectedText d = ⟨pre.bytes, pre.bytes + sel.bytes, sel⟩ := by
  rw [selectedText, selected, slice_of_split text]

/-- A transaction that fits replaces its range and places its selection, clamped to the new text. -/
theorem apply_of_fits {d : Draft} {tr : Transaction} (hle : tr.change.start ≤ tr.change.stop)
    (hs : d.text.IsBoundary tr.change.start) (he : d.text.IsBoundary tr.change.stop) :
    let changed := d.text.slice tr.change.start tr.change.stop != tr.change.insert
    let edited := d.text.splice tr.change.start tr.change.stop tr.change.insert
    let selected := (Selection.between tr.selection.start tr.selection.stop).clampTo edited
    TextField.apply d tr =
      .ok ⟨⟨edited, selected⟩, ⟨changed, selected != d.selection⟩, .applied tr.label changed⟩ := by
  intro changed edited selected
  have hc : (TextField.text d).checkRange tr.change.start tr.change.stop = .ok () :=
    Text.checkRange_of_fits hle hs he
  have hf : (if changed then TextField.splice d tr.change.start tr.change.stop tr.change.insert else d) =
      ⟨edited, d.selection⟩ := by
    cases h : changed with
    | true => rfl
    | false =>
      have hi : d.text.slice tr.change.start tr.change.stop = tr.change.insert := by
        simpa [changed] using h
      have ht : edited = d.text := by
        rw [← Text.before_append_slice_append_after hle hs he, hi]
        rfl
      rw [ht]
      rfl
  unfold TextField.apply
  simp only [hc]
  rw [show (TextField.text d).slice = d.text.slice from rfl, hf]
  rfl

theorem apply_caret_of_fits (d : Draft) (change : Change) (hle : change.start ≤ change.stop)
    (hs : d.text.IsBoundary change.start) (he : d.text.IsBoundary change.stop) (label : Text) :
    ∃ a, TextField.apply d ⟨change, .cursor (change.start + change.insert.bytes), label⟩ = .ok a ∧
      a.field = ⟨d.text.splice change.start change.stop change.insert,
        .cursor (change.start + change.insert.bytes)⟩ := by
  refine ⟨_, apply_of_fits hle hs he, ?_⟩
  have hp := Text.isBoundary_splice hs change.stop change.insert
  simp only [Selection.cursor, Selection.between_self]
  exact congrArg (Draft.mk _) (Selection.cursor_clampTo hp)

theorem replaceSelection_afterInsert (d : Draft) (insert label : Text) :
    ∃ a, TextField.replaceSelection d insert .afterInsert label = .ok a ∧
      a.field = ⟨d.text.splice (TextField.clamped d).start (TextField.clamped d).stop insert,
        .cursor ((TextField.clamped d).start + insert.bytes)⟩ := by
  obtain ⟨hle, hs, he⟩ := d.clamped_valid
  exact d.apply_caret_of_fits ⟨(TextField.clamped d).start, (TextField.clamped d).stop, insert⟩ hle hs he label

theorem apply_eq_error_iff {d : Draft} {tr : Transaction} {error : EditError} :
    TextField.apply d tr = .error error ↔
      d.text.checkRange tr.change.start tr.change.stop = .error error := by
  unfold TextField.apply
  cases hr : d.text.checkRange tr.change.start tr.change.stop with
  | error e =>
    have hr : (TextField.text d).checkRange tr.change.start tr.change.stop = .error e := hr
    simp [hr]
  | ok _ =>
    have hr : (TextField.text d).checkRange tr.change.start tr.change.stop = .ok () := hr
    simp [hr]

theorem apply_succeeds_of_fits {d : Draft} {tr : Transaction} (hle : tr.change.start ≤ tr.change.stop)
    (hs : d.text.IsBoundary tr.change.start) (he : d.text.IsBoundary tr.change.stop) :
    ∃ a, TextField.apply d tr = .ok a :=
  ⟨_, apply_of_fits hle hs he⟩

theorem replaceSelection_succeeds (d : Draft) (insert : Text) (policy : CaretPolicy) (label : Text) :
    ∃ a, TextField.replaceSelection d insert policy label = .ok a := by
  obtain ⟨hle, hs, he⟩ := d.clamped_valid
  exact apply_succeeds_of_fits hle hs he

theorem surround_succeeds (d : Draft) (mark label : Text) : ∃ a, TextField.surround d mark label = .ok a := by
  obtain ⟨hle, hs, he⟩ := d.clamped_valid
  exact apply_succeeds_of_fits hle hs he

theorem prefill_succeeds (d : Draft) (t : Text) : ∃ a, TextField.prefill d t = .ok a :=
  apply_succeeds_of_fits (Nat.zero_le _) d.text.isBoundary_zero d.text.isBoundary_bytes

theorem appendMediaLink_succeeds (d : Draft) (path : Text) : ∃ a, TextField.appendMediaLink d path = .ok a :=
  apply_succeeds_of_fits (Nat.le_refl _) d.text.isBoundary_bytes d.text.isBoundary_bytes

theorem format_succeeds (d : Draft) (markup : Markup) : ∃ a, markup.apply d = .ok a := by
  cases markup with
  | marks mark label => exact d.surround_succeeds mark label
  | template snippet label => exact d.replaceSelection_succeeds snippet .insideTrailingParen label

theorem typeChar_of_split (pre sel post : Text) (c : Char) :
    typeChar ⟨pre ++ sel ++ post, ⟨pre.bytes, pre.bytes + sel.bytes⟩⟩ c =
      ⟨pre ++ [c] ++ post, .cursor (pre.bytes + c.utf8Size)⟩ := by
  have valid : (⟨pre.bytes, pre.bytes + sel.bytes⟩ : Selection).Valid (pre ++ sel ++ post) := by
    refine ⟨Nat.le_add_right _ _, ?_, Text.isBoundary_bytes_append_append pre sel post⟩
    rw [List.append_assoc]
    exact Text.isBoundary_bytes_append pre (sel ++ post)
  have hp : (pre ++ [c] ++ post).IsBoundary (pre.bytes + c.utf8Size) := by
    simpa using Text.isBoundary_bytes_append_append pre [c] post
  simp only [typeChar, valid.clampTo_eq, Text.splice_append, takeInput, Selection.cursor_clampTo hp]

end Draft

end PostEditor
