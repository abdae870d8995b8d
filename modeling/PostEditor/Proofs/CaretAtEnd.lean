import PostEditor.Proofs.FieldFollowing

namespace PostEditor

namespace Text

variable {s : Text} {p q : Nat}

theorem before_append_of_le (h : p ≤ s.bytes) (r : Text) : before (s ++ r) p = before s p :=
  front_append_of_le Char.utf8Size_pos h

theorem after_append_of_le (h : p ≤ s.bytes) (r : Text) : after (s ++ r) p = after s p ++ r := by
  have whole : before s p ++ after (s ++ r) p = before s p ++ (after s p ++ r) := by
    rw [← before_append_of_le h r, before_append_after, before_append_of_le h r, ← List.append_assoc,
      before_append_after]
  exact List.append_cancel_left whole

theorem floorBoundary_append_of_le (h : p ≤ s.bytes) (r : Text) :
    floorBoundary (s ++ r) p = floorBoundary s p := by
  simp only [floorBoundary, before_append_of_le h]

theorem isBoundary_append_iff_of_le (h : p ≤ s.bytes) (r : Text) : IsBoundary (s ++ r) p ↔ IsBoundary s p := by
  simp only [IsBoundary, floorBoundary_append_of_le h]

theorem slice_append_of_le (h : q ≤ s.bytes) (r : Text) : slice (s ++ r) p q = slice s p q := by
  simp only [slice, before_append_of_le h]

theorem slice?_append_of_le (h : q ≤ s.bytes) (r : Text) : slice? (s ++ r) p q = slice? s p q := by
  by_cases hpq : p ≤ q
  · have hp : p ≤ s.bytes := by omega
    simp only [slice?, isBoundary_append_iff_of_le hp, isBoundary_append_iff_of_le h, slice_append_of_le h]
  · simp only [slice?, hpq, false_and, if_false]

theorem splice_append_of_le (hpq : p ≤ q) (h : q ≤ s.bytes) (insert r : Text) :
    splice (s ++ r) p q insert = splice s p q insert ++ r := by
  have hp : p ≤ s.bytes := by omega
  simp only [splice, before_append_of_le hp, after_append_of_le h, List.append_assoc]

theorem bytes_splice_to_end (hp : IsBoundary s p) (insert : Text) :
    bytes (splice s p s.bytes insert) = p + insert.bytes := by
  have nothing : after s s.bytes = [] := by simpa using after_bytes_append s []
  have front : (before s p).bytes = p := hp
  rw [splice, nothing, List.append_nil, bytes_append, front]

end Text

theorem Selection.clampTo_append_of_le {s : Selection} {t : Text} (hstart : s.start ≤ t.bytes)
    (hstop : s.stop ≤ t.bytes) (r : Text) : s.clampTo (t ++ r) = s.clampTo t := by
  simp only [clampTo, Text.floorBoundary_append_of_le hstart, Text.floorBoundary_append_of_le hstop]

theorem Mention.query_append_of_le {t : Text} {caret : Nat} (h : caret ≤ t.bytes) (r : Text) (anchor : Nat)
    (trigger : Char) : query (t ++ r) caret anchor trigger = query t caret anchor trigger := by
  by_cases hlt : caret < anchor
  · simp only [query, hlt, if_true]
  · have ha : anchor ≤ t.bytes := by omega
    simp only [query, Text.isBoundary_append_iff_of_le ha, Text.before_append_of_le ha, Text.slice?_append_of_le h]

theorem Mention.typedTrigger?_append_of_le {t : Text} {caret : Nat} (h : caret ≤ t.bytes) (r : Text)
    (trigger : Char) : typedTrigger? (t ++ r) caret trigger = typedTrigger? t caret trigger := by
  simp only [typedTrigger?, Text.isBoundary_append_iff_of_le h, Text.before_append_of_le h]

namespace Draft

def withTail (d : Draft) (t : Text) : Draft := { d with text := d.text ++ t }

/-- The selection is in order, and reaches the end of the text. -/
structure CaretAtEnd (d : Draft) : Prop where
  start_le_stop : d.selection.start ≤ d.selection.stop
  stop_eq_bytes : d.selection.stop = d.text.bytes

variable {d : Draft}

theorem CaretAtEnd.stop_le_bytes (h : d.CaretAtEnd) : d.selection.stop ≤ d.text.bytes := Nat.le_of_eq h.stop_eq_bytes

theorem CaretAtEnd.start_le_bytes (h : d.CaretAtEnd) : d.selection.start ≤ d.text.bytes := by
  have hle := h.start_le_stop
  have hend := h.stop_eq_bytes
  omega

theorem CaretAtEnd.clamped_withTail (h : d.CaretAtEnd) (t : Text) :
    TextField.clamped (d.withTail t) = TextField.clamped d :=
  Selection.clampTo_append_of_le h.start_le_bytes h.stop_le_bytes t

theorem CaretAtEnd.clamped_stop (h : d.CaretAtEnd) : (TextField.clamped d).stop = d.text.bytes := by
  have hstop : d.text.floorBoundary d.selection.stop = d.text.bytes := by
    rw [h.stop_eq_bytes]
    exact d.text.isBoundary_bytes
  have hstart := d.text.floorBoundary_le_bytes d.selection.start
  show (Selection.between (d.text.floorBoundary d.selection.start) (d.text.floorBoundary d.selection.stop)).stop = _
  rw [hstop, Selection.between_of_le hstart]

/-- A change is carried out in the same way with a text behind the caret, and keeps that text. -/
theorem apply_caret_withTail (change : Change) (hle : change.start ≤ change.stop)
    (hs : d.text.IsBoundary change.start) (he : d.text.IsBoundary change.stop) (label t : Text) :
    ∃ a, TextField.apply d ⟨change, .cursor (change.start + change.insert.bytes), label⟩ = .ok a ∧
      TextField.apply (d.withTail t) ⟨change, .cursor (change.start + change.insert.bytes), label⟩ =
        .ok { a with field := a.field.withTail t } := by
  have hs' : (d.withTail t).text.IsBoundary change.start :=
    (Text.isBoundary_append_iff_of_le hs.le_bytes t).mpr hs
  have he' : (d.withTail t).text.IsBoundary change.stop :=
    (Text.isBoundary_append_iff_of_le he.le_bytes t).mpr he
  have edited : (d.withTail t).text.splice change.start change.stop change.insert =
      d.text.splice change.start change.stop change.insert ++ t :=
    Text.splice_append_of_le hle he.le_bytes change.insert t
  have slice : (d.withTail t).text.slice change.start change.stop = d.text.slice change.start change.stop :=
    Text.slice_append_of_le he.le_bytes t
  have inside := (Text.isBoundary_splice hs change.stop change.insert).le_bytes
  have selected : (Selection.cursor (change.start + change.insert.bytes)).clampTo
        (d.text.splice change.start change.stop change.insert ++ t) =
      (Selection.cursor (change.start + change.insert.bytes)).clampTo
        (d.text.splice change.start change.stop change.insert) :=
    Selection.clampTo_append_of_le inside inside t
  have plain := @apply_of_fits d ⟨change, .cursor (change.start + change.insert.bytes), label⟩ hle hs he
  have tailed :=
    @apply_of_fits (d.withTail t) ⟨change, .cursor (change.start + change.insert.bytes), label⟩ hle hs' he'
  refine ⟨_, plain, tailed.trans ?_⟩
  simp only [Selection.cursor, Selection.between_self, edited, slice]
  simp only [Selection.cursor] at selected
  rw [selected]
  rfl

theorem caretAtEnd_of_spliced {p : Nat} (hp : d.text.IsBoundary p) (insert : Text) :
    CaretAtEnd ⟨d.text.splice p d.text.bytes insert, .cursor (p + insert.bytes)⟩ :=
  ⟨Nat.le_refl _, (Text.bytes_splice_to_end hp insert).symm⟩

end Draft

namespace Completer

variable {d : Draft}

theorem queryAt_withTail (c : Completer) (h : d.CaretAtEnd) (t : Text) (anchor : Nat) :
    c.queryAt anchor (d.withTail t) = c.queryAt anchor d := by
  simp only [queryAt, TextField.selection, TextField.text, Draft.withTail,
    Mention.query_append_of_le h.stop_le_bytes]

theorem refresh_withTail (c : Completer) (h : d.CaretAtEnd) (t : Text) : c.refresh (d.withTail t) = c.refresh d := by
  simp only [refresh, c.queryAt_withTail h]

theorem input_withTail (c : Completer) (h : d.CaretAtEnd) (t : Text) (kind : InputKind) :
    c.input (d.withTail t) kind = c.input d kind := by
  have selection : TextField.selection (d.withTail t) = TextField.selection d := rfl
  have text : TextField.text (d.withTail t) = TextField.text d ++ t := rfl
  have typed : Mention.typedTrigger? (TextField.text d ++ t) (TextField.selection d).stop c.trigger =
      Mention.typedTrigger? (TextField.text d) (TextField.selection d).stop c.trigger :=
    Mention.typedTrigger?_append_of_le h.stop_le_bytes t c.trigger
  simp only [input, c.refresh_withTail h, selection, text, typed]

end Completer

end PostEditor
