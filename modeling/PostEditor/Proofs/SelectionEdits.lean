import PostEditor.Proofs.ExactTransactions

namespace PostEditor

namespace Text

theorem bytes_eq_zero_iff {t : Text} : bytes t = 0 ↔ t = [] := by
  cases t with
  | nil => simp
  | cons c t =>
    have hc := c.utf8Size_pos
    simp only [bytes_cons, reduceCtorEq, iff_false]
    omega

theorem append_append_eq_self_iff {mark sel : Text} : mark ++ sel ++ mark = sel ↔ mark = [] := by
  constructor
  · intro same
    have hlength := congrArg List.length same
    simp only [List.length_append] at hlength
    exact List.length_eq_zero_iff.mp (by omega)
  · rintro rfl
    simp

end Text

structure CaretBetween (d : Draft) (front rest : Text) : Prop where
  text : d.text = front ++ rest
  selection : d.selection = .cursor front.bytes

namespace CaretBetween

variable {d : Draft} {front rest : Text}

theorem valid (h : CaretBetween d front rest) : d.Valid := by
  rw [Draft.Valid, h.text, h.selection]
  exact Selection.cursor_valid (Text.isBoundary_bytes_append front rest)

theorem before (h : CaretBetween d front rest) : d.text.before front.bytes = front := by
  rw [h.text, Text.before_bytes_append]

theorem after (h : CaretBetween d front rest) : d.text.after front.bytes = rest := by
  rw [h.text, Text.after_bytes_append]

end CaretBetween

/-- The edit has put a text in place of the middle of three parts, and the caret between `front` and `rest`. -/
structure PutInPlace (a : Applied Draft) (pre sel post insert front rest : Text) : Prop where
  text : a.field.text = pre ++ insert ++ post
  changed : a.outcome.textChanged = true ↔ insert ≠ sel
  caret : CaretBetween a.field front rest

namespace Draft

variable {d : Draft} {pre sel post insert front rest : Text}

theorem apply_in_place (text : d.text = pre ++ sel ++ post) (cut : pre ++ insert ++ post = front ++ rest)
    (label : Text) :
    ∃ a, TextField.apply d ⟨⟨pre.bytes, pre.bytes + sel.bytes, insert⟩, .cursor front.bytes, label⟩ = .ok a ∧
      PutInPlace a pre sel post insert front rest := by
  have fits : Change.Fits ⟨pre.bytes, pre.bytes + sel.bytes, insert⟩ d.text := by
    rw [text]
    exact Change.fits_append pre sel post insert
  have edited : Change.applyTo ⟨pre.bytes, pre.bytes + sel.bytes, insert⟩ d.text = pre ++ insert ++ post := by
    rw [text, Change.applyTo_append]
  have boundary : Text.IsBoundary (pre ++ insert ++ post) front.bytes := by
    rw [cut]
    exact Text.isBoundary_bytes_append front rest
  refine ⟨_, apply_of_change_fits fits, edited, ?_, edited.trans cut, ?_⟩
  · simp only [Transaction.appliedTo, edited]
    rw [text, bne_iff_ne, Ne, List.append_left_inj, List.append_right_inj]
  · simp only [Transaction.appliedTo, edited]
    exact Selection.cursor_clampTo boundary

theorem isCursor_iff_eq_nil {p : Nat} : Selection.isCursor ⟨p, p + sel.bytes⟩ = true ↔ sel = [] := by
  rw [Selection.isCursor, beq_iff_eq, ← Text.bytes_eq_zero_iff]
  exact Nat.left_eq_add

theorem surround_eq_apply (text : d.text = pre ++ sel ++ post)
    (selected : TextField.clamped d = ⟨pre.bytes, pre.bytes + sel.bytes⟩) (mark label : Text) :
    TextField.surround d mark label = TextField.apply d
      ⟨⟨pre.bytes, pre.bytes + sel.bytes, mark ++ sel ++ mark⟩,
        .cursor (if sel = [] then (pre ++ mark).bytes else (pre ++ (mark ++ sel ++ mark)).bytes), label⟩ := by
  simp only [TextField.surround, selected, slice_of_split text, isCursor_iff_eq_nil, Text.bytes_append]

theorem surround_of_split (text : d.text = pre ++ sel ++ post)
    (selected : TextField.clamped d = ⟨pre.bytes, pre.bytes + sel.bytes⟩) (mark label : Text) :
    ∃ a front rest, TextField.surround d mark label = .ok a ∧
      PutInPlace a pre sel post (mark ++ sel ++ mark) front rest ∧
      front = if sel = [] then pre ++ mark else pre ++ (mark ++ sel ++ mark) := by
  rw [surround_eq_apply text selected]
  split
  next empty =>
    have cut : pre ++ (mark ++ sel ++ mark) ++ post = (pre ++ mark) ++ (mark ++ post) := by simp [empty]
    obtain ⟨a, done, put⟩ := apply_in_place text cut label
    exact ⟨a, _, _, done, put, rfl⟩
  next =>
    have cut : pre ++ (mark ++ sel ++ mark) ++ post = (pre ++ (mark ++ sel ++ mark)) ++ post := rfl
    obtain ⟨a, done, put⟩ := apply_in_place text cut label
    exact ⟨a, _, _, done, put, rfl⟩

theorem caretAfterInsert_of_not_suffix {start : Nat} {policy : CaretPolicy}
    (behind : policy = .afterInsert ∨ ¬[')'] <:+ insert) :
    caretAfterInsert start insert policy = start + insert.bytes := by
  cases policy with
  | afterInsert => rfl
  | insideTrailingParen =>
    have unclosed : ¬insert.getLast? = some ')' :=
      mt List.singleton_suffix_iff_getLast?_eq_some.mpr (behind.resolve_left nofun)
    rw [caretAfterInsert, if_neg unclosed]

theorem caretAfterInsert_of_closed (start : Nat) (inner : Text) :
    caretAfterInsert start (inner ++ [')']) .insideTrailingParen = start + inner.bytes := by
  have one : Text.bytes [')'] = 1 := rfl
  rw [caretAfterInsert, if_pos (List.getLast?_concat ..), Text.bytes_append, one]
  rfl

theorem replaceSelection_of_split (text : d.text = pre ++ sel ++ post)
    (selected : TextField.clamped d = ⟨pre.bytes, pre.bytes + sel.bytes⟩) (insert : Text) (policy : CaretPolicy)
    (label : Text) :
    ∃ a front rest, TextField.replaceSelection d insert policy label = .ok a ∧
      PutInPlace a pre sel post insert front rest ∧
      (policy = .afterInsert ∨ ¬[')'] <:+ insert → front = pre ++ insert) ∧
      (policy = .insideTrailingParen → [')'] <:+ insert → front ++ [')'] = pre ++ insert ∧ rest = ')' :: post) := by
  simp only [TextField.replaceSelection, selected]
  by_cases behind : policy = .afterInsert ∨ ¬[')'] <:+ insert
  · have cut : pre ++ insert ++ post = (pre ++ insert) ++ post := rfl
    obtain ⟨a, done, put⟩ := apply_in_place text cut label
    have caret : caretAfterInsert pre.bytes insert policy = (pre ++ insert).bytes := by
      rw [caretAfterInsert_of_not_suffix behind, Text.bytes_append]
    rw [caret]
    refine ⟨a, _, _, done, put, fun _ => rfl, ?_⟩
    rintro rfl closed
    exact absurd closed (behind.resolve_left nofun)
  · obtain ⟨rfl, inner, rfl⟩ : policy = .insideTrailingParen ∧ [')'] <:+ insert := by
      cases policy with
      | afterInsert => exact absurd (.inl rfl) behind
      | insideTrailingParen => exact ⟨rfl, not_not.mp (not_or.mp behind).2⟩
    have cut : pre ++ (inner ++ [')']) ++ post = (pre ++ inner) ++ (')' :: post) := by simp
    obtain ⟨a, done, put⟩ := apply_in_place text cut label
    have caret : caretAfterInsert pre.bytes (inner ++ [')']) .insideTrailingParen = (pre ++ inner).bytes := by
      rw [caretAfterInsert_of_closed, Text.bytes_append]
    rw [caret]
    exact ⟨a, _, _, done, put, fun h => absurd h behind, fun _ _ => ⟨List.append_assoc .., rfl⟩⟩

/-- Marks go around what is selected, once clamped; the caret goes between them if nothing was selected and behind the
second one otherwise. -/
theorem marks_go_around_selection (d : Draft) (mark label : Text) :
    let s := d.selection.clampTo d.text
    ∃ pre sel post a, d.text = pre ++ sel ++ post ∧ pre.bytes = s.start ∧ Text.bytes (pre ++ sel) = s.stop ∧
      TextField.surround d mark label = .ok a ∧
      a.field.text = pre ++ mark ++ sel ++ mark ++ post ∧
      a.field.text.bytes = d.text.bytes + 2 * mark.bytes ∧
      (a.outcome.textChanged = true ↔ mark ≠ []) ∧
      a.field.Valid ∧
      (s.start = s.stop → a.field.selection = .cursor (s.start + mark.bytes) ∧
        a.field.text.before (s.start + mark.bytes) = pre ++ mark) ∧
      (s.start ≠ s.stop → a.field.selection = .cursor (s.start + 2 * mark.bytes + (s.stop - s.start)) ∧
        a.field.text.before (s.start + 2 * mark.bytes + (s.stop - s.start)) = pre ++ mark ++ sel ++ mark) := by
  intro s
  obtain ⟨pre, sel, post, text, selected⟩ := d.exists_selected_split
  obtain ⟨a, front, rest, done, put, hfront⟩ := surround_of_split text selected mark label
  have selected : s = ⟨pre.bytes, pre.bytes + sel.bytes⟩ := selected
  have around : a.field.text = pre ++ mark ++ sel ++ mark ++ post := by simpa using put.text
  have empty_iff : s.start = s.stop ↔ sel = [] := by
    rw [selected, ← isCursor_iff_eq_nil, Selection.isCursor, beq_iff_eq]
  refine ⟨pre, sel, post, a, text, by rw [selected], by rw [selected, Text.bytes_append], done, around, ?_, ?_,
    put.caret.valid, ?_, ?_⟩
  · rw [around, text]
    simp only [Text.bytes_append]
    omega
  · rw [put.changed, Ne, Text.append_append_eq_self_iff]
  · intro empty
    rw [if_pos (empty_iff.mp empty)] at hfront
    have caret : front.bytes = s.start + mark.bytes := by rw [hfront, selected, Text.bytes_append]
    rw [← caret, ← hfront]
    exact ⟨put.caret.selection, put.caret.before⟩
  · intro wide
    rw [if_neg (mt empty_iff.mpr wide)] at hfront
    have caret : front.bytes = s.start + 2 * mark.bytes + (s.stop - s.start) := by
      rw [hfront, selected]
      simp only [Text.bytes_append]
      omega
    have left : front = pre ++ mark ++ sel ++ mark := by simpa using hfront
    rw [← caret, ← left]
    exact ⟨put.caret.selection, put.caret.before⟩

/-- A text goes in place of what is told to be selected, the caret behind it or in front of its closing parenthesis, and
is said to change the text exactly if something else was selected. -/
theorem replacement_takes_selected_text (d : Draft) (insert label : Text) (policy : CaretPolicy) :
    let selected := selectedText d
    ∃ pre post a, d.text = pre ++ selected.text ++ post ∧ pre.bytes = selected.start ∧
      Text.bytes (pre ++ selected.text) = selected.stop ∧
      TextField.replaceSelection d insert policy label = .ok a ∧
      a.field.text = pre ++ insert ++ post ∧
      a.field.Valid ∧
      (policy = .afterInsert ∨ ¬[')'] <:+ insert →
        a.field.selection = .cursor (selected.start + insert.bytes)) ∧
      (policy = .insideTrailingParen → [')'] <:+ insert →
        a.field.selection = .cursor (selected.start + insert.bytes - 1) ∧
          a.field.text.after (selected.start + insert.bytes - 1) = ')' :: post) ∧
      (a.outcome.textChanged = false ↔ insert = selected.text) ∧
      (insert = selected.text → a.field.text = d.text) := by
  intro selected
  obtain ⟨pre, sel, post, text, clamped⟩ := d.exists_selected_split
  obtain ⟨a, front, rest, done, put, behind, inside⟩ :=
    replaceSelection_of_split text clamped insert policy label
  have told : selected = ⟨pre.bytes, pre.bytes + sel.bytes, sel⟩ := selectedText_of_split text clamped
  rw [told]
  refine ⟨pre, post, a, text, rfl, Text.bytes_append pre sel, done, put.text, put.caret.valid, ?_, ?_, ?_, ?_⟩
  · intro h
    rw [put.caret.selection, behind h, Text.bytes_append]
  · intro asked closed
    obtain ⟨around, hrest⟩ := inside asked closed
    have total : front.bytes + 1 = pre.bytes + insert.bytes := by
      rw [← Text.bytes_append, ← around, Text.bytes_append]
      rfl
    have caret : front.bytes = pre.bytes + insert.bytes - 1 := by omega
    rw [← caret, ← hrest]
    exact ⟨put.caret.selection, put.caret.after⟩
  · rw [← Bool.not_eq_true, put.changed, ne_eq, not_not]
  · rintro rfl
    rw [put.text, text]

end Draft

end PostEditor
