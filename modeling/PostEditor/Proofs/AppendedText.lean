import PostEditor.Draft
import PostEditor.TextArea
import PostEditor.Proofs.Backspaces
import PostEditor.Proofs.KeyReports
import PostEditor.Proofs.MentionExtent
import PostEditor.Proofs.UnitOffsets

namespace PostEditor

namespace Mention

variable {t q : Text} {caret anchor : Nat} {trigger : Char}

theorem query_of_split_blank {p m : Text} (ht : p.getLast? = some trigger) (blank : m.any isBlank = true)
    (rest : Text) : query (p ++ m ++ rest) (p.bytes + m.bytes) p.bytes trigger = .error .whitespace := by
  have ha : (p ++ m ++ rest).IsBoundary p.bytes := by
    rw [List.append_assoc]
    exact Text.isBoundary_bytes_append p (m ++ rest)
  have cut : (p ++ m ++ rest).slice? p.bytes (p.bytes + m.bytes) = some m :=
    Text.slice?_eq_some_iff.mpr ⟨Nat.le_add_right _ _, ha, Text.isBoundary_bytes_append_append p m rest,
      Text.slice_append p m rest⟩
  have before : ((p ++ m ++ rest).before p.bytes).getLast? = some trigger := by
    rw [Text.before_bytes_append_append, ht]
  have hle : ¬p.bytes + m.bytes < p.bytes := by omega
  rw [query, if_neg hle, if_neg (not_not_intro ha), if_neg (not_not_intro before), cut]
  exact if_pos blank

theorem query_ends_at_blank (h : query t caret anchor trigger = .ok q) {r : Text} (blank : r.any isBlank = true) :
    query (t ++ r) (t ++ r).bytes anchor trigger = .error .whitespace := by
  obtain ⟨p, rest, rfl, rfl, rfl, _⟩ := query_eq_ok_iff_exists_split.mp h
  have reached : (q ++ rest ++ r).any isBlank = true := by rw [List.any_append, blank, Bool.or_true]
  have ended := query_of_split_blank (p := p ++ [trigger]) (List.getLast?_concat ..) reached []
  rw [← Text.bytes_append, List.append_nil] at ended
  simpa only [List.append_assoc] using ended

end Mention

namespace TextField

variable {β : Type} [TextField β]

/-- A text has been added at the end of a field, and the caret stands behind it. -/
structure Appended (b b' : β) (r : Text) : Prop where
  text : TextField.text b' = TextField.text b ++ r
  caret : selection b' = .cursor (TextField.text b').bytes

theorem mediaLink_any_isBlank (path : Text) : (mediaLink path).any isBlank = true := rfl

theorem appendMediaLink_eq (b : β) (path : Text) :
    let start := (text b).bytes
    let stop := start + (mediaLink path).bytes
    let linked := select (splice b start start (mediaLink path)) stop stop
    appendMediaLink b path =
      .ok ⟨linked, ⟨true, selection linked != selection b⟩, .applied "media-upload".toList true⟩ := by
  intro start stop linked
  have boundary : (text b).IsBoundary start := (text b).isBoundary_bytes
  have fits : (text b).checkRange start start = .ok () :=
    Text.checkRange_of_fits (Nat.le_refl _) boundary boundary
  have changed : ((text b).slice start start != mediaLink path) = true := by
    rw [Text.slice_self_of_isBoundary boundary]
    rfl
  simp only [appendMediaLink, apply]
  rw [fits, changed]
  rfl

end TextField

open TextField

theorem Text.splice_end (t insert : Text) : t.splice t.bytes t.bytes insert = t ++ insert := by
  simpa using Text.splice_append t [] [] insert

namespace Completer

variable {β : Type} [TextField β] {c : Completer} {anchor : Nat} {b b' : β} {r : Text}

theorem Stands.queryAt_appended (stands : c.Stands anchor b) (appended : Appended b b' r)
    (blank : r.any isBlank = true) : c.queryAt anchor b' = .error .whitespace := by
  obtain ⟨_, q, found⟩ := stands
  have ahead : ¬(selection b').start < anchor := by
    obtain ⟨_, boundary, _⟩ := Mention.query_eq_ok_iff.mp found
    have reached := boundary.le_bytes
    rw [appended.caret, appended.text, Text.bytes_append]
    simp only [Selection.cursor]
    omega
  simp only [queryAt, ahead, if_false]
  rw [appended.caret, appended.text]
  exact Mention.query_ends_at_blank found blank

theorem selectionMoved_appended {s : MentionSession} (session : c.session = some s) (stands : c.Stands s.anchor b)
    (appended : Appended b b' r) (blank : r.any isBlank = true) :
    c.selectionMoved b' =
      ⟨none, (c.close .whitespace).state, [.mentionClosed s.anchor .whitespace]⟩ := by
  rw [selectionMoved, refresh_of_ended session (stands.queryAt_appended appended blank)]
  simp only [close, session, Report.answer]

end Completer

namespace Draft

theorem appendMediaLink_eq_ok (d : Draft) (path : Text) :
    let t := d.text ++ mediaLink path
    appendMediaLink d path =
      .ok ⟨⟨t, .cursor t.bytes⟩, ⟨true, .cursor t.bytes != d.selection⟩, .applied "media-upload".toList true⟩ := by
  intro t
  have linked : select (splice d d.text.bytes d.text.bytes (mediaLink path)) t.bytes t.bytes =
      ⟨t, .cursor t.bytes⟩ := by
    show setSelection ⟨d.text.splice d.text.bytes d.text.bytes (mediaLink path), d.selection⟩
      (.between t.bytes t.bytes) = _
    rw [Text.splice_end, Selection.between_self]
    exact congrArg (Draft.mk t) (Selection.cursor_clampTo t.isBoundary_bytes)
  have h := TextField.appendMediaLink_eq d path
  simp only [← Text.bytes_append] at h
  rw [show TextField.text d = d.text from rfl] at h
  rw [h, linked]
  rfl

end Draft

namespace TextArea

theorem select_end (a : TextArea) :
    (select a a.value.bytes a.value.bytes).value = a.value ∧
      TextField.selection (select a a.value.bytes a.value.bytes) = .cursor a.value.bytes := by
  have clamped : (Selection.cursor a.value.bytes).clampTo a.value = .cursor a.value.bytes :=
    Selection.cursor_clampTo a.value.isBoundary_bytes
  have units : a.value.bytesToUnits a.value.bytes = a.value.units := by
    simpa using Text.bytesToUnits_bytes_append a.value []
  have back : a.value.unitsToBytes a.value.units = a.value.bytes := by
    simpa using Text.unitsToBytes_units_append a.value []
  have selected : select a a.value.bytes a.value.bytes = a.setSelectionRange a.value.units a.value.units := by
    show a.setSelectionRange _ _ = _
    rw [Selection.between_self, show Element.value a = a.value from rfl, clamped]
    simp only [Selection.cursor, units]
  rw [selected]
  cases access : a.access with
  | full => simp [setSelectionRange, TextField.selection, Element.selectionRange?, Element.value, access, back]
  | hidden | refused => simp [setSelectionRange, TextField.selection, Element.selectionRange?, Element.value, access]

theorem appendMediaLink_appended (a : TextArea) (path : Text) :
    ∃ applied, appendMediaLink a path = .ok applied ∧ Appended a applied.field (mediaLink path) := by
  have h := TextField.appendMediaLink_eq a path
  have spliced : (splice a a.value.bytes a.value.bytes (mediaLink path)).value = a.value ++ mediaLink path := by
    refine (a.setValue_value _).trans ?_
    exact Text.splice_end a.value (mediaLink path)
  have ends := select_end (splice a a.value.bytes a.value.bytes (mediaLink path))
  rw [spliced, Text.bytes_append] at ends
  obtain ⟨value, caret⟩ := ends
  refine ⟨_, h, value, caret.trans ?_⟩
  rw [← Text.bytes_append]
  exact congrArg (fun t : Text => Selection.cursor t.bytes) value.symm

end TextArea

end PostEditor
