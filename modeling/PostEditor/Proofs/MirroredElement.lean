import PostEditor.TextArea
import PostEditor.Proofs.DraftEdits
import PostEditor.Proofs.FieldSimulation
import PostEditor.Proofs.UnitOffsets

namespace PostEditor

namespace Element

variable {ε : Type} [Element ε]

/-- An element in use stays in use and keeps the text it is given, and tells the last range it was given. After a change
of the text it may tell any range. -/
structure Faithful (inUse : ε → Prop) : Prop where
  inUse_setValue {e : ε} (h : inUse e) (t : Text) : inUse (setValue e t)
  inUse_setSelectionRange {e : ε} (h : inUse e) (start stop : Nat) : inUse (setSelectionRange e start stop)
  value_setValue {e : ε} (h : inUse e) (t : Text) : value (setValue e t) = t
  value_setSelectionRange {e : ε} (h : inUse e) (start stop : Nat) :
    value (setSelectionRange e start stop) = value e
  selectionRange?_setSelectionRange {e : ε} (h : inUse e) {start stop : Nat} (hle : start ≤ stop)
    (hb : stop ≤ (value e).units) : selectionRange? (setSelectionRange e start stop) = some (start, stop)

/-- The element holds the text of the draft, and its range is the selection of the draft in 16-bit units. -/
structure Mirrors (e : ε) (d : Draft) : Prop where
  value : value e = d.text
  valid : d.Valid
  range : selectionRange? e =
    some (d.text.bytesToUnits d.selection.start, d.text.bytesToUnits d.selection.stop)

theorem Mirrors.selection {e : ε} {d : Draft} (h : Mirrors e d) : TextField.selection e = d.selection := by
  obtain ⟨hle, hs, he⟩ := h.valid
  have hr : TextField.selection e = .between
      (d.text.unitsToBytes (d.text.bytesToUnits d.selection.start))
      (d.text.unitsToBytes (d.text.bytesToUnits d.selection.stop)) := by
    simp only [TextField.selection, h.range, h.value]
  rw [hr, Text.unitsToBytes_bytesToUnits hs, Text.unitsToBytes_bytesToUnits he, Selection.between_of_le hle]

variable {inUse : ε → Prop}

theorem Faithful.mirrors_select (laws : Faithful inUse) {e : ε} (hu : inUse e) {d : Draft}
    (hv : value e = d.text) (start stop : Nat) :
    inUse (TextField.select e start stop) ∧
      Mirrors (TextField.select e start stop) (TextField.select d start stop) := by
  have hs : TextField.select e start stop = setSelectionRange e
      (d.text.bytesToUnits ((Selection.between start stop).clampTo d.text).start)
      (d.text.bytesToUnits ((Selection.between start stop).clampTo d.text).stop) := by
    simp only [TextField.select, hv]
  obtain ⟨hle, hstart, hstop⟩ := (Selection.between start stop).clampTo_valid d.text
  rw [hs]
  refine ⟨laws.inUse_setSelectionRange hu _ _, ?_, d.setSelection_valid _, ?_⟩
  · rw [laws.value_setSelectionRange hu]
    exact hv
  · apply laws.selectionRange?_setSelectionRange hu
    · exact Text.units_before_le hle hstart hstop
    · rw [hv]
      exact Text.bytesToUnits_le_units _ _

theorem Faithful.simulation (laws : Faithful inUse) :
    FieldSimulation fun (e : ε) (d : Draft) => inUse e ∧ Mirrors e d where
  text h := h.2.value
  selection h := h.2.selection
  select h start stop := laws.mirrors_select h.1 h.2.value start stop
  select_splice h p q insert start stop := by
    obtain ⟨hu, hm⟩ := h
    apply laws.mirrors_select (laws.inUse_setValue hu _)
    rw [laws.value_setValue hu, hm.value]
    rfl

/-- Whatever edits are made of a draft and of an element that mirrors it, both answer and report the same, select the
same after each of them, and go on as mirror and draft. -/
theorem edits_keep_mirroring (laws : Faithful inUse) (c : Completer) {a : ε} {d : Draft} (hu : inUse a)
    (h : Mirrors a d) (edits : List FieldEdit) :
    List.Forall₂
      (fun (r : Report (Editor ε) Answer) (r' : Report (Editor Draft) Answer) =>
        r.result = r'.result ∧ r.log = r'.log ∧ r.state.completer = r'.state.completer ∧
          TextField.selection r.state.field = r'.state.field.selection ∧
          Mirrors r.state.field r'.state.field)
      ((⟨c, a⟩ : Editor ε).editAll edits)
      ((⟨c, d⟩ : Editor Draft).run (edits.map FieldEdit.action)) := by
  rw [Editor.run_map_action]
  have same := laws.simulation.editAll (e := ⟨c, a⟩) (f := ⟨c, d⟩) rfl ⟨hu, h⟩ edits
  refine same.imp ?_
  rintro r r' ⟨result, log, completer, _, mirrors⟩
  exact ⟨result, log, completer, mirrors.selection, mirrors⟩

end Element

theorem TextArea.faithful : Element.Faithful fun a : TextArea => a.access = .full where
  inUse_setValue := by
    intro a h t
    show (a.setValue t).access = .full
    unfold setValue
    split
    next => exact h
    next => exact h
  inUse_setSelectionRange := by
    intro a h start stop
    show (a.setSelectionRange start stop).access = .full
    simp only [setSelectionRange, h]
  value_setValue {a} _ t := a.setValue_value t
  value_setSelectionRange := by
    intro a h start stop
    show (a.setSelectionRange start stop).value = a.value
    simp only [setSelectionRange, h]
  selectionRange?_setSelectionRange := by
    intro a h start stop hle hb
    have hb : stop ≤ a.value.units := hb
    show (if (a.setSelectionRange start stop).access = .full then
      some (a.setSelectionRange start stop).selection else none) = some (start, stop)
    simp only [setSelectionRange, h, Nat.min_eq_left hb, Nat.min_eq_left hle, if_true]

namespace Element

theorem edits_keep_mirroring_beyond_ascii :
    let a : TextArea := { value := ['é', '😀', '@', 'a', 'l'], selection := (3, 5) }
    let d : Draft := ⟨['é', '😀', '@', 'a', 'l'], ⟨6, 8⟩⟩
    let edits : List FieldEdit := [.format .bold, .apply ⟨⟨1, 2, []⟩, ⟨0, 0⟩, []⟩, .toggle]
    a.access = .full ∧ Mirrors a d ∧
      ((⟨{}, a⟩ : Editor TextArea).editAll edits).map (·.state.field.selection) =
        [(9, 9), (9, 9), (10, 10)] ∧
      ((⟨{}, d⟩ : Editor Draft).run (edits.map FieldEdit.action)).map (·.state.field.selection) =
        [.cursor 12, .cursor 12, .cursor 13] ∧
      List.Forall₂
        (fun (r : Report (Editor TextArea) Answer) (r' : Report (Editor Draft) Answer) =>
          r.result = r'.result ∧ TextField.selection r.state.field = r'.state.field.selection ∧
            Mirrors r.state.field r'.state.field)
        ((⟨{}, a⟩ : Editor TextArea).editAll edits)
        ((⟨{}, d⟩ : Editor Draft).run (edits.map FieldEdit.action)) := by
  intro a d edits
  have hu : a.access = .full := rfl
  have h : Mirrors a d := ⟨rfl, ⟨by decide, by decide, by decide⟩, by decide⟩
  refine ⟨hu, h, by decide, by decide, ?_⟩
  refine (edits_keep_mirroring TextArea.faithful {} hu h edits).imp ?_
  rintro r r' ⟨result, _, _, selection, mirrors⟩
  exact ⟨result, selection, mirrors⟩

end Element

end PostEditor
