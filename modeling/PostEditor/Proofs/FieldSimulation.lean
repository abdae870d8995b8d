import PostEditor.Session
import Mathlib.Data.List.Forall2

namespace PostEditor

inductive FieldEdit
  | selectRange (start stop : Nat)
  | apply (transaction : Transaction)
  | replaceSelection (insert : Text) (policy : CaretPolicy) (label : Text)
  | format (markup : Markup)
  | prefill (text : Text)
  | appendMediaLink (path : Text)
  | toggle
  | commit (index : Nat)

def FieldEdit.action : FieldEdit → Action
  | .selectRange start stop => .selectRange start stop
  | .apply tr => .apply tr
  | .replaceSelection insert policy label => .replaceSelection insert policy label
  | .format markup => .format markup
  | .prefill t => .prefill t
  | .appendMediaLink path => .appendMediaLink path
  | .toggle => .toggle
  | .commit index => .commit index

namespace Editor

variable {β : Type} [TextField β]

def edit (e : Editor β) : FieldEdit → Report (Editor β) Answer
  | .selectRange start stop => ⟨.done, { e with field := TextField.select e.field start stop }, []⟩
  | .apply tr => e.withApplied (TextField.apply e.field tr)
  | .replaceSelection insert policy label =>
    e.withApplied (TextField.replaceSelection e.field insert policy label)
  | .format markup => e.withApplied (markup.apply e.field)
  | .prefill t => e.withApplied (TextField.prefill e.field t)
  | .appendMediaLink path => e.withApplied (TextField.appendMediaLink e.field path)
  | .toggle => e.toggle.answer .toggled
  | .commit index => (e.commit index).answer .committed

def editAll (e : Editor β) : List FieldEdit → List (Report (Editor β) Answer)
  | [] => []
  | a :: rest =>
    let r := e.edit a
    r :: editAll r.state rest

theorem perform_action (e : Editor Draft) (a : FieldEdit) : e.perform a.action = e.edit a := by
  cases a <;> rfl

theorem run_map_action (e : Editor Draft) (edits : List FieldEdit) :
    e.run (edits.map FieldEdit.action) = e.editAll edits := by
  induction edits generalizing e with
  | nil => rfl
  | cons a rest ih =>
    simp only [List.map_cons, run, editAll]
    rw [perform_action, ih]

end Editor

section

variable {β γ : Type} [TextField β] [TextField γ]

/-- Related fields show the same text and selection, and stay related when a range is selected, with a change of the
text before it or without one. Between the two nothing is asked of them. -/
structure FieldSimulation (R : β → γ → Prop) : Prop where
  text {b : β} {c : γ} (h : R b c) : TextField.text b = TextField.text c
  selection {b : β} {c : γ} (h : R b c) : TextField.selection b = TextField.selection c
  select {b : β} {c : γ} (h : R b c) (start stop : Nat) :
    R (TextField.select b start stop) (TextField.select c start stop)
  select_splice {b : β} {c : γ} (h : R b c) (p q : Nat) (insert : Text) (start stop : Nat) :
    R (TextField.select (TextField.splice b p q insert) start stop)
      (TextField.select (TextField.splice c p q insert) start stop)

inductive SameApplied (R : β → γ → Prop) :
    Except EditError (Applied β) → Except EditError (Applied γ) → Prop
  | refused (error : EditError) : SameApplied R (.error error) (.error error)
  | applied {b : β} {c : γ} (field : R b c) (outcome : Outcome) (event : Event) :
      SameApplied R (.ok ⟨b, outcome, event⟩) (.ok ⟨c, outcome, event⟩)

structure SameReport {ρ : Type} (R : β → γ → Prop) (r : Report (Editor β) ρ) (r' : Report (Editor γ) ρ) :
    Prop where
  result : r.result = r'.result
  log : r.log = r'.log
  completer : r.state.completer = r'.state.completer
  field : R r.state.field r'.state.field

namespace FieldSimulation

variable {R : β → γ → Prop} {b : β} {c : γ}

theorem apply (sim : FieldSimulation R) (h : R b c) (tr : Transaction) :
    SameApplied R (TextField.apply b tr) (TextField.apply c tr) := by
  have ht := sim.text h
  have hs := sim.selection h
  unfold TextField.apply
  simp only [ht, hs]
  cases (TextField.text c).checkRange tr.change.start tr.change.stop with
  | error error => exact .refused error
  | ok _ =>
    simp only
    have after : R
        (TextField.select (if ((TextField.text c).slice tr.change.start tr.change.stop != tr.change.insert) = true
          then TextField.splice b tr.change.start tr.change.stop tr.change.insert else b)
          tr.selection.start tr.selection.stop)
        (TextField.select (if ((TextField.text c).slice tr.change.start tr.change.stop != tr.change.insert) = true
          then TextField.splice c tr.change.start tr.change.stop tr.change.insert else c)
          tr.selection.start tr.selection.stop) := by
      split
      next => exact sim.select_splice h _ _ _ _ _
      next => exact sim.select h _ _
    rw [sim.selection after]
    exact .applied after _ _

theorem clamped_eq (sim : FieldSimulation R) (h : R b c) : TextField.clamped b = TextField.clamped c := by
  simp only [TextField.clamped, sim.text h, sim.selection h]

theorem replaceSelection (sim : FieldSimulation R) (h : R b c) (insert : Text) (policy : CaretPolicy)
    (label : Text) :
    SameApplied R (TextField.replaceSelection b insert policy label)
      (TextField.replaceSelection c insert policy label) := by
  simp only [TextField.replaceSelection, sim.clamped_eq h]
  exact sim.apply h _

theorem prefill (sim : FieldSimulation R) (h : R b c) (t : Text) :
    SameApplied R (TextField.prefill b t) (TextField.prefill c t) := by
  simp only [TextField.prefill, sim.text h]
  exact sim.apply h _

theorem appendMediaLink (sim : FieldSimulation R) (h : R b c) (path : Text) :
    SameApplied R (TextField.appendMediaLink b path) (TextField.appendMediaLink c path) := by
  simp only [TextField.appendMediaLink, sim.text h]
  exact sim.apply h _

theorem format (sim : FieldSimulation R) (h : R b c) (markup : Markup) :
    SameApplied R (markup.apply b) (markup.apply c) := by
  cases markup with
  | marks mark label =>
    simp only [Markup.apply, TextField.surround, sim.clamped_eq h, sim.text h]
    exact sim.apply h _
  | template snippet label => exact sim.replaceSelection h snippet .insideTrailingParen label

variable {e : Editor β} {f : Editor γ}

omit [TextField β] [TextField γ] in
theorem withApplied (hc : e.completer = f.completer) (hf : R e.field f.field)
    {r : Except EditError (Applied β)} {r' : Except EditError (Applied γ)} (h : SameApplied R r r') :
    SameReport R (e.withApplied r) (f.withApplied r') := by
  cases h with
  | refused error => exact ⟨rfl, rfl, hc, hf⟩
  | applied field outcome event => exact ⟨rfl, rfl, hc, field⟩

theorem queryAt_eq (sim : FieldSimulation R) (h : R b c) (k : Completer) (anchor : Nat) :
    k.queryAt anchor b = k.queryAt anchor c := by
  simp only [Completer.queryAt, sim.text h, sim.selection h]

theorem toggle (sim : FieldSimulation R) (hc : e.completer = f.completer) (hf : R e.field f.field) :
    SameReport R e.toggle f.toggle := by
  unfold Editor.toggle
  rw [hc]
  split
  next => exact ⟨rfl, rfl, rfl, hf⟩
  next =>
    have same := sim.replaceSelection hf [f.completer.trigger] .afterInsert "mention-trigger".toList
    generalize TextField.replaceSelection e.field [f.completer.trigger] .afterInsert
      "mention-trigger".toList = r at same ⊢
    generalize TextField.replaceSelection f.field [f.completer.trigger] .afterInsert
      "mention-trigger".toList = r' at same ⊢
    cases same with
    | refused error => exact ⟨rfl, rfl, hc, hf⟩
    | applied field outcome event =>
      simp only [sim.selection field]
      exact ⟨rfl, rfl, rfl, field⟩

theorem commit (sim : FieldSimulation R) (hc : e.completer = f.completer) (hf : R e.field f.field)
    (index : Nat) : SameReport R (e.commit index) (f.commit index) := by
  unfold Editor.commit
  rw [hc]
  split
  next => exact ⟨rfl, rfl, hc, hf⟩
  next s _ =>
    split
    next => exact ⟨rfl, rfl, hc, hf⟩
    next x _ =>
      rw [sim.queryAt_eq hf, sim.selection hf]
      split
      next => exact ⟨rfl, rfl, rfl, hf⟩
      next =>
        have same := sim.apply hf ⟨⟨s.anchor, (TextField.selection f.field).stop, x.shown⟩,
          .cursor (s.anchor + x.shown.bytes), "mention-commit".toList⟩
        simp only
        generalize TextField.apply e.field ⟨⟨s.anchor, (TextField.selection f.field).stop, x.shown⟩,
          .cursor (s.anchor + x.shown.bytes), "mention-commit".toList⟩ = r at same ⊢
        generalize TextField.apply f.field ⟨⟨s.anchor, (TextField.selection f.field).stop, x.shown⟩,
          .cursor (s.anchor + x.shown.bytes), "mention-commit".toList⟩ = r' at same ⊢
        cases same with
        | refused error => exact ⟨rfl, rfl, rfl, hf⟩
        | applied field outcome event => exact ⟨rfl, rfl, rfl, field⟩

theorem edit (sim : FieldSimulation R) (hc : e.completer = f.completer) (hf : R e.field f.field)
    (a : FieldEdit) : SameReport R (e.edit a) (f.edit a) := by
  cases a with
  | selectRange start stop => exact ⟨rfl, rfl, hc, sim.select hf start stop⟩
  | apply tr => exact withApplied hc hf (sim.apply hf tr)
  | replaceSelection insert policy label =>
    exact withApplied hc hf (sim.replaceSelection hf insert policy label)
  | format markup => exact withApplied hc hf (sim.format hf markup)
  | prefill t => exact withApplied hc hf (sim.prefill hf t)
  | appendMediaLink path => exact withApplied hc hf (sim.appendMediaLink hf path)
  | toggle =>
    have same := sim.toggle hc hf
    exact ⟨congrArg Answer.toggled same.result, same.log, same.completer, same.field⟩
  | commit index =>
    have same := sim.commit hc hf index
    exact ⟨congrArg Answer.committed same.result, same.log, same.completer, same.field⟩

/-- Any edits give the same reports on both sides, and related fields after each of them. -/
theorem editAll (sim : FieldSimulation R) (hc : e.completer = f.completer) (hf : R e.field f.field)
    (edits : List FieldEdit) : List.Forall₂ (SameReport R) (e.editAll edits) (f.editAll edits) := by
  induction edits generalizing e f with
  | nil => exact .nil
  | cons a rest ih =>
    have same := sim.edit hc hf a
    exact .cons same (ih same.completer same.field)

end FieldSimulation

end

end PostEditor
