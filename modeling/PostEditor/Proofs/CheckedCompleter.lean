import PostEditor.Completer
import PostEditor.Draft
import PostEditor.Proofs.CheckedOffsets

namespace PostEditor

namespace Mention

/-- A query whose cuts are checked. -/
def query? (t : Text) (caret anchor : Nat) (trigger : Char) : Option (Except CloseReason Text) :=
  if caret < anchor then some (.error .caretBeforeAnchor)
  else if ¬t.IsBoundary anchor then some (.error .anchorOutOfRange)
  else do
    let before ← t.slice? 0 anchor
    if before.getLast? ≠ some trigger then return .error .triggerRemoved
    else
      match t.slice? anchor caret with
      | none => return .error .anchorOutOfRange
      | some q => return if q.any isBlank then .error .whitespace else .ok q

@[simp] theorem query?_eq (t : Text) (caret anchor : Nat) (trigger : Char) :
    query? t caret anchor trigger = some (query t caret anchor trigger) := by
  unfold query? query
  split
  next => rfl
  next =>
    split
    next => rfl
    next ha =>
      have ha : t.IsBoundary anchor := not_not.mp ha
      rw [Text.slice?_of_fits (Nat.zero_le anchor) t.isBoundary_zero ha, Text.slice_zero ha]
      simp only [Option.bind_eq_bind, Option.bind_some]
      split
      next => rfl
      next =>
        cases t.slice? anchor caret with
        | none => rfl
        | some q => rfl

end Mention

def remainder? (n count : Nat) : Option Nat := if count = 0 then none else some (n % count)

theorem remainder?_of_pos {count : Nat} (h : 0 < count) (n : Nat) : remainder? n count = some (n % count) := by
  simp [remainder?, Nat.ne_of_gt h]

namespace Completer

def queryAt? (c : Completer) (anchor : Nat) (d : Draft) : Option (Except CloseReason Text) :=
  if d.selection.start < anchor then some (.error .caretBeforeAnchor)
  else Mention.query? d.text d.selection.stop anchor c.trigger

def refresh? (c : Completer) (d : Draft) : Option (Report Completer (Option Request)) :=
  match c.session with
  | none => some ⟨none, c, []⟩
  | some s => do
    match ← c.queryAt? s.anchor d with
    | .error reason => return (c.close reason).answer fun _ => none
    | .ok query =>
      if query = s.query then return ⟨none, c, []⟩
      else
        let (request, c) := { c with session := some { s with query } }.ask
          (if query = [] then none else some query)
        return ⟨some request, c, []⟩

def input? (c : Completer) (d : Draft) (kind : InputKind) : Option (Report Completer (Option Request)) :=
  if c.isOpen then c.refresh? d else some (c.input d kind)

/-- A move of the highlight whose difference and remainder are checked. -/
def move? (c : Completer) (s : MentionSession) (down : Bool) : Option Completer := do
  let count := s.candidates.length
  let current := s.highlighted.getD 0
  let moved ← if down then remainder? (current + 1) count
    else do remainder? (← Nat.psub (current + count) 1) count
  return { c with session := some { s with highlighted := some moved } }

@[simp] theorem queryAt?_eq (c : Completer) (anchor : Nat) (d : Draft) :
    c.queryAt? anchor d = some (c.queryAt anchor d) := by
  unfold queryAt? queryAt
  simp only [Mention.query?_eq]
  exact (apply_ite some _ _ _).symm

@[simp] theorem refresh?_eq (c : Completer) (d : Draft) : c.refresh? d = some (c.refresh d) := by
  cases hs : c.session with
  | none => simp only [refresh?, refresh, hs]
  | some s =>
    simp only [refresh?, refresh, hs, queryAt?_eq, Option.bind_eq_bind, Option.bind_some]
    cases c.queryAt s.anchor d with
    | error reason => rfl
    | ok query =>
      simp only
      split <;> rfl

@[simp] theorem input?_eq (c : Completer) (d : Draft) (kind : InputKind) :
    c.input? d kind = some (c.input d kind) := by
  unfold input? input
  split
  next => exact c.refresh?_eq d
  next => rfl

theorem move?_eq (c : Completer) {s : MentionSession} (h : s.candidates ≠ []) (down : Bool) :
    c.move? s down = some (c.move s down) := by
  have hpos : 0 < s.candidates.length := List.length_pos_iff.mpr h
  have hone : 1 ≤ s.highlighted.getD 0 + s.candidates.length := by omega
  cases down with
  | true =>
    simp only [move?, remainder?_of_pos hpos]
    rfl
  | false =>
    simp only [move?, Nat.psub_eq_sub hone, remainder?_of_pos hpos]
    rfl

end Completer

end PostEditor
