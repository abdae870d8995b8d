import PostEditor.Proofs.Typing
import Mathlib.Data.List.ReduceOption
import Mathlib.Logic.Function.Iterate

namespace PostEditor

theorem Draft.backspace_at_caret (front rest : Text) (x : Char) :
    backspace ⟨front ++ [x] ++ rest, .cursor (front ++ [x]).bytes⟩ =
      ⟨front ++ rest, .cursor front.bytes⟩ := by
  have hc : (Selection.cursor (front ++ [x]).bytes).clampTo (front ++ [x] ++ rest) =
      .cursor (front ++ [x]).bytes :=
    Selection.cursor_clampTo (Text.isBoundary_bytes_append (front ++ [x]) rest)
  have hb : (front ++ [x] ++ rest).before (front ++ [x]).bytes = front ++ [x] :=
    Text.before_bytes_append _ _
  have ha : (front ++ [x] ++ rest).after (front ++ [x]).bytes = rest := Text.after_bytes_append _ _
  have hk : (Selection.cursor front.bytes).clampTo (front ++ rest) = .cursor front.bytes :=
    Selection.cursor_clampTo (Text.isBoundary_bytes_append front rest)
  have hcursor : (Selection.cursor (front ++ [x]).bytes).isCursor = true := by
    simp [Selection.isCursor, Selection.cursor]
  simp only [backspace, hc, hcursor, if_true]
  simp only [Selection.cursor] at hb ha hk ⊢
  rw [hb, ha, List.dropLast_concat]
  exact congrArg (Draft.mk _) hk

namespace Completer

variable {β : Type} [TextField β]

theorem input_of_open {c : Completer} {s : MentionSession} (hs : c.session = some s) (b : β)
    (kind : InputKind) : c.input b kind = c.refresh b := by
  have ho : c.isOpen = true := by simp [isOpen, hs]
  simp [input, ho]

theorem refresh_of_ended {c : Completer} {b : β} {s : MentionSession} {reason : CloseReason}
    (hs : c.session = some s) (hq : c.queryAt s.anchor b = .error reason) :
    c.refresh b = (c.close reason).answer fun _ => none := by
  simp only [refresh, hs, hq]

theorem queryAt_of_start_lt {c : Completer} {anchor : Nat} {b : β}
    (h : (TextField.selection b).start < anchor) :
    c.queryAt anchor b = .error .caretBeforeAnchor := by
  simp [queryAt, h]

end Completer

namespace Editor

open Completer

theorem run_replicate_getElem? (e : Editor Draft) (a : Action) {n k : Nat} (hk : k < n) :
    (e.run (List.replicate n a))[k]? = some (((fun e => (e.perform a).state)^[k] e).perform a) := by
  induction n generalizing e k with
  | zero => omega
  | succ n ih =>
    cases k with
    | zero => rfl
    | succ k =>
      have hn := ih (e.perform a).state (k := k) (by omega)
      simpa [List.replicate_succ, run] using hn

theorem AtQuery.backspace_char {e : Editor Draft} {p q rest : Text} {x : Char}
    (h : e.AtQuery p (q ++ [x]) rest) :
    let deleted := e.perform .backspace
    deleted.result = .request (some ⟨⟨e.completer.tickets.issued + 1⟩, asked q⟩) ∧
      deleted.state.AtQuery p q rest ∧
      deleted.state.completer.tickets.issued = e.completer.tickets.issued + 1 := by
  intro deleted
  obtain ⟨s, hs, ha, hq⟩ := h.session
  have hd : e.field.backspace = ⟨p ++ q ++ rest, .cursor (p.bytes + q.bytes)⟩ := by
    have hb := Draft.backspace_at_caret (p ++ q) rest x
    rw [h.field]
    simpa [Nat.add_assoc] using hb
  have hb : ∀ y ∈ q, isBlank y = false := fun y hy => h.no_blank y (by simp [hy])
  have ok : e.completer.queryAt s.anchor e.field.backspace = .ok q := by
    rw [hd, ha]
    exact queryAt_of_split h.trigger hb rest
  have changed : q ≠ s.query := by
    rw [hq]
    simp
  have hi := input_of_open hs e.field.backspace .delete
  rw [refresh_of_changed hs ok changed] at hi
  have ht : deleted = ((e.completer.input e.field.backspace .delete).into
      (⟨·, e.field.backspace⟩)).answer .request := rfl
  rw [ht, hi]
  exact ⟨rfl, ⟨hd, ⟨_, rfl, ha, rfl⟩, h.trigger, hb, rfl⟩, rfl⟩

theorem AtQuery.backspace_trigger {e : Editor Draft} {pre rest : Text} {t : Char}
    (h : e.AtQuery (pre ++ [t]) [] rest) :
    let deleted := e.perform .backspace
    deleted.result = .request none ∧
      deleted.state.completer = (e.completer.close .caretBeforeAnchor).state ∧
      deleted.state.field = ⟨pre ++ rest, .cursor pre.bytes⟩ := by
  intro deleted
  obtain ⟨s, hs, ha, _⟩ := h.session
  have hd : e.field.backspace = ⟨pre ++ rest, .cursor pre.bytes⟩ := by
    have hb := Draft.backspace_at_caret pre rest t
    rw [h.field]
    simpa using hb
  have ended : e.completer.queryAt s.anchor e.field.backspace = .error .caretBeforeAnchor := by
    apply queryAt_of_start_lt
    have hpos := t.utf8Size_pos
    rw [hd, ha]
    show pre.bytes < (pre ++ [t]).bytes
    rw [Text.bytes_append, Text.bytes_cons]
    omega
  have hi := input_of_open hs e.field.backspace .delete
  rw [refresh_of_ended hs ended] at hi
  have ht : deleted = ((e.completer.input e.field.backspace .delete).into
      (⟨·, e.field.backspace⟩)).answer .request := rfl
  rw [ht, hi]
  exact ⟨rfl, rfl, hd⟩

theorem AtQuery.after_backspaces {e : Editor Draft} {p q v rest : Text} (h : e.AtQuery p (q ++ v) rest) :
    let deleted := (fun e => (e.perform .backspace).state)^[v.length] e
    deleted.AtQuery p q rest ∧
      deleted.completer.tickets.issued = e.completer.tickets.issued + v.length := by
  induction v using List.reverseRecOn generalizing e with
  | nil => simpa using h
  | append_singleton v x ih =>
    rw [← List.append_assoc] at h
    obtain ⟨_, next, issuedNext⟩ := h.backspace_char
    obtain ⟨last, issuedLast⟩ := ih next
    rw [List.length_append, List.length_singleton, Function.iterate_succ_apply]
    refine ⟨last, ?_⟩
    rw [issuedLast, issuedNext]
    omega

theorem AtQuery.backspace_report {e : Editor Draft} {p w q v rest : Text} {x : Char}
    (h : e.AtQuery p w rest) (hw : w = q ++ x :: v) {n : Nat} (hn : v.length < n) :
    ∃ r, (e.run (List.replicate n .backspace))[v.length]? = some r ∧
      r.result = .request (some ⟨⟨e.completer.tickets.issued + (v.length + 1)⟩, asked q⟩) ∧
      r.state.AtQuery p q rest := by
  have hv : w = (q ++ [x]) ++ v := by simp [hw]
  rw [hv] at h
  obtain ⟨before, issued⟩ := h.after_backspaces
  obtain ⟨result, after, _⟩ := before.backspace_char
  rw [issued] at result
  exact ⟨_, run_replicate_getElem? e .backspace hn, result, after⟩

/-- To the completer backspaces are calls that hand the same requests back. -/
theorem backspaces_exists_calls (e : Editor Draft) (n : Nat) :
    ∃ calls, (fun e => (e.perform .backspace).state)^[n] e = e.after calls ∧
      requests (e.run (List.replicate n .backspace)) = requests (e.history calls) := by
  induction n generalizing e with
  | zero => exact ⟨[], rfl, rfl⟩
  | succ n ih =>
    obtain ⟨calls, hafter, hrequests⟩ := ih (e.perform .backspace).state
    refine ⟨.edit e.field.backspace :: .input .delete :: calls, ?_, ?_⟩
    · rw [Function.iterate_succ_apply]
      exact hafter
    · have hfirst : (e.perform .backspace).result.request? =
          (((e.call (.edit e.field.backspace)).state).call (.input .delete)).result.request? := rfl
      have hedit : (e.call (.edit e.field.backspace)).result.request? = none := rfl
      simp only [requests] at hrequests ⊢
      simp only [List.replicate_succ, run, history_cons, List.filterMap_cons, hfirst, hedit]
      rw [hrequests]
      rfl

theorem backspaces_number_le (e : Editor Draft) (n : Nat) :
    ∀ r ∈ requests (e.run (List.replicate n .backspace)),
      r.ticket.number ≤ ((fun e => (e.perform .backspace).state)^[n] e).completer.tickets.issued := by
  obtain ⟨calls, hafter, hrequests⟩ := e.backspaces_exists_calls n
  rw [hafter, hrequests]
  exact e.number_le_issued calls

end Editor

end PostEditor
