import PostEditor.Proofs.DraftEdits
import PostEditor.Proofs.FieldFollowing
import Mathlib.Data.List.Infix

namespace PostEditor

namespace Draft

theorem typeChar_at_caret (front rest : Text) (x : Char) :
    typeChar ⟨front ++ rest, .cursor front.bytes⟩ x =
      ⟨front ++ [x] ++ rest, .cursor (front.bytes + x.utf8Size)⟩ := by
  simpa [Selection.cursor] using typeChar_of_split front [] rest x

end Draft

namespace Completer

variable {β : Type} [TextField β]

theorem queryAt_of_split {c : Completer} {p q : Text} (ht : p.getLast? = some c.trigger)
    (hb : ∀ x ∈ q, isBlank x = false) (rest : Text) :
    c.queryAt p.bytes (⟨p ++ q ++ rest, .cursor (p.bytes + q.bytes)⟩ : Draft) = .ok q := by
  have hle : ¬p.bytes + q.bytes < p.bytes := by omega
  have hq := Mention.query_of_split ht hb rest
  simpa [queryAt, TextField.selection, TextField.text, Selection.cursor, hle] using hq

theorem refresh_of_changed {c : Completer} {b : β} {s : MentionSession} {q : Text}
    (hs : c.session = some s) (hq : c.queryAt s.anchor b = .ok q) (changed : q ≠ s.query) :
    c.refresh b = ⟨some (c.tickets.issue (asked q)).1,
      { c with session := some { s with query := q }, tickets := (c.tickets.issue (asked q)).2 }, []⟩ := by
  simp only [refresh, hs, hq, changed, if_false]
  rfl

theorem input_of_trigger {c : Completer} {b : β} {p : Nat} (hs : c.session = none)
    (hc : TextField.selection b = .cursor p) (hp : (TextField.text b).IsBoundary p)
    (ht : ((TextField.text b).before p).getLast? = some c.trigger) :
    c.input b .insert = (c.openAt p).answer some := by
  have hopen : Mention.typedTrigger? (TextField.text b) p c.trigger = some p :=
    Mention.typedTrigger?_eq_some_iff.mpr ⟨rfl, hp, ht⟩
  simp [input, isOpen, hs, hc, Selection.isCursor, Selection.cursor, hopen]

end Completer

/-- The requests that follow ticket number `n` while a query grows from `q` by the characters of a text. -/
def growingRequests (n : Nat) (q : Text) : Text → List Request
  | [] => []
  | x :: w => ⟨⟨n + 1⟩, some (q ++ [x])⟩ :: growingRequests (n + 1) (q ++ [x]) w

theorem growingRequests_number (n : Nat) (q w : Text) :
    (growingRequests n q w).map (·.ticket.number) = List.range' (n + 1) w.length := by
  induction w generalizing n q with
  | nil => rfl
  | cons x w ih => simp [growingRequests, ih, List.range'_succ]

theorem growingRequests_query (n : Nat) (q w : Text) :
    (growingRequests n q w).map (·.query) = w.inits.tail.map fun v => some (q ++ v) := by
  induction w generalizing n q with
  | nil => rfl
  | cons x w ih =>
    have hi : (x :: w).inits.tail = [x] :: w.inits.tail.map (x :: ·) := by cases w <;> simp
    rw [growingRequests, List.map_cons, ih, hi]
    simp [Function.comp_def]

namespace Editor

/-- The caret of a draft stands behind the query `q` of an open mention, between what ends with the trigger and the
rest, and the last ticket issued is current. -/
structure AtQuery (e : Editor Draft) (p q rest : Text) : Prop where
  field : e.field = ⟨p ++ q ++ rest, .cursor (p.bytes + q.bytes)⟩
  session : ∃ s, e.completer.session = some s ∧ s.anchor = p.bytes ∧ s.query = q
  trigger : p.getLast? = some e.completer.trigger
  no_blank : ∀ x ∈ q, isBlank x = false
  current : e.completer.tickets.current = some ⟨e.completer.tickets.issued⟩

theorem type_trigger {c : Completer} (hs : c.session = none) (pre sel post : Text) :
    let e : Editor Draft := ⟨c, ⟨pre ++ sel ++ post, ⟨pre.bytes, pre.bytes + sel.bytes⟩⟩⟩
    let typed := e.edited (e.field.typeChar c.trigger) .insert
    typed.result = some ⟨⟨c.tickets.issued + 1⟩, none⟩ ∧
      typed.state.AtQuery (pre ++ [c.trigger]) [] post ∧
      typed.state.completer.tickets.issued = c.tickets.issued + 1 := by
  intro e typed
  have hd : e.field.typeChar c.trigger =
      ⟨pre ++ [c.trigger] ++ post, .cursor (pre ++ [c.trigger]).bytes⟩ := by
    rw [Text.bytes_append]
    exact Draft.typeChar_of_split pre sel post c.trigger
  have hi : c.input (e.field.typeChar c.trigger) .insert =
      (c.openAt (pre ++ [c.trigger]).bytes).answer some := by
    rw [hd]
    apply Completer.input_of_trigger hs rfl
    · exact Text.isBoundary_bytes_append _ _
    · exact (congrArg List.getLast? (Text.before_bytes_append _ _)).trans (by simp)
  have ht : typed = ((c.openAt (pre ++ [c.trigger]).bytes).answer some).into
      (⟨·, e.field.typeChar c.trigger⟩) := by
    rw [← hi]
    rfl
  rw [ht]
  refine ⟨rfl, ⟨?_, ⟨_, rfl, rfl, rfl⟩, ?_, by simp, rfl⟩, rfl⟩
  · simpa using hd
  · show (pre ++ [c.trigger]).getLast? = some c.trigger
    simp

theorem AtQuery.type_char {e : Editor Draft} {p q rest : Text} (h : e.AtQuery p q rest) {x : Char}
    (hx : isBlank x = false) :
    let typed := e.edited (e.field.typeChar x) .insert
    typed.result = some ⟨⟨e.completer.tickets.issued + 1⟩, some (q ++ [x])⟩ ∧
      typed.state.AtQuery p (q ++ [x]) rest ∧
      typed.state.completer.tickets.issued = e.completer.tickets.issued + 1 := by
  intro typed
  obtain ⟨s, hs, ha, hq⟩ := h.session
  have hd : e.field.typeChar x = ⟨p ++ (q ++ [x]) ++ rest, .cursor (p.bytes + (q ++ [x]).bytes)⟩ := by
    rw [h.field, ← Text.bytes_append, Draft.typeChar_at_caret]
    simp [Nat.add_assoc]
  have hb : ∀ y ∈ q ++ [x], isBlank y = false := by
    intro y hy
    rcases List.mem_append.mp hy with hy | hy
    · exact h.no_blank y hy
    · rw [List.mem_singleton.mp hy]
      exact hx
  have ok : e.completer.queryAt s.anchor (e.field.typeChar x) = .ok (q ++ [x]) := by
    rw [hd, ha]
    exact Completer.queryAt_of_split h.trigger hb rest
  have changed : q ++ [x] ≠ s.query := by
    rw [hq]
    simp
  have ht : typed = (e.completer.refresh (e.field.typeChar x)).into (⟨·, e.field.typeChar x⟩) := by
    have ho : e.completer.isOpen = true := by simp [Completer.isOpen, hs]
    simp [typed, edited, Completer.input, ho]
  rw [ht, Completer.refresh_of_changed hs ok changed]
  exact ⟨by simp [Completer.asked, Tickets.issue, Tickets.next],
    ⟨hd, ⟨_, rfl, ha, rfl⟩, h.trigger, hb, rfl⟩, rfl⟩

theorem AtQuery.type_text {e : Editor Draft} {p q rest w : Text} (h : e.AtQuery p q rest)
    (hw : ∀ x ∈ w, isBlank x = false) :
    (e.typeText w).result = (growingRequests e.completer.tickets.issued q w).map some ∧
      (e.typeText w).state.AtQuery p (q ++ w) rest ∧
      (e.typeText w).state.completer.tickets.issued = e.completer.tickets.issued + w.length := by
  induction w generalizing e q with
  | nil =>
    refine ⟨rfl, ?_, rfl⟩
    rw [List.append_nil]
    exact h
  | cons x w ih =>
    obtain ⟨result, atQuery, issued⟩ := h.type_char (hw x (by simp))
    obtain ⟨results, atEnd, issuedAll⟩ := ih atQuery (fun y hy => hw y (by simp [hy]))
    rw [issued] at results issuedAll
    refine ⟨?_, ?_, ?_⟩
    · simp only [typeText, Report.andThen, Report.answer_result]
      rw [result, results]
      rfl
    · rw [List.append_assoc] at atEnd
      exact atEnd
    · exact issuedAll.trans (by simp; omega)

theorem type_mention {c : Completer} (hs : c.session = none) (pre sel post : Text) {w : Text}
    (hw : ∀ x ∈ w, isBlank x = false) :
    let e : Editor Draft := ⟨c, ⟨pre ++ sel ++ post, ⟨pre.bytes, pre.bytes + sel.bytes⟩⟩⟩
    let typed := e.typeText (c.trigger :: w)
    let first : Request := ⟨⟨c.tickets.issued + 1⟩, none⟩
    typed.result = (first :: growingRequests (c.tickets.issued + 1) [] w).map some ∧
      typed.state.AtQuery (pre ++ [c.trigger]) w post ∧
      typed.state.completer.tickets.issued = c.tickets.issued + 1 + w.length := by
  intro e typed first
  obtain ⟨result, atQuery, issued⟩ := type_trigger hs pre sel post
  obtain ⟨results, atEnd, issuedAll⟩ := atQuery.type_text hw
  rw [issued] at results issuedAll
  refine ⟨?_, atEnd, issuedAll⟩
  simp only [typed, typeText, Report.andThen, Report.answer_result]
  rw [result, results]
  rfl

end Editor

end PostEditor
