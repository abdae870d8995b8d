import PostEditor.Proofs.Backspaces

namespace PostEditor

namespace Editor

open Completer

/-- Once its mention is closed no request is answered any more, whatever is called. -/
theorem never_answered_of_closed {β : Type} [TextField β] {e : Editor β} {c : Completer} {reason : CloseReason}
    {t : Ticket} (he : e.completer = (c.close reason).state) (ht : t.number ≤ c.tickets.issued)
    (later : List (Call β)) (answer : Except Failure (List Candidate)) :
    ((e.after later).completer.applyLookup t answer).result = false := by
  have spent : e.completer.Spent t := by
    rw [he]
    exact ⟨ht, by simp [Tickets.cancel]⟩
  rw [applyLookup_result]
  exact (after_spent spent later).not_isCurrent

theorem typeText_at_caret {c : Completer} (hs : c.session = none) (pre post : Text) {w : Text}
    (hw : ∀ x ∈ w, isBlank x = false) :
    let typed := (⟨c, ⟨pre ++ post, .cursor pre.bytes⟩⟩ : Editor Draft).typeText (c.trigger :: w)
    typed.state.AtQuery (pre ++ [c.trigger]) w post ∧
      typed.state.completer.tickets.issued = c.tickets.issued + 1 + w.length ∧
      ∀ r ∈ typed.result.reduceOption, r.ticket.number ≤ typed.state.completer.tickets.issued := by
  intro typed
  obtain ⟨result, atQuery, issued⟩ :
      typed.result = ((⟨⟨c.tickets.issued + 1⟩, none⟩ : Request) ::
          growingRequests (c.tickets.issued + 1) [] w).map some ∧
        typed.state.AtQuery (pre ++ [c.trigger]) w post ∧
        typed.state.completer.tickets.issued = c.tickets.issued + 1 + w.length := by
    simpa [typed, Selection.cursor] using type_mention hs pre [] post hw
  refine ⟨atQuery, issued, ?_⟩
  intro r hr
  rw [List.reduceOption_mem_iff, result] at hr
  obtain ⟨q, hq, he⟩ := List.mem_map.mp hr
  obtain rfl := Option.some.inj he
  rcases List.mem_cons.mp hq with rfl | hq
  · simp only [issued]
    omega
  · have hn := List.mem_map_of_mem (f := fun r : Request => r.ticket.number) hq
    rw [growingRequests_number, List.mem_range'_1] at hn
    omega

/-- Each backspace takes one character off a typed query and asks for the rest; the next one takes the trigger, closes
the mention, and no request made for it is answered any more. -/
theorem backspaces_close_at_trigger (c : Completer) (pre post w : Text) (closed : c.session = none)
    (hw : ∀ x ∈ w, isBlank x = false) :
    let e : Editor Draft := ⟨c, ⟨pre ++ post, .cursor pre.bytes⟩⟩
    let typed := e.typeText (c.trigger :: w)
    let reports := typed.state.run (List.replicate (w.length + 1) .backspace)
    let anchor := pre.bytes + c.trigger.utf8Size
    typed.state.completer.anchor? = some anchor ∧
      (∀ k < w.length, ∃ r, reports[k]? = some r ∧
        let remaining := w.take (w.length - (k + 1))
        let ticket : Ticket := ⟨c.tickets.issued + 1 + w.length + (k + 1)⟩
        r.result = .request (some ⟨ticket, if remaining = [] then none else some remaining⟩) ∧
          r.state.completer.anchor? = some anchor ∧
          r.state.field.text = pre ++ [c.trigger] ++ remaining ++ post) ∧
      ∃ last, reports[w.length]? = some last ∧ last.result = .request none ∧
        last.state.completer.session = none ∧
        last.state.field = ⟨pre ++ post, .cursor pre.bytes⟩ ∧
        ∀ r ∈ typed.result.reduceOption ++ requests reports, ∀ later answer,
          ((last.state.after later).completer.applyLookup r.ticket answer).result = false := by
  intro e typed reports anchor
  obtain ⟨atQuery, issued, typedBound⟩ := typeText_at_caret closed pre post hw
  have open_at : ∀ {e : Editor Draft} {q : Text}, e.AtQuery (pre ++ [c.trigger]) q post →
      e.completer.anchor? = some anchor := by
    intro e q h
    obtain ⟨s, hs, ha, _⟩ := h.session
    simp [Completer.anchor?, hs, ha, anchor]
  obtain ⟨before, issuedBefore⟩ := AtQuery.after_backspaces (q := []) (v := w) atQuery
  obtain ⟨result, completer, field⟩ := before.backspace_trigger
  have hlast := run_replicate_getElem? typed.state .backspace (Nat.lt_succ_self w.length)
  refine ⟨open_at atQuery, ?_, _, hlast, result, ?_, field, ?_⟩
  · intro k hk
    have hi : w.length - (k + 1) < w.length := by omega
    have hv : (w.drop (w.length - (k + 1) + 1)).length = k := by
      rw [List.length_drop]
      omega
    have hsplit : w = w.take (w.length - (k + 1)) ++ w[w.length - (k + 1)] ::
        w.drop (w.length - (k + 1) + 1) := by
      rw [← List.drop_eq_getElem_cons hi, List.take_append_drop]
    have report := atQuery.backspace_report hsplit (n := w.length + 1) (by omega)
    rw [hv, issued] at report
    obtain ⟨r, hr, asks, after⟩ := report
    exact ⟨r, hr, asks, open_at after, congrArg Draft.text after.field⟩
  · rw [completer]
    rfl
  · intro r hr later answer
    apply never_answered_of_closed completer
    rcases List.mem_append.mp hr with hr | hr
    · rw [issuedBefore]
      exact Nat.le_add_right_of_le (typedBound r hr)
    · have bound := typed.state.backspaces_number_le (w.length + 1) r hr
      rw [Function.iterate_succ_apply', completer] at bound
      exact bound

theorem backspaces_close_at_trigger_beyond_ascii :
    let c : Completer := { trigger := 'é', tickets := ⟨3, none⟩ }
    let e : Editor Draft := ⟨c, ⟨['h', 'é'] ++ ['b'], .cursor (Text.bytes ['h', 'é'])⟩⟩
    let typed := e.typeText [c.trigger, 'é', 'ñ']
    let reports := typed.state.run (List.replicate 3 .backspace)
    c.session = none ∧ (∀ x ∈ ['é', 'ñ'], isBlank x = false) ∧
      (∃ r, reports[0]? = some r ∧ r.result = .request (some ⟨⟨7⟩, some ['é']⟩)) ∧
      ∃ last, reports[2]? = some last ∧ last.result = .request none ∧
        last.state.completer.session = none ∧
        last.state.field = ⟨['h', 'é', 'b'], .cursor 3⟩ := by
  intro c e typed reports
  have closed : c.session = none := rfl
  have hw : ∀ x ∈ ['é', 'ñ'], isBlank x = false := by
    intro x hx
    have hx : x = 'é' ∨ x = 'ñ' := by simpa using hx
    rcases hx with rfl | rfl <;> decide
  obtain ⟨_, shorter, last, hr, result, session, field, _⟩ :=
    backspaces_close_at_trigger c ['h', 'é'] ['b'] ['é', 'ñ'] closed hw
  obtain ⟨r, hfirst, asks, _⟩ := shorter 0 (by decide)
  exact ⟨closed, hw, ⟨r, hfirst, asks⟩, last, hr, result, session, field⟩

end Editor

end PostEditor
