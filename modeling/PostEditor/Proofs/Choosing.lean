import PostEditor.Proofs.Typing

namespace PostEditor

namespace Editor

section

variable {β : Type} {e : Editor β} {s : MentionSession}

def showing (e : Editor β) (s : MentionSession) : Editor β :=
  { e with completer := { e.completer with session := some s } }

@[simp] theorem showing_session (e : Editor β) (s : MentionSession) :
    (e.showing s).completer.session = some s := rfl

@[simp] theorem showing_showing (e : Editor β) (s t : MentionSession) :
    (e.showing s).showing t = e.showing t := rfl

theorem showing_self (hs : e.completer.session = some s) : e.showing s = e := by
  simp only [showing, ← hs]

variable [TextField β]

theorem key_arrowDown (hs : e.completer.session = some s) (hc : s.candidates ≠ []) :
    e.key .arrowDown = ⟨.handled, { e with completer := e.completer.move s true }, []⟩ := by
  simp [key, hs, hc]

theorem key_of_commits {k : Key} (hk : k = .enter ∨ k = .tab) (hs : e.completer.session = some s) :
    e.key k = e.commitHighlighted s.highlighted := by
  rcases hk with rfl | rfl <;> simp only [key, hs]

theorem commitHighlighted_of_commit {index : Nat} (h : (e.commit index).result = .ok true) :
    (e.commitHighlighted (some index)).result = .handled ∧
      (e.commitHighlighted (some index)).state = (e.commit index).state := by
  simp [commitHighlighted, Report.andThen, h]

theorem call_arrowDown {j : Nat} (hs : e.completer.session = some s) (hh : s.highlighted = some j)
    (hj : j + 1 < s.candidates.length) :
    e.call (.key .arrowDown) = ⟨.key .handled, e.showing { s with highlighted := some (j + 1) }, []⟩ := by
  have hc : s.candidates ≠ [] := List.length_pos_iff.mp (by omega)
  have hm : e.completer.move s true =
      { e.completer with session := some { s with highlighted := some (j + 1) } } := by
    simp [Completer.move, hh, Nat.mod_eq_of_lt hj]
  show (e.key .arrowDown).answer Answer.key = _
  rw [key_arrowDown hs hc, hm]
  rfl

theorem after_arrowDowns {j k : Nat} (hs : e.completer.session = some s) (hh : s.highlighted = some j)
    (hk : j + k < s.candidates.length) :
    let downs := List.replicate k (Call.key .arrowDown)
    (∀ r ∈ e.history downs, r.result = .key .handled) ∧
      e.after downs = e.showing { s with highlighted := some (j + k) } := by
  induction k generalizing e s j with
  | zero =>
    have h : { s with highlighted := some (j + 0) } = s := by rw [Nat.add_zero, ← hh]
    refine ⟨by simp, ?_⟩
    rw [h, showing_self hs]
    rfl
  | succ k ih =>
    have hd := call_arrowDown hs hh (by omega)
    obtain ⟨handled, later⟩ := ih (e := e.showing { s with highlighted := some (j + 1) }) (j := j + 1)
      (showing_session _ _) rfl (by simp only; omega)
    simp only [List.replicate_succ, history_cons, after_cons, hd]
    refine ⟨?_, ?_⟩
    · intro r hr
      rcases List.mem_cons.mp hr with rfl | hr
      · rfl
      · exact handled r hr
    · rw [later, showing_showing, show j + 1 + k = j + (k + 1) by omega]

end

theorem AtQuery.inMention {e : Editor Draft} {p q rest : Text} (h : e.AtQuery p q rest) :
    InMention e.field p.bytes e.completer.trigger := by
  rw [h.field]
  exact (Completer.queryAt_eq_ok_iff.mp (Completer.queryAt_of_split h.trigger h.no_blank rest)).1

theorem AtQuery.key_commits {e : Editor Draft} {p q rest : Text} {s : MentionSession} {x : Candidate}
    {i : Nat} {k : Key} (h : e.AtQuery p q rest) (hk : k = .enter ∨ k = .tab)
    (hs : e.completer.session = some s) (hh : s.highlighted = some i) (hx : s.candidates[i]? = some x) :
    (e.key k).result = .handled ∧
      (e.key k).state.field = ⟨p ++ x.shown ++ rest, .cursor (p.bytes + x.shown.bytes)⟩ ∧
      (e.key k).state.completer = (e.completer.close .committed).state := by
  obtain ⟨t, ht, ha, _⟩ := h.session
  obtain rfl := Option.some.inj (hs.symm.trans ht)
  have hm : InMention e.field s.anchor e.completer.trigger := by
    rw [ha]
    exact h.inMention
  obtain ⟨result, completer, field⟩ := commit_of_inMention hs hx hm
  obtain ⟨handled, state⟩ := commitHighlighted_of_commit result
  rw [key_of_commits hk hs, hh, state]
  refine ⟨handled, ?_, completer⟩
  have hb : e.field.text.before s.anchor = p := by
    rw [h.field, ha]
    exact Text.before_bytes_append_append p q rest
  have hr : e.field.text.after e.field.selection.stop = rest := by
    rw [h.field]
    exact Text.bytes_append p q ▸ Text.after_bytes_append (p ++ q) rest
  rw [field, hb, hr, ha]

theorem AtQuery.showing {e : Editor Draft} {p q rest : Text} {s : MentionSession}
    (h : e.AtQuery p q rest) (ha : s.anchor = p.bytes) (hq : s.query = q) :
    (e.showing s).AtQuery p q rest :=
  ⟨h.field, ⟨s, rfl, ha, hq⟩, h.trigger, h.no_blank, h.current⟩

theorem AtQuery.isCurrent_iff {e : Editor Draft} {p q rest : Text} (h : e.AtQuery p q rest) (t : Ticket) :
    e.completer.isCurrent t = true ↔ t.number = e.completer.tickets.issued := by
  obtain ⟨s, hs, _⟩ := h.session
  rw [Completer.isCurrent_iff, h.current, Completer.isOpen, hs]
  obtain ⟨number⟩ := t
  simp [eq_comm]

theorem AtQuery.choose {e : Editor Draft} {p q rest : Text} (h : e.AtQuery p q rest) {t : Ticket}
    (ht : e.completer.isCurrent t = true) {found : List Candidate} {i : Nat} (hi : i < found.length)
    {k : Key} (hk : k = .enter ∨ k = .tab) :
    let keys := List.replicate i (.key .arrowDown) ++ [.key k]
    let answered := (e.call (.lookupAnswer t (.ok found))).state
    (∀ r ∈ answered.history keys, r.result = .key .handled) ∧
      (answered.after keys).field =
        ⟨p ++ found[i].shown ++ rest, .cursor (p.bytes + found[i].shown.bytes)⟩ ∧
      (answered.after keys).completer.session = none ∧
      (answered.after keys).completer.tickets.current = none := by
  intro keys answered
  obtain ⟨s, hs, ha, hq⟩ := h.session
  have hf : found ≠ [] := List.length_pos_iff.mp (by omega)
  have current : e.completer.tickets.isCurrent t = true := by
    simp [Tickets.isCurrent, (Completer.isCurrent_iff.mp ht).2]
  let shown : MentionSession := { s with candidates := found, highlighted := some 0, error := none }
  have hanswered : answered = e.showing shown := by
    have hstate := (Completer.applyLookup_taken hs current (.ok found)).2
    simp only [MentionSession.answered, hf, if_false] at hstate
    simp only [answered, call, withCompleter, Report.into_state, Report.answer_state, hstate]
    rfl
  rw [hanswered]
  obtain ⟨handled, hafter⟩ := after_arrowDowns (e := e.showing shown) (j := 0) (k := i) rfl rfl
    (by simpa [shown] using hi)
  have atQuery := h.showing (s := { shown with highlighted := some (0 + i) }) ha hq
  obtain ⟨last, field, completer⟩ := atQuery.key_commits (x := found[i]) hk rfl rfl (by simp [shown, hi])
  rw [showing_showing] at hafter
  rw [history_append, after_append, hafter]
  refine ⟨?_, field, ?_, ?_⟩
  · intro r hr
    rcases List.mem_append.mp hr with hr | hr
    · exact handled r hr
    · rw [List.mem_singleton.mp hr]
      exact congrArg Answer.key last
  · exact congrArg Completer.session completer
  · exact congrArg (fun c => c.tickets.current) completer

theorem typed_requests_last (n : Nat) (w : Text) :
    ∃ older last, (⟨⟨n + 1⟩, none⟩ : Request) :: growingRequests (n + 1) [] w = older ++ [last] ∧
      (older ++ [last]).Pairwise (fun r r' => r.ticket.number < r'.ticket.number) ∧
      last.ticket.number = n + 1 + w.length := by
  have numbers : ((⟨⟨n + 1⟩, none⟩ : Request) :: growingRequests (n + 1) [] w).map (·.ticket.number) =
      List.range' (n + 1) (w.length + 1) := by
    simp [growingRequests_number, List.range'_succ]
  rcases List.eq_nil_or_concat ((⟨⟨n + 1⟩, none⟩ : Request) :: growingRequests (n + 1) [] w) with
    he | ⟨older, last, he⟩
  · cases he
  · rw [List.concat_eq_append] at he
    rw [he] at numbers ⊢
    refine ⟨older, last, rfl, ?_, ?_⟩
    · apply List.pairwise_map.mp
      rw [numbers]
      exact List.pairwise_lt_range'
    · have hlast := congrArg List.getLast? numbers
      simpa [List.getLast?_range'] using hlast

/-- Typing the trigger and a query asks once for each character. Only the last request is answered; then arrows down and
a key that commits put the chosen candidate in place of the query. -/
theorem type_mention_and_choose (c : Completer) (pre sel post w : Text) (found : List Candidate) (i : Nat)
    (k : Key) (closed : c.session = none) (hw : ∀ x ∈ w, isBlank x = false) (hi : i < found.length)
    (hk : k = .enter ∨ k = .tab) :
    let e : Editor Draft := ⟨c, ⟨pre ++ sel ++ post, ⟨pre.bytes, pre.bytes + sel.bytes⟩⟩⟩
    let typed := e.typeText (c.trigger :: w)
    let anchor := pre.bytes + c.trigger.utf8Size
    ∃ older last,
      typed.result = (older ++ [last]).map some ∧
      (older ++ [last]).length = (c.trigger :: w).length ∧
      (older ++ [last]).map (·.query) = none :: w.inits.tail.map some ∧
      (older ++ [last]).Pairwise (fun r r' => r.ticket.number < r'.ticket.number) ∧
      typed.state.completer.anchor? = some anchor ∧
      (∀ r ∈ older ++ [last], ∀ answer,
        (typed.state.completer.applyLookup r.ticket answer).result = true ↔ r = last) ∧
      let keys := List.replicate i (.key .arrowDown) ++ [.key k]
      let answered := (typed.state.call (.lookupAnswer last.ticket (.ok found))).state
      (∀ r ∈ answered.history keys, r.result = .key .handled) ∧
        (answered.after keys).field.text = pre ++ [c.trigger] ++ found[i].shown ++ post ∧
        (answered.after keys).field.selection = .cursor (anchor + found[i].shown.bytes) ∧
        (answered.after keys).completer.session = none ∧
        (answered.after keys).completer.tickets.current = none := by
  intro e typed anchor
  obtain ⟨result, atQuery, issued⟩ := type_mention closed pre sel post hw
  obtain ⟨older, last, hrequests, increasing, hlast⟩ := typed_requests_last c.tickets.issued w
  obtain ⟨s, hs, ha, _⟩ := atQuery.session
  have hanchor : (pre ++ [c.trigger]).bytes = anchor := by simp [anchor]
  have current : typed.state.completer.isCurrent last.ticket = true :=
    (atQuery.isCurrent_iff last.ticket).mpr (hlast.trans issued.symm)
  have chosen := atQuery.choose current hi hk
  refine ⟨older, last, ?_, ?_, ?_, increasing, ?_, ?_, ?_⟩
  · rw [← hrequests]
    exact result
  · have hlength := congrArg List.length (growingRequests_number (c.tickets.issued + 1) [] w)
    rw [← hrequests]
    simpa using hlength
  · rw [← hrequests, List.map_cons, growingRequests_query]
    simp
  · show typed.state.completer.session.map (·.anchor) = some anchor
    rw [hs, ← hanchor, ← ha]
    rfl
  · intro r hr answer
    rw [Completer.applyLookup_result, atQuery.isCurrent_iff, issued, ← hlast]
    refine ⟨?_, fun h => by rw [h]⟩
    intro h
    rcases List.mem_append.mp hr with hr | hr
    · have := (List.pairwise_append.mp increasing).2.2 r hr last (by simp)
      omega
    · exact List.mem_singleton.mp hr
  · rw [hanchor] at chosen
    obtain ⟨handled, field, session, tickets⟩ := chosen
    exact ⟨handled, congrArg Draft.text field, congrArg Draft.selection field, session, tickets⟩

theorem type_mention_and_choose_beyond_ascii :
    let c : Completer := { trigger := 'é', tickets := ⟨3, none⟩ }
    let found : List Candidate := [⟨['a'], ['a']⟩, ⟨['b'], ['β', '!']⟩]
    let pre : Text := ['h', 'é', ' ']
    let e : Editor Draft := ⟨c, ⟨pre ++ ['x'] ++ ['b'], ⟨pre.bytes, pre.bytes + Text.bytes ['x']⟩⟩⟩
    let typed := e.typeText [c.trigger, 'é', 'ñ']
    let keys := List.replicate 1 (.key .arrowDown) ++ [.key .tab]
    c.session = none ∧ (∀ x ∈ ['é', 'ñ'], isBlank x = false) ∧ 1 < found.length ∧
      ∃ last, typed.result.getLast? = some (some last) ∧
        let answered := (typed.state.call (.lookupAnswer last.ticket (.ok found))).state
        (answered.after keys).field.text = ['h', 'é', ' ', 'é', 'β', '!', 'b'] ∧
          (answered.after keys).field.selection = .cursor 9 := by
  intro c found pre e typed keys
  have closed : c.session = none := rfl
  have hw : ∀ x ∈ ['é', 'ñ'], isBlank x = false := by
    intro x hx
    have hx : x = 'é' ∨ x = 'ñ' := by simpa using hx
    rcases hx with rfl | rfl <;> decide
  have hi : 1 < found.length := by decide
  obtain ⟨older, last, hr, _, _, _, _, _, _, text, selection, _⟩ := type_mention_and_choose c
    pre ['x'] ['b'] ['é', 'ñ'] found 1 .tab closed hw hi (Or.inr rfl)
  have hlast : ((older ++ [last]).map some).getLast? = some (some last) := by simp
  refine ⟨closed, hw, hi, last, (congrArg List.getLast? hr).trans hlast, ?_, ?_⟩
  · refine Eq.trans (b := pre ++ [c.trigger] ++ found[1].shown ++ ['b']) ?_ rfl
    with_reducible exact text
  · refine Eq.trans (b := .cursor (pre.bytes + c.trigger.utf8Size + found[1].shown.bytes)) ?_ rfl
    with_reducible exact selection

end Editor

end PostEditor
