import PostEditor.Proofs.Exchange
import PostEditor.Proofs.LastRequest
import Mathlib.Data.List.Induction
import Mathlib.Data.List.Nodup
import Mathlib.Data.List.Perm.Subperm

namespace PostEditor

def Completer.HoldsQueryOf (c : Completer) (r : Request) : Prop :=
  ∃ s, c.session = some s ∧ r.query = asked s.query

theorem Completer.Step.ticket_eq_next {c c' : Completer} {r : Request} (h : Step c (some r) c') :
    r.ticket = c.tickets.next := by
  cases h <;> rfl

namespace Editor

open Completer

variable {β : Type}

theorem requests_append (h g : List (Report (Editor β) Answer)) :
    requests (h ++ g) = requests h ++ requests g :=
  List.filterMap_append

variable [TextField β]

theorem requests_pairwise (trigger : Char) (b : β) (calls : List (Call β)) :
    (requests ((⟨{ trigger }, b⟩ : Editor β).history calls)).Pairwise
      (fun r r' => r.ticket.number < r'.ticket.number) := by
  induction calls using List.reverseRecOn with
  | nil => exact List.Pairwise.nil
  | append_singleton calls a ih =>
    have bound := requests_number_le trigger b calls
    have step := ((⟨{ trigger }, b⟩ : Editor β).after calls).call_step a
    rw [history_append, history_cons, history_nil, requests_append_singleton, List.pairwise_append]
    refine ⟨ih, ?_, ?_⟩
    · cases (((⟨{ trigger }, b⟩ : Editor β).after calls).call a).result.request? <;> simp
    · intro r hr r' hr'
      rw [Option.mem_toList.mp hr'] at step
      have hle := bound r hr
      have hnext := congrArg Ticket.number step.ticket_eq_next
      simp only [Tickets.next] at hnext
      omega

end Editor

namespace Exchange

open Completer Editor

variable {β : Type}

/-- What waits and what has been sent are different ones of the requests handed back, and only what has been sent is
under way. -/
structure Accounted (p : Progress β) : Prop where
  requested : (p.exchange.dispatch.waiting.map (·.request) ++ p.started.map (·.request)).Subperm
    (requests p.reports)
  underway : ∀ s ∈ p.exchange.dispatch.sent, s ∈ p.started

theorem Accounted.mem_of_waiting {p : Progress β} (h : Accounted p) {w : Waiting}
    (hw : w ∈ p.exchange.dispatch.waiting) : w.request ∈ requests p.reports :=
  h.requested.subset (List.mem_append_left _ (List.mem_map_of_mem hw))

theorem Accounted.mem_of_sent {p : Progress β} (h : Accounted p) {s : Sent}
    (hs : s ∈ p.exchange.dispatch.sent) : s.request ∈ requests p.reports :=
  h.requested.subset (List.mem_append_right _ (List.mem_map_of_mem (h.underway s hs)))

theorem Accounted.call {p : Progress β} (h : Accounted p) (r : Report (Editor β) Answer) (due : Nat) :
    Accounted ⟨p.exchange.called r due, p.reports ++ [r], p.started⟩ := by
  obtain ⟨requested, underway⟩ := h
  cases hr : r.result.request? with
  | none =>
    refine ⟨?_, ?_⟩
    · simpa [called, hr, requests_append_singleton] using requested
    · simpa [called, hr] using underway
  | some request =>
    refine ⟨?_, ?_⟩
    · have moved : ((p.exchange.dispatch.waiting.map (·.request) ++ [request]) ++
          p.started.map (·.request)).Perm
          ((p.exchange.dispatch.waiting.map (·.request) ++ p.started.map (·.request)) ++ [request]) := by
        rw [List.append_assoc, List.append_assoc]
        exact List.Perm.append_left _ List.perm_append_comm
      have grown := moved.subperm.trans ((List.subperm_append_right [request]).mpr requested)
      simpa [called, hr, Dispatch.wait, requests_append_singleton] using grown
    · simpa [called, hr, Dispatch.wait] using underway

theorem Accounted.fire {p : Progress β} (h : Accounted p) {w : Waiting}
    (hw : w ∈ p.exchange.dispatch.waiting) (number : Nat) :
    let fired := p.exchange.dispatch.fire w number
    Accounted ⟨⟨fired.2, p.exchange.field⟩, p.reports, p.started ++ fired.1.toList⟩ := by
  obtain ⟨requested, underway⟩ := h
  have split : (p.exchange.dispatch.waiting.map (·.request)).Perm
      (w.request :: (p.exchange.dispatch.waiting.erase w).map (·.request)) :=
    (List.perm_cons_erase hw).map _
  intro fired
  by_cases hc : p.exchange.dispatch.completer.isCurrent w.request.ticket = true
  · have hfired : fired = (some ⟨w.request, number⟩,
        { p.exchange.dispatch with
          waiting := p.exchange.dispatch.waiting.erase w,
          sent := p.exchange.dispatch.sent ++ [⟨w.request, number⟩] }) := by
      simp [fired, Dispatch.fire, hc]
    rw [hfired]
    refine ⟨?_, ?_⟩
    · have moved : ((p.exchange.dispatch.waiting.erase w).map (·.request) ++
          (p.started.map (·.request) ++ [w.request])).Perm
          (p.exchange.dispatch.waiting.map (·.request) ++ p.started.map (·.request)) := by
        have hlast := List.perm_append_singleton w.request
          ((p.exchange.dispatch.waiting.erase w).map (·.request) ++ p.started.map (·.request))
        rw [List.append_assoc] at hlast
        exact hlast.trans (split.symm.append_right _)
      simpa using moved.subperm.trans requested
    · intro s hs
      rcases List.mem_append.mp hs with hs | hs
      · exact List.mem_append_left _ (underway s hs)
      · exact List.mem_append_right _ hs
  · have hfired : fired = (none, { p.exchange.dispatch with
        waiting := p.exchange.dispatch.waiting.erase w }) := by
      simp [fired, Dispatch.fire, hc]
    rw [hfired]
    refine ⟨?_, ?_⟩
    · have dropped : ((p.exchange.dispatch.waiting.erase w).map (·.request)).Sublist
          (p.exchange.dispatch.waiting.map (·.request)) :=
        List.erase_sublist.map _
      simpa using (dropped.append_right (p.started.map (·.request))).subperm.trans requested
    · simpa using underway

theorem Accounted.answered {p : Progress β} (h : Accounted p) (s : Sent)
    (answer : Except Failure (List Candidate)) (report : Report (Editor β) Answer)
    (hr : report.result.request? = none) :
    Accounted ⟨⟨(p.exchange.dispatch.answered s answer).state, p.exchange.field⟩,
      p.reports ++ [report], p.started⟩ := by
  obtain ⟨requested, underway⟩ := h
  refine ⟨?_, ?_⟩
  · rw [requests_append_singleton, hr]
    simpa [Dispatch.answered] using requested
  · intro q hq
    exact underway q (List.mem_of_mem_erase hq)

theorem tickets_nodup {h : List Request}
    (increasing : h.Pairwise (fun r r' => r.ticket.number < r'.ticket.number)) :
    (h.map (·.ticket)).Nodup := by
  refine List.pairwise_map.mpr (increasing.imp ?_)
  intro r r' hlt he
  exact absurd (congrArg Ticket.number he) (Nat.ne_of_lt hlt)

theorem Accounted.nodup {p : Progress β} (h : Accounted p)
    (increasing : (requests p.reports).Pairwise (fun r r' => r.ticket.number < r'.ticket.number)) :
    ((p.exchange.dispatch.waiting.map (·.request)).map (·.ticket) ++
      (p.started.map (·.request)).map (·.ticket)).Nodup := by
  obtain ⟨part, hperm, hsub⟩ := h.requested
  have distinct := (tickets_nodup increasing).sublist (hsub.map _)
  rw [← List.map_append]
  exact ((hperm.map (·.ticket)).nodup_iff).mp distinct

theorem number_le_last {h : List Request}
    (increasing : h.Pairwise (fun r r' => r.ticket.number < r'.ticket.number)) {r last : Request}
    (hl : h.getLast? = some last) (hr : r ∈ h) : r.ticket.number ≤ last.ticket.number := by
  obtain ⟨earlier, rfl⟩ := List.getLast?_eq_some_iff.mp hl
  rcases List.mem_append.mp hr with hr | hr
  · exact Nat.le_of_lt ((List.pairwise_append.mp increasing).2.2 r hr last (by simp))
  · exact Nat.le_of_eq (by rw [List.mem_singleton.mp hr])

variable [TextField β]

theorem Accounted.move {p : Progress β} (h : Accounted p) (m : Move β) :
    let q := p.exchange.move m
    Accounted ⟨q.exchange, p.reports ++ q.reports, p.started ++ q.started⟩ := by
  intro q
  have stays : Accounted ⟨p.exchange, p.reports ++ [], p.started ++ []⟩ := by simpa using h
  cases m with
  | call a due =>
    have hc := h.call (p.exchange.editor.call a) due
    simpa [q, Exchange.move] using hc
  | waitOver index number =>
    cases hw : p.exchange.dispatch.waiting[index]? with
    | none => simpa [q, Exchange.move, hw] using stays
    | some w =>
      have hf := h.fire (List.mem_of_getElem? hw) number
      simpa [q, Exchange.move, hw] using hf
  | fetchOver index answer =>
    cases hs : p.exchange.dispatch.sent[index]? with
    | none => simpa [q, Exchange.move, hs] using stays
    | some s =>
      have ha := h.answered s answer (((p.exchange.dispatch.answered s answer).answer .flag).into
        fun d => ⟨d.completer, p.exchange.field⟩) rfl
      simpa [q, Exchange.move, hs] using ha

theorem run_accounted (c : Completer) (b : β) (moves : List (Move β)) :
    Accounted ((⟨{ completer := c }, b⟩ : Exchange β).run moves) := by
  induction moves using List.reverseRecOn with
  | nil => exact ⟨List.nil_subperm, by simp [run]⟩
  | append_singleton moves m ih =>
    rw [run_append_singleton]
    exact ih.move m

end Exchange

end PostEditor
