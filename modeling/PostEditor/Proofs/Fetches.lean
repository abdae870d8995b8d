import PostEditor.Proofs.OpenMentions
import PostEditor.Proofs.RequestAccounts

namespace PostEditor

namespace Exchange

open Completer Editor

variable {β : Type} [TextField β]

theorem mem_started_move {x : Exchange β} {m : Move β} {s : Sent} (h : s ∈ (x.move m).started) :
    ∃ w ∈ x.dispatch.waiting, s.request = w.request ∧
      x.dispatch.completer.isCurrent s.request.ticket = true := by
  cases m with
  | call a due => simp [move] at h
  | waitOver index number =>
    cases hw : x.dispatch.waiting[index]? with
    | none => simp [move, hw] at h
    | some w =>
      by_cases hc : x.dispatch.completer.isCurrent w.request.ticket = true
      · have hs : s = ⟨w.request, number⟩ := by simpa [move, hw, Dispatch.fire, hc] using h
        rw [hs]
        exact ⟨w, List.mem_of_getElem? hw, rfl, hc⟩
      · simp [move, hw, Dispatch.fire, hc] at h
  | fetchOver index answer =>
    cases hs : x.dispatch.sent[index]? <;> simp [move, hs] at h

section

variable (trigger : Char) (b : β) (moves : List (Move β))

theorem run_requests_pairwise :
    (requests ((⟨{ completer := { trigger } }, b⟩ : Exchange β).run moves).reports).Pairwise
      (fun r r' => r.ticket.number < r'.ticket.number) := by
  obtain ⟨calls, _, hreports⟩ :=
    (⟨{ completer := { trigger } }, b⟩ : Exchange β).run_exists_calls moves
  rw [hreports]
  exact requests_pairwise trigger b calls

/-- A request whose ticket is current is the last one handed back, with its mention open since, and asks for the query
of that mention. -/
theorem current_request_asks {r : Request} :
    let p := (⟨{ completer := { trigger } }, b⟩ : Exchange β).run moves
    r ∈ requests p.reports → p.exchange.dispatch.completer.isCurrent r.ticket = true →
      (requests p.reports).getLast? = some r ∧ Outstanding p.reports r.ticket ∧
        p.exchange.dispatch.completer.HoldsQueryOf r := by
  intro p hr hc
  have increasing := run_requests_pairwise trigger b moves
  obtain ⟨calls, hafter, hreports⟩ :=
    (⟨{ completer := { trigger } }, b⟩ : Exchange β).run_exists_calls moves
  have hcompleter : p.exchange.dispatch.completer =
      ((⟨{ trigger }, b⟩ : Editor β).after calls).completer := congrArg Editor.completer hafter
  have hhistory : p.reports = (⟨{ trigger }, b⟩ : Editor β).history calls := hreports
  have outstanding := (isCurrent_iff_outstanding trigger b calls r.ticket).mp (hcompleter ▸ hc)
  have askedLast := after_askedLast trigger b calls
  rw [← hcompleter, ← hhistory] at askedLast
  rw [← hhistory] at outstanding
  obtain ⟨s, hs⟩ := Option.isSome_iff_exists.mp (isCurrent_iff.mp hc).1
  obtain ⟨last, hlast, hcurrent, hquery⟩ := askedLast s hs
  have hticket : r.ticket = last.ticket :=
    Option.some.inj ((isCurrent_iff.mp hc).2.symm.trans (isCurrent_iff.mp hcurrent).2)
  obtain rfl := List.inj_on_of_nodup_map (tickets_nodup increasing) hr (List.mem_of_getLast? hlast) hticket
  exact ⟨hlast, outstanding, s, hs, hquery⟩

theorem started_request_asks {m : Move β} {s : Sent} :
    let p := (⟨{ completer := { trigger } }, b⟩ : Exchange β).run moves
    s ∈ (p.exchange.move m).started →
      (requests p.reports).getLast? = some s.request ∧ Outstanding p.reports s.request.ticket ∧
        p.exchange.dispatch.completer.HoldsQueryOf s.request := by
  intro p hs
  obtain ⟨w, hw, hr, hc⟩ := mem_started_move hs
  rw [hr] at hc ⊢
  exact current_request_asks trigger b moves ((run_accounted _ b moves).mem_of_waiting hw) hc

end

/-- However calls, waits and fetches interleave: a ticket is sent at most once, and only as the newest one, for the
query of the mention that has been open ever since; an answer is taken only from such a fetch. -/
theorem fetches_ask_for_open_query (trigger : Char) (b : β) (moves : List (Move β)) :
    let x : Exchange β := ⟨{ completer := { trigger } }, b⟩
    let p := x.run moves
    let d := p.exchange.dispatch
    (p.started.map (·.request.ticket)).Nodup ∧
      (∀ m, ∀ s ∈ (p.exchange.move m).started,
        (requests p.reports).getLast? = some s.request ∧ Outstanding p.reports s.request.ticket ∧
          d.completer.HoldsQueryOf s.request) ∧
      (∀ later, ∀ w ∈ d.waiting, ∀ v ∈ d.waiting, ∀ s ∈ (x.run (moves ++ later)).started,
        s.request = w.request → v.request.ticket.number ≤ w.request.ticket.number) ∧
      ∀ s ∈ d.sent, ∀ answer, (d.answered s answer).result = true →
        s ∈ p.started ∧ d.completer.HoldsQueryOf s.request := by
  intro x p d
  have accounted : Accounted p := run_accounted _ b moves
  have once := accounted.nodup (run_requests_pairwise trigger b moves)
  refine ⟨?_, fun m s hs => started_request_asks trigger b moves hs, ?_, ?_⟩
  · have sent := (List.nodup_append.mp once).2.1
    rwa [List.map_map] at sent
  · intro later w hw v hv s hs he
    rw [congrArg Progress.started (x.run_append moves later)] at hs
    rcases List.mem_append.mp hs with hs | hs
    · have hmem : w.request.ticket ∈ (p.started.map (·.request)).map (·.ticket) := by
        rw [← he]
        exact List.mem_map_of_mem (List.mem_map_of_mem hs)
      exact absurd rfl ((List.nodup_append.mp once).2.2 _
        (List.mem_map_of_mem (List.mem_map_of_mem hw)) _ hmem)
    · obtain ⟨earlier, m, rest, rfl, hm⟩ := exists_move_of_mem_started hs
      have hreports := congrArg Progress.reports (x.run_append moves earlier)
      rw [← congrArg Progress.exchange (x.run_append moves earlier)] at hm
      obtain ⟨hlast, _⟩ := started_request_asks trigger b (moves ++ earlier) hm
      rw [he] at hlast
      have hmem : v.request ∈ requests (x.run (moves ++ earlier)).reports := by
        rw [hreports, requests_append]
        exact List.mem_append_left _ (accounted.mem_of_waiting hv)
      exact number_le_last (run_requests_pairwise trigger b (moves ++ earlier)) hlast hmem
  · intro s hs answer taken
    have hc : d.completer.isCurrent s.request.ticket = true := by
      rw [← applyLookup_result d.completer s.request.ticket answer]
      exact taken
    obtain ⟨_, _, asks⟩ := current_request_asks trigger b moves (accounted.mem_of_sent hs) hc
    exact ⟨accounted.underway s hs, asks⟩

example :
    ((⟨{ completer := {} }, Draft.ofText []⟩ : Exchange Draft).run
      [.call (.edit (Draft.ofText ['@'])) 0, .call (.input .insert) 0,
        .call (.edit (Draft.ofText ['@', 'é'])) 0, .call (.input .insert) 0,
        .waitOver 0 1, .waitOver 0 1]).started = [⟨⟨⟨2⟩, some ['é']⟩, 1⟩] := by decide

end Exchange

end PostEditor
