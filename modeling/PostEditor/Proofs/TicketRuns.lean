import PostEditor.Lookup
import Mathlib.Data.List.Induction

namespace PostEditor

inductive TicketCall
  | issue (query : Option Text)
  | cancel
  deriving DecidableEq, Repr

def TicketCall.query? : TicketCall → Option (Option Text)
  | .issue query => some query
  | .cancel => none

namespace Tickets

def call (s : Tickets) : TicketCall → Option Request × Tickets
  | .issue query => (some (s.issue query).1, (s.issue query).2)
  | .cancel => (none, s.cancel)

def after (s : Tickets) (calls : List TicketCall) : Tickets := calls.foldl (fun s a => (s.call a).2) s

def requests (s : Tickets) : List TicketCall → List Request
  | [] => []
  | a :: rest => (s.call a).1.toList ++ requests (s.call a).2 rest

variable (s : Tickets) (calls : List TicketCall)

@[simp] theorem after_nil : s.after [] = s := rfl

@[simp] theorem after_cons (a : TicketCall) : s.after (a :: calls) = (s.call a).2.after calls := rfl

theorem after_append (later : List TicketCall) : s.after (calls ++ later) = (s.after calls).after later :=
  List.foldl_append

theorem requests_append (later : List TicketCall) :
    s.requests (calls ++ later) = s.requests calls ++ (s.after calls).requests later := by
  induction calls generalizing s with
  | nil => rfl
  | cons a calls ih => simp only [List.cons_append, requests, after_cons, ih, List.append_assoc]

theorem issued_after : (s.after calls).issued = s.issued + (calls.filterMap TicketCall.query?).length := by
  induction calls generalizing s with
  | nil => rfl
  | cons a calls ih =>
    rw [after_cons, ih]
    cases a with
    | issue query =>
      simp only [call, issue, List.filterMap_cons, TicketCall.query?, List.length_cons]
      omega
    | cancel => rfl

theorem requests_eq : s.requests calls =
    (calls.filterMap TicketCall.query?).mapIdx fun n query => ⟨⟨s.issued + n + 1⟩, query⟩ := by
  induction calls generalizing s with
  | nil => rfl
  | cons a calls ih =>
    rw [requests, ih]
    cases a with
    | issue query =>
      have on : ∀ n, s.issued + 1 + n + 1 = s.issued + (n + 1) + 1 := by omega
      simp only [call, issue, next, Option.toList_some, List.singleton_append, List.filterMap_cons, TicketCall.query?,
        List.mapIdx_cons, Nat.add_zero, on]
    | cancel => rfl

theorem requests_increase :
    (s.requests calls).Pairwise fun r r' => r.ticket.number < r'.ticket.number := by
  rw [requests_eq, List.pairwise_iff_getElem]
  intro i j hi hj hij
  simp only [List.getElem_mapIdx]
  omega

theorem number_le_issued_of_mem {r : Request} (h : r ∈ s.requests calls) :
    r.ticket.number ≤ (s.after calls).issued := by
  rw [requests_eq, List.mem_mapIdx] at h
  obtain ⟨n, bound, rfl⟩ := h
  rw [issued_after]
  exact Nat.add_le_add_left bound s.issued

theorem isCurrent_after_append_singleton (a : TicketCall) (t : Ticket) :
    (s.after (calls ++ [a])).isCurrent t = true ↔ (∃ query, a = .issue query) ∧ t = (s.after calls).next := by
  rw [after_append, after_cons, after_nil]
  cases a with
  | issue query => simp [call]
  | cancel => simp [call]

theorem fresh_isCurrent_iff (t : Ticket) :
    (after {} calls).isCurrent t = true ↔
      (∃ query, calls.getLast? = some (.issue query)) ∧
        ∃ r, (requests {} calls).getLast? = some r ∧ r.ticket = t := by
  rcases List.eq_nil_or_concat calls with rfl | ⟨earlier, a, rfl⟩
  · simp [isCurrent]
  · rw [List.concat_eq_append, isCurrent_after_append_singleton, List.getLast?_concat, requests_append]
    cases a with
    | issue query => simp [requests, call, issue, eq_comm]
    | cancel => simp

theorem isCurrent_after_append_eq_false {r : Request} (issued : r ∈ s.requests calls)
    (passed : (s.after calls).isCurrent r.ticket = false) (later : List TicketCall) :
    (s.after (calls ++ later)).isCurrent r.ticket = false := by
  rcases List.eq_nil_or_concat later with rfl | ⟨between, a, rfl⟩
  · rwa [List.append_nil]
  · rw [List.concat_eq_append, ← List.append_assoc, Bool.eq_false_iff]
    intro current
    obtain ⟨_, same⟩ := (isCurrent_after_append_singleton s (calls ++ between) a r.ticket).mp current
    have old := number_le_issued_of_mem s calls issued
    have new : r.ticket.number = (s.after (calls ++ between)).issued + 1 := congrArg Ticket.number same
    rw [after_append, issued_after] at new
    omega

/-- Whatever is cancelled in between, tickets are numbered one after the other, and one is current exactly if the last
thing done was to issue it; one that is no longer current never is again. -/
theorem tickets_number_issues (calls : List TicketCall) :
    let s : Tickets := {}
    let queries := calls.filterMap TicketCall.query?
    s.requests calls = queries.mapIdx (fun n query => ⟨⟨n + 1⟩, query⟩) ∧
      (s.requests calls).Pairwise (fun r r' => r.ticket.number < r'.ticket.number) ∧
      (s.after calls).issued = queries.length ∧
      (∀ t, (s.after calls).isCurrent t = true ↔
        (∃ query, calls.getLast? = some (.issue query)) ∧
          ∃ r, (s.requests calls).getLast? = some r ∧ r.ticket = t) ∧
      (∀ t t', (s.after calls).isCurrent t = true → (s.after calls).isCurrent t' = true → t = t') ∧
      ∀ r ∈ s.requests calls, (s.after calls).isCurrent r.ticket = false →
        ∀ later, (s.after (calls ++ later)).isCurrent r.ticket = false := by
  intro s queries
  refine ⟨?_, s.requests_increase calls, ?_, fresh_isCurrent_iff calls, ?_, ?_⟩
  · simpa [s] using s.requests_eq calls
  · simpa [s] using s.issued_after calls
  · intro t t' current current'
    obtain ⟨_, r, last, rfl⟩ := (fresh_isCurrent_iff calls t).mp current
    obtain ⟨_, r', last', rfl⟩ := (fresh_isCurrent_iff calls t').mp current'
    rw [Option.some.inj (last.symm.trans last')]
  · intro r issued passed
    exact s.isCurrent_after_append_eq_false calls issued passed

example :
    let calls : List TicketCall := [.issue none, .cancel, .issue (some ['é'])]
    requests {} calls = [⟨⟨1⟩, none⟩, ⟨⟨2⟩, some ['é']⟩] ∧ (after {} calls).isCurrent ⟨1⟩ = false := by decide

end Tickets

end PostEditor
