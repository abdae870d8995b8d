import PostEditor.Proofs.CompleterStep

namespace PostEditor

def MentionSession.answered (s : MentionSession) : Except Failure (List Candidate) → MentionSession
  | .ok found =>
    let highlighted := if found = [] then none else some 0
    { s with candidates := found, highlighted, error := none }
  | .error failure => { s with candidates := [], highlighted := none, error := some failure.message }

namespace Completer

def Coherent (c : Completer) : Prop := c.isOpen = false → c.tickets.current = none

def Spent (c : Completer) (t : Ticket) : Prop :=
  t.number ≤ c.tickets.issued ∧ c.tickets.current ≠ some t

theorem isCurrent_iff {c : Completer} {t : Ticket} :
    c.isCurrent t = true ↔ c.isOpen = true ∧ c.tickets.current = some t := by
  simp [isCurrent, Tickets.isCurrent]

theorem Coherent.isCurrent_eq {c : Completer} (h : c.Coherent) (t : Ticket) :
    c.isCurrent t = c.tickets.isCurrent t := by
  cases ho : c.isOpen with
  | true => simp [isCurrent, ho]
  | false => simp [isCurrent, ho, Tickets.isCurrent, h ho]

theorem Coherent.isOpen_of_isCurrent {c : Completer} (h : c.Coherent) {t : Ticket}
    (ht : c.tickets.isCurrent t = true) : c.isOpen = true := by
  rw [← h.isCurrent_eq, isCurrent_iff] at ht
  exact ht.1

theorem Coherent.spent {c : Completer} (h : c.Coherent) {t : Ticket} (issued : t.number ≤ c.tickets.issued)
    (ht : c.isCurrent t = false) : c.Spent t := by
  refine ⟨issued, ?_⟩
  intro hc
  rw [h.isCurrent_eq] at ht
  simp [Tickets.isCurrent, hc] at ht

theorem Spent.not_isCurrent {c : Completer} {t : Ticket} (h : c.Spent t) : c.isCurrent t = false := by
  by_contra hc
  rw [Bool.not_eq_false, isCurrent_iff] at hc
  exact h.2 hc.2

theorem Step.coherent {c c' : Completer} {r : Option Request} (h : Step c r c') (hc : c.Coherent) :
    c'.Coherent := by
  cases h with
  | opened anchor => intro ho; cases ho
  | asked session changed => intro ho; cases ho
  | closed => exact fun _ => rfl
  | shown session anchor query => intro ho; cases ho
  | stayed => exact hc

theorem Step.isCurrent_iff {c c' : Completer} {r : Option Request} (h : Step c r c') (t : Ticket) :
    c'.isCurrent t = true ↔ r.map (·.ticket) = some t ∨
      r = none ∧ c'.isOpen = true ∧ c.isCurrent t = true := by
  cases h with
  | opened anchor => simp [Completer.isCurrent_iff, isOpen, Tickets.issue]
  | asked session changed => simp [Completer.isCurrent_iff, isOpen, Tickets.issue]
  | closed => simp [Completer.isCurrent_iff, isOpen]
  | shown session anchor query => simp [Completer.isCurrent_iff, isOpen, session]
  | stayed => simp [Completer.isCurrent_iff]

theorem Step.issued_le {c c' : Completer} {r : Option Request} (h : Step c r c') :
    c.tickets.issued ≤ c'.tickets.issued := by
  cases h with
  | opened anchor => exact Nat.le_succ _
  | asked session changed => exact Nat.le_succ _
  | closed => exact Nat.le_refl _
  | shown session anchor query => exact Nat.le_refl _
  | stayed => exact Nat.le_refl _

theorem Step.request_number {c c' : Completer} {r : Request} (h : Step c (some r) c') :
    r.ticket.number = c'.tickets.issued := by
  cases h <;> rfl

/-- A ticket that is no longer current never becomes current again: new tickets have greater numbers. -/
theorem Step.spent {c c' : Completer} {r : Option Request} (h : Step c r c') {t : Ticket}
    (hs : c.Spent t) : c'.Spent t := by
  obtain ⟨hle, hne⟩ := hs
  have fresh : c.tickets.next ≠ t := by
    intro he
    have : t.number = c.tickets.issued + 1 := by rw [← he]; rfl
    omega
  cases h with
  | opened anchor =>
    refine ⟨Nat.le_succ_of_le hle, ?_⟩
    exact fun he => fresh (Option.some.inj he)
  | asked session changed =>
    refine ⟨Nat.le_succ_of_le hle, ?_⟩
    exact fun he => fresh (Option.some.inj he)
  | closed => exact ⟨hle, by simp [Tickets.cancel]⟩
  | shown session anchor query => exact ⟨hle, hne⟩
  | stayed => exact ⟨hle, hne⟩

theorem applyLookup_taken {c : Completer} {s : MentionSession} {t : Ticket} (hs : c.session = some s)
    (ht : c.tickets.isCurrent t = true) (answer : Except Failure (List Candidate)) :
    (c.applyLookup t answer).result = true ∧
      (c.applyLookup t answer).state = { c with session := some (s.answered answer) } := by
  cases answer with
  | ok found => simp [applyLookup, hs, ht, MentionSession.answered]
  | error failure => simp [applyLookup, hs, ht, MentionSession.answered]

theorem applyLookup_dropped {c : Completer} {t : Ticket} (h : c.isCurrent t = false)
    (answer : Except Failure (List Candidate)) :
    (c.applyLookup t answer).result = false ∧ (c.applyLookup t answer).state = c := by
  cases ht : c.tickets.isCurrent t with
  | false =>
    rw [applyLookup_of_not_isCurrent ht]
    exact ⟨rfl, rfl⟩
  | true =>
    have hs : c.session = none := by simpa [isCurrent, isOpen, ht] using h
    simp [applyLookup, ht, hs]

theorem applyLookup_result (c : Completer) (t : Ticket) (answer : Except Failure (List Candidate)) :
    (c.applyLookup t answer).result = c.isCurrent t := by
  cases h : c.isCurrent t with
  | false => exact (applyLookup_dropped h answer).1
  | true =>
    obtain ⟨ho, hc⟩ := isCurrent_iff.mp h
    obtain ⟨s, hs⟩ := Option.isSome_iff_exists.mp ho
    exact (applyLookup_taken hs (by simp [Tickets.isCurrent, hc]) answer).1

end Completer

namespace Editor

open Completer

variable {β : Type}

def requests (h : List (Report (Editor β) Answer)) : List Request :=
  h.filterMap (·.result.request?)

/-- `t` is the ticket of the last request that was handed back, and a mention has been open ever since. -/
def Outstanding (h : List (Report (Editor β) Answer)) (t : Ticket) : Prop :=
  ∃ earlier q later, h = earlier ++ q :: later ∧ q.result.request?.map (·.ticket) = some t ∧
    ∀ r ∈ later, r.result.request? = none ∧ r.state.completer.isOpen = true

theorem requests_append_singleton (h : List (Report (Editor β) Answer)) (q : Report (Editor β) Answer) :
    requests (h ++ [q]) = requests h ++ q.result.request?.toList := by
  cases hr : q.result.request? <;> simp [requests, hr]

theorem outstanding_nil (t : Ticket) : ¬Outstanding ([] : List (Report (Editor β) Answer)) t := by
  rintro ⟨earlier, q, later, he, _⟩
  simp at he

theorem outstanding_append_singleton {h : List (Report (Editor β) Answer)}
    {q : Report (Editor β) Answer} {t : Ticket} :
    Outstanding (h ++ [q]) t ↔ q.result.request?.map (·.ticket) = some t ∨
      q.result.request? = none ∧ q.state.completer.isOpen = true ∧ Outstanding h t := by
  constructor
  · rintro ⟨earlier, p, later, he, hp, hl⟩
    rcases List.eq_nil_or_concat later with rfl | ⟨later, r, rfl⟩
    · obtain ⟨_, hq⟩ := List.append_inj' he rfl
      rw [List.singleton_inj.mp hq]
      exact Or.inl hp
    · have he : h ++ [q] = (earlier ++ p :: later) ++ [r] := by simpa using he
      obtain ⟨rfl, hq⟩ := List.append_inj' he rfl
      obtain rfl := List.singleton_inj.mp hq
      obtain ⟨hr, ho⟩ := hl q (by simp)
      exact Or.inr ⟨hr, ho, earlier, p, later, rfl, hp, fun x hx => hl x (by simp [hx])⟩
  · rintro (hq | ⟨hr, ho, earlier, p, later, rfl, hp, hl⟩)
    · exact ⟨h, q, [], rfl, hq, by simp⟩
    · refine ⟨earlier, p, later ++ [q], by simp, hp, ?_⟩
      intro x hx
      rcases List.mem_append.mp hx with hx | hx
      · exact hl x hx
      · rw [List.mem_singleton.mp hx]
        exact ⟨hr, ho⟩

variable [TextField β]

theorem number_le_issued (e : Editor β) (calls : List (Call β)) :
    ∀ r ∈ requests (e.history calls), r.ticket.number ≤ (e.after calls).completer.tickets.issued := by
  refine history_induction (P := fun h c => ∀ r ∈ requests h, r.ticket.number ≤ c.tickets.issued) ?_ ?_ calls
  · simp [requests]
  · intro h c q ih hs r hr
    rw [requests_append_singleton] at hr
    rcases List.mem_append.mp hr with hr | hr
    · exact Nat.le_trans (ih r hr) hs.issued_le
    · rw [Option.mem_toList.mp hr] at hs
      exact Nat.le_of_eq hs.request_number

variable (trigger : Char) (b : β)

theorem after_coherent (calls : List (Call β)) :
    ((⟨{ trigger }, b⟩ : Editor β).after calls).completer.Coherent :=
  after_induction (P := Coherent) (fun _ => rfl) (fun _ _ _ hc hs => hs.coherent hc) calls

theorem isCurrent_iff_outstanding (calls : List (Call β)) (t : Ticket) :
    ((⟨{ trigger }, b⟩ : Editor β).after calls).completer.isCurrent t = true ↔
      Outstanding ((⟨{ trigger }, b⟩ : Editor β).history calls) t := by
  refine history_induction (P := fun h c => c.isCurrent t = true ↔ Outstanding h t) ?_ ?_ calls
  · simp [Completer.isCurrent, isOpen, outstanding_nil]
  · intro h c q ih hs
    rw [hs.isCurrent_iff, outstanding_append_singleton, ih]

theorem requests_number_le (calls : List (Call β)) :
    ∀ r ∈ requests ((⟨{ trigger }, b⟩ : Editor β).history calls),
      r.ticket.number ≤ ((⟨{ trigger }, b⟩ : Editor β).after calls).completer.tickets.issued :=
  number_le_issued _ calls

theorem after_spent {e : Editor β} {t : Ticket} (h : e.completer.Spent t) (calls : List (Call β)) :
    (e.after calls).completer.Spent t :=
  after_induction (P := fun c => c.Spent t) h (fun _ _ _ hc hs => hs.spent hc) calls

/-- An answer is taken exactly when its ticket is that of the last request and the mention has been open ever since; a
ticket once passed over is passed over for good. -/
theorem answer_taken_iff_outstanding (calls : List (Call β)) (t : Ticket)
    (answer : Except Failure (List Candidate)) :
    let e : Editor β := ⟨{ trigger }, b⟩
    let c := (e.after calls).completer
    let r := c.applyLookup t answer
    (r.result = true ↔ Outstanding (e.history calls) t) ∧
      r.result = c.isCurrent t ∧
      (c.tickets.isCurrent t = true → c.isOpen = true) ∧
      (r.result = false → r.state = c) ∧
      ((∃ q ∈ requests (e.history calls), q.ticket = t) → c.isCurrent t = false →
        ∀ later, (e.after (calls ++ later)).completer.isCurrent t = false) := by
  intro e c r
  have coherent : c.Coherent := after_coherent trigger b calls
  have result : r.result = c.isCurrent t := c.applyLookup_result t answer
  refine ⟨?_, result, coherent.isOpen_of_isCurrent, ?_, ?_⟩
  · rw [result]
    exact isCurrent_iff_outstanding trigger b calls t
  · intro h
    rw [result] at h
    exact (applyLookup_dropped h answer).2
  · rintro ⟨q, hq, rfl⟩ ht later
    have spent := coherent.spent (requests_number_le trigger b calls q hq) ht
    rw [after_append]
    exact (after_spent spent later).not_isCurrent

end Editor

end PostEditor
