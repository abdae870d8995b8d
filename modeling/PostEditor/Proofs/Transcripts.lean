import PostEditor.Proofs.LastRequest

namespace PostEditor

namespace Call

variable {β : Type}

def taken? : Call β → Answer → Option (Ticket × Except Failure (List Candidate))
  | .lookupAnswer t answer, .flag true => some (t, answer)
  | _, _ => none

/-- The call delivers an answer, and the completer does not take it. -/
def passedOver : Call β → Answer → Bool
  | .lookupAnswer _ _, .flag false => true
  | _, _ => false

theorem taken?_of_request {a : Call β} {x : Answer} {r : Request} (h : x.request? = some r) :
    a.taken? x = none := by
  cases x with
  | flag value => cases h
  | _ => cases a <;> rfl

end Call

theorem Completer.applyLookup_of_isCurrent {c : Completer} {t : Ticket} (h : c.isCurrent t = true)
    (answer : Except Failure (List Candidate)) :
    ∃ s, c.session = some s ∧ (c.applyLookup t answer).result = true ∧
      (c.applyLookup t answer).state = { c with session := some (s.answered answer) } := by
  obtain ⟨ho, hc⟩ := isCurrent_iff.mp h
  obtain ⟨s, hs⟩ := Option.isSome_iff_exists.mp ho
  have current : c.tickets.isCurrent t = true := by simp [Tickets.isCurrent, hc]
  exact ⟨s, hs, applyLookup_taken hs current answer⟩

namespace Editor

variable {β : Type}

def takenAnswers (p : List (Call β × Report (Editor β) Answer)) :
    List (Ticket × Except Failure (List Candidate)) :=
  p.filterMap fun q => q.1.taken? q.2.result

theorem takenAnswers_append_singleton (p : List (Call β × Report (Editor β) Answer)) (a : Call β)
    (q : Report (Editor β) Answer) :
    takenAnswers (p ++ [(a, q)]) = takenAnswers p ++ (a.taken? q.result).toList := by
  cases h : a.taken? q.result <;> simp [takenAnswers, h]

variable [TextField β]

def transcript (e : Editor β) (calls : List (Call β)) : List (Call β × Report (Editor β) Answer) :=
  calls.zip (e.history calls)

/-- The answers that calls deliver and that the completer takes, the first one first. -/
def taken (e : Editor β) (calls : List (Call β)) : List (Ticket × Except Failure (List Candidate)) :=
  takenAnswers (e.transcript calls)

@[simp] theorem transcript_nil (e : Editor β) : e.transcript [] = [] := rfl

@[simp] theorem transcript_cons (e : Editor β) (a : Call β) (rest : List (Call β)) :
    e.transcript (a :: rest) = (a, e.call a) :: (e.call a).state.transcript rest := rfl

theorem transcript_append (e : Editor β) (first rest : List (Call β)) :
    e.transcript (first ++ rest) = e.transcript first ++ (e.after first).transcript rest := by
  induction first generalizing e with
  | nil => rfl
  | cons a first ih =>
    simp only [List.cons_append, transcript_cons, after_cons]
    rw [ih]

theorem taken_cons (e : Editor β) (a : Call β) (rest : List (Call β)) :
    e.taken (a :: rest) = (a.taken? (e.call a).result).toList ++ (e.call a).state.taken rest := by
  cases h : a.taken? (e.call a).result <;> simp [taken, takenAnswers, h]

theorem transcript_append_singleton (e : Editor β) (calls : List (Call β)) (a : Call β) :
    e.transcript (calls ++ [a]) = e.transcript calls ++ [(a, (e.after calls).call a)] :=
  e.transcript_append calls [a]

theorem map_snd_transcript (e : Editor β) (calls : List (Call β)) :
    (e.transcript calls).map Prod.snd = e.history calls := by
  induction calls generalizing e with
  | nil => rfl
  | cons a rest ih =>
    simp only [transcript_cons, List.map_cons, history_cons]
    rw [ih]

theorem after_append_singleton (e : Editor β) (calls : List (Call β)) (a : Call β) :
    e.after (calls ++ [a]) = ((e.after calls).call a).state :=
  e.after_append calls [a]

end Editor

end PostEditor
