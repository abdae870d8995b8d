import PostEditor.Proofs.Transcripts
import Mathlib.Data.List.Nodup
import Mathlib.Data.List.Perm.Basic

namespace PostEditor

namespace Editor

open Completer

variable {β : Type}

def deliveries (answers : List (Ticket × Except Failure (List Candidate))) : List (Call β) :=
  answers.map fun p => .lookupAnswer p.1 p.2

theorem filter_isCurrent_perm (c : Completer) {answers other : List (Ticket × Except Failure (List Candidate))}
    (h : answers.Perm other) (distinct : (answers.map Prod.fst).Nodup) :
    answers.filter (fun p => c.isCurrent p.1) = other.filter fun p => c.isCurrent p.1 := by
  have hperm := h.filter fun p => c.isCurrent p.1
  have hnodup : ((answers.filter fun p => c.isCurrent p.1).map Prod.fst).Nodup :=
    distinct.sublist (List.filter_sublist.map _)
  have current : ∀ p ∈ answers.filter (fun p => c.isCurrent p.1), c.tickets.current = some p.1 :=
    fun p hp => (isCurrent_iff.mp (List.mem_filter.mp hp).2).2
  generalize answers.filter (fun p => c.isCurrent p.1) = found at hperm hnodup current ⊢
  cases found with
  | nil => exact (List.nil_perm.mp hperm).symm
  | cons p rest =>
    cases rest with
    | nil => exact (List.perm_singleton.mp hperm.symm).symm
    | cons q rest =>
      have same : p.1 = q.1 :=
        Option.some.inj ((current p (by simp)).symm.trans (current q (by simp)))
      rw [List.map_cons, List.nodup_cons] at hnodup
      exact absurd (by simp [same]) hnodup.1

variable [TextField β]

theorem lookupAnswer_result (e : Editor β) (t : Ticket) (answer : Except Failure (List Candidate)) :
    (e.call (.lookupAnswer t answer)).result = .flag (e.completer.isCurrent t) :=
  congrArg Answer.flag (e.completer.applyLookup_result t answer)

theorem lookupAnswer_state_of_dropped {e : Editor β} {t : Ticket} (h : e.completer.isCurrent t = false)
    (answer : Except Failure (List Candidate)) : (e.call (.lookupAnswer t answer)).state = e :=
  congrArg (Editor.mk · e.field) (applyLookup_dropped h answer).2

theorem lookupAnswer_isCurrent (e : Editor β) (t : Ticket) (answer : Except Failure (List Candidate))
    (u : Ticket) :
    (e.call (.lookupAnswer t answer)).state.completer.isCurrent u = e.completer.isCurrent u := by
  cases h : e.completer.isCurrent t with
  | false => rw [lookupAnswer_state_of_dropped h]
  | true =>
    obtain ⟨s, hs, _, state⟩ := applyLookup_of_isCurrent h answer
    have hc : (e.call (.lookupAnswer t answer)).state.completer =
        { e.completer with session := some (s.answered answer) } := state
    rw [hc]
    simp [Completer.isCurrent, Completer.isOpen, hs]

theorem call_state_of_passedOver {e : Editor β} {a : Call β} (h : a.passedOver (e.call a).result = true) :
    (e.call a).state = e := by
  cases a with
  | lookupAnswer t answer =>
    rw [lookupAnswer_result] at h
    cases hc : e.completer.isCurrent t with
    | false => exact lookupAnswer_state_of_dropped hc answer
    | true => rw [hc] at h; cases h
  | _ => cases h

/-- What is left of a transcript without the answers that were passed over. -/
def kept (e : Editor β) (calls : List (Call β)) : List (Call β × Report (Editor β) Answer) :=
  (e.transcript calls).filter fun p => !p.1.passedOver p.2.result

theorem transcript_kept (e : Editor β) (calls : List (Call β)) :
    e.transcript ((e.kept calls).map Prod.fst) = e.kept calls ∧
      e.after ((e.kept calls).map Prod.fst) = e.after calls := by
  induction calls generalizing e with
  | nil => exact ⟨rfl, rfl⟩
  | cons a rest ih =>
    cases h : a.passedOver (e.call a).result with
    | true =>
      have state := call_state_of_passedOver h
      have erased : e.kept (a :: rest) = e.kept rest := by simp [kept, h, state]
      rw [erased, after_cons, state]
      exact ih e
    | false =>
      have stays : e.kept (a :: rest) = (a, e.call a) :: (e.call a).state.kept rest := by simp [kept, h]
      obtain ⟨transcripts, afters⟩ := ih (e.call a).state
      rw [stays, List.map_cons, transcript_cons, after_cons, transcripts, afters]
      exact ⟨rfl, rfl⟩

theorem taken_deliveries (e : Editor β) (answers : List (Ticket × Except Failure (List Candidate))) :
    e.taken (deliveries answers) = answers.filter fun p => e.completer.isCurrent p.1 := by
  induction answers generalizing e with
  | nil => rfl
  | cons p rest ih =>
    have later := ih (e.call (.lookupAnswer p.1 p.2)).state
    simp only [lookupAnswer_isCurrent] at later
    have split : e.taken (deliveries (p :: rest)) =
        (Call.taken? (β := β) (.lookupAnswer p.1 p.2) (.flag (e.completer.isCurrent p.1))).toList ++
          rest.filter fun p => e.completer.isCurrent p.1 := by
      rw [← later, ← lookupAnswer_result e p.1 p.2, ← taken_cons]
      rfl
    rw [split]
    cases hc : e.completer.isCurrent p.1 with
    | true => simp [Call.taken?, hc]
    | false => simp [Call.taken?, hc]

theorem after_deliveries (e : Editor β) (answers : List (Ticket × Except Failure (List Candidate))) :
    e.after (deliveries answers) =
      e.after (deliveries (answers.filter fun p => e.completer.isCurrent p.1)) := by
  induction answers generalizing e with
  | nil => rfl
  | cons p rest ih =>
    have later := ih (e.call (.lookupAnswer p.1 p.2)).state
    simp only [lookupAnswer_isCurrent] at later
    simp only [deliveries, List.map_cons, after_cons] at later ⊢
    cases hc : e.completer.isCurrent p.1 with
    | true => simpa [hc] using later
    | false => simpa [hc, lookupAnswer_state_of_dropped hc] using later

/-- An answer that has been passed over could as well have come in at any later time. -/
theorem lookupAnswer_postponed {e : Editor β} {t : Ticket} (spent : e.completer.Spent t)
    (answer : Except Failure (List Candidate)) (between later : List (Call β)) :
    let late : Call β := .lookupAnswer t answer
    let meanwhile := e.transcript between
    let rest := (e.after between).transcript later
    e.transcript (late :: (between ++ later)) = (late, e.call late) :: (meanwhile ++ rest) ∧
      e.transcript (between ++ late :: later) = meanwhile ++ (late, (e.after between).call late) :: rest ∧
      ((e.after between).call late).result = .flag false ∧
      e.after (between ++ late :: later) = e.after (late :: (between ++ later)) := by
  intro late meanwhile rest
  have now := lookupAnswer_state_of_dropped spent.not_isCurrent answer
  have notThen := (after_spent spent between).not_isCurrent
  have afterwards := lookupAnswer_state_of_dropped notThen answer
  refine ⟨?_, ?_, ?_, ?_⟩
  · rw [transcript_cons, now, transcript_append]
  · rw [transcript_append, transcript_cons, afterwards]
  · rw [lookupAnswer_result, notThen]
  · rw [after_append, after_cons, afterwards, after_cons, now, after_append]

/-- Answers to different requests may come in any order: the same one is taken and the same state left. One that is
passed over may be left out of a run, or come in later, and nothing else changes. -/
theorem answer_order_does_not_matter :
    (∀ (e : Editor β) (answers other : List (Ticket × Except Failure (List Candidate))),
      answers.Perm other → (answers.map Prod.fst).Nodup →
        e.after (deliveries answers) = e.after (deliveries other) ∧
          e.taken (deliveries answers) = e.taken (deliveries other)) ∧
    ∀ (trigger : Char) (b : β),
      let e : Editor β := ⟨{ trigger }, b⟩
      (∀ calls, e.transcript ((e.kept calls).map Prod.fst) = e.kept calls ∧
        e.after ((e.kept calls).map Prod.fst) = e.after calls) ∧
      ∀ earlier t answer between later,
        let late : Call β := .lookupAnswer t answer
        let before := e.transcript earlier
        let meanwhile := (e.after earlier).transcript between
        let rest := (e.after (earlier ++ between)).transcript later
        (∃ q ∈ requests (e.history earlier), q.ticket = t) →
        ((e.after earlier).call late).result = .flag false →
          ((e.after (earlier ++ between)).call late).result = .flag false ∧
            e.transcript (earlier ++ late :: (between ++ later)) =
              before ++ (late, (e.after earlier).call late) :: (meanwhile ++ rest) ∧
            e.transcript (earlier ++ between ++ late :: later) =
              before ++ meanwhile ++ (late, (e.after (earlier ++ between)).call late) :: rest ∧
            e.after (earlier ++ between ++ late :: later) =
              e.after (earlier ++ late :: (between ++ later)) := by
  refine ⟨?_, ?_⟩
  · intro e answers other h distinct
    have same := filter_isCurrent_perm e.completer h distinct
    refine ⟨?_, ?_⟩
    · rw [after_deliveries, same, ← after_deliveries]
    · rw [taken_deliveries, same, ← taken_deliveries]
  · intro trigger b e
    refine ⟨e.transcript_kept, ?_⟩
    rintro earlier t answer between later late before meanwhile rest ⟨q, hq, rfl⟩ dropped
    have notCurrent : (e.after earlier).completer.isCurrent q.ticket = false := by
      rw [lookupAnswer_result] at dropped
      exact Answer.flag.inj dropped
    have spent := (after_coherent trigger b earlier).spent (requests_number_le trigger b earlier q hq) notCurrent
    obtain ⟨first, second, passed, afters⟩ := lookupAnswer_postponed spent answer between later
    rw [← after_append] at passed first second
    refine ⟨passed, ?_, ?_, ?_⟩
    · rw [transcript_append, first]
    · rw [List.append_assoc, transcript_append, second, ← List.append_assoc]
    · rw [List.append_assoc]
      exact (e.after_append _ _).trans (afters.trans (e.after_append _ _).symm)

example :
    let e := (⟨{}, .ofText ['@']⟩ : Editor Draft).after [.openAt 1, .blur, .openAt 1]
    let old : Ticket × Except Failure (List Candidate) := (⟨1⟩, .ok [])
    let new : Ticket × Except Failure (List Candidate) := (⟨2⟩, .ok [⟨['é'], ['é']⟩])
    e.after (deliveries [old, new]) = e.after (deliveries [new, old]) ∧
      (e.after (deliveries [new, old])).completer.highlighted? = some 0 := by decide

end Editor

end PostEditor
