import PostEditor.Proofs.MentionSpans
import PostEditor.Proofs.OpenMentions
import Mathlib.Data.List.Chain

namespace PostEditor

namespace Completer

theorem asked_injective {p q : Text} (h : asked p = asked q) : p = q := by
  unfold asked at h
  split at h
  next hp =>
    split at h
    next hq => rw [hp, hq]
    next => cases h
  next =>
    split at h
    next => cases h
    next => exact Option.some.inj h

theorem asked_getD (q : Text) : (asked q).getD [] = q := by
  unfold asked
  split
  next hq => exact hq.symm
  next => rfl

end Completer

namespace MentionSession

open Completer

structure AskedBy (s : MentionSession) (made : List Request) : Prop where
  first : made.head?.map (·.query) = some none
  changing : made.IsChain fun r r' => r.query ≠ r'.query
  last : ∃ r, made.getLast? = some r ∧ r.query = asked s.query

theorem AskedBy.of_query_eq {s s' : MentionSession} {made : List Request} (h : s.AskedBy made)
    (query : s'.query = s.query) : s'.AskedBy made := by
  obtain ⟨r, hr, asks⟩ := h.last
  exact ⟨h.first, h.changing, r, hr, by rw [query]; exact asks⟩

theorem answered_query (s : MentionSession) (answer : Except Failure (List Candidate)) :
    (s.answered answer).query = s.query := by
  cases answer <;> rfl

theorem AskedBy.asked {s : MentionSession} {made : List Request} (h : s.AskedBy made) {query : Text}
    (changed : query ≠ s.query) {r : Request} (asks : r.query = asked query) :
    ({ s with query } : MentionSession).AskedBy (made ++ [r]) := by
  obtain ⟨previous, hp, asked_before⟩ := h.last
  refine ⟨?_, ?_, r, List.getLast?_concat, asks⟩
  · obtain ⟨first, hf, all⟩ := Option.map_eq_some_iff.mp h.first
    simp [List.head?_append, hf, all]
  · refine h.changing.append (List.isChain_singleton r) ?_
    intro x hx y hy
    obtain rfl : previous = x := Option.some.inj (hp.symm.trans hx)
    obtain rfl : r = y := Option.some.inj hy
    intro same
    rw [asked_before, asks] at same
    exact changed (asked_injective same).symm

theorem Onward.askedBy {β : Type} {s s' : MentionSession} {a : Call β} {x : Answer}
    (h : s.Onward a x s') {made : List Request} (hs : s.AskedBy made) :
    s'.AskedBy (made ++ x.request?.toList) := by
  cases h with
  | asked changed request asks =>
    rw [request]
    exact hs.asked changed asks
  | answered request taken =>
    rw [request, Option.toList_none, List.append_nil]
    exact hs.of_query_eq (s.answered_query _)
  | highlighted request taken valid =>
    rw [request, Option.toList_none, List.append_nil]
    exact hs.of_query_eq rfl
  | stayed request taken =>
    rw [request, Option.toList_none, List.append_nil]
    exact hs

end MentionSession

namespace Completer

variable {β : Type} [TextField β]

theorem refresh_of_follows {c : Completer} {b : β} (h : c.Follows b) : c.refresh b = ⟨none, c, []⟩ := by
  cases hs : c.session with
  | none => simp only [refresh, hs]
  | some s =>
    obtain ⟨stands, query⟩ := h s hs
    have hq : c.queryAt s.anchor b = .ok s.query := queryAt_eq_ok_iff.mpr ⟨stands, query.symm⟩
    simp only [refresh, hs, hq, if_true]

theorem refresh_asks {c : Completer} {s : MentionSession} (hs : c.session = some s) (b : β) :
    let text := (TextField.text b).slice s.anchor (TextField.selection b).stop
    ((c.refresh b).result.isSome = true ↔ (c.refresh b).state.isOpen = true ∧ text ≠ s.query) ∧
      ∀ request, (c.refresh b).result = some request → request.query = asked text := by
  intro text
  cases hq : c.queryAt s.anchor b with
  | error reason => simp [refresh, hs, hq, isOpen]
  | ok query =>
    obtain ⟨_, hslice⟩ := queryAt_eq_ok_iff.mp hq
    have htext : text = query := hslice
    rw [htext]
    by_cases same : query = s.query
    · simp [refresh, hs, hq, same]
    · have asks : c.refresh b = ⟨some (c.tickets.issue (asked query)).1,
          { c with session := some { s with query }, tickets := (c.tickets.issue (asked query)).2 }, []⟩ := by
        simp only [refresh, hs, hq, same, if_false]
        rfl
      rw [asks]
      refine ⟨⟨fun _ => ⟨rfl, same⟩, fun _ => rfl⟩, ?_⟩
      intro request hr
      obtain rfl := Option.some.inj hr
      rfl

end Completer

namespace Editor

open Completer

theorem Spans.askedBy {β : Type} [TextField β] {e : Editor β} {opening : Call β} {later : List (Call β)}
    (h : e.Spans opening later) {s : MentionSession}
    (hs : (e.after (opening :: later)).completer.session = some s) :
    s.AskedBy (requests (e.history (opening :: later))) := by
  rw [← map_snd_transcript]
  refine h.induction (P := fun p s => s.AskedBy (requests (p.map Prod.snd))) ?_ ?_ hs
  · intro a q anchor r request all
    have made : requests ([(a, q)].map Prod.snd) = [r] := by simp [requests, request]
    rw [made]
    exact ⟨by simp [all], List.isChain_singleton r, r, rfl, all⟩
  · intro p s a q s' askedBy on
    rw [List.map_append, List.map_singleton, requests_append_singleton]
    exact on.askedBy askedBy

/-- Each mention first asks for all candidates and never asks the same twice in a row. A field is asked about exactly
when the mention goes on there with another text than was asked for last. -/
theorem mention_asks_for_each_change {β γ : Type} [TextField β] [TextField γ] (trigger : Char) (b : β) :
    let e : Editor β := ⟨{ trigger }, b⟩
    (∀ earlier opening later, (e.after earlier).Spans opening later →
      let made := requests ((e.after earlier).history (opening :: later))
      made.head?.map (·.query) = some none ∧ made.IsChain fun r r' => r.query ≠ r'.query) ∧
    ∀ calls s, (e.after calls).completer.session = some s →
      let c := (e.after calls).completer
      (∃ earlier opening later, calls = earlier ++ opening :: later ∧
        (e.after earlier).Spans opening later) ∧
      ∀ earlier opening later, calls = earlier ++ opening :: later → (e.after earlier).Spans opening later →
        ∃ last, (requests ((e.after earlier).history (opening :: later))).getLast? = some last ∧
          ∀ (d : γ) r, (r = c.selectionMoved d ∨ ∃ kind, r = c.input d kind) →
            let text := (TextField.text d).slice s.anchor (TextField.selection d).stop
            (r.result.isSome = true ↔ r.state.isOpen = true ∧ text ≠ last.query.getD []) ∧
              (∀ request, r.result = some request →
                request.query = if text = [] then none else some text) ∧
              r.state.selectionMoved d = ⟨none, r.state, []⟩ := by
  intro e
  refine ⟨?_, ?_⟩
  · intro earlier opening later spans made
    obtain ⟨s, hs⟩ := spans.exists_session
    have askedBy := spans.askedBy hs
    exact ⟨askedBy.first, askedBy.changing⟩
  · intro calls s hs c
    have opened : c.isOpen = true := by simp only [Completer.isOpen, c, hs, Option.isSome_some]
    refine ⟨exists_spans rfl hs, ?_⟩
    intro earlier opening later hc spans
    have still : ((e.after earlier).after (opening :: later)).completer.session = some s := by
      rw [← after_append, ← hc]
      exact hs
    obtain ⟨last, hlast, asks⟩ := (spans.askedBy still).last
    refine ⟨last, hlast, ?_⟩
    intro d r hr
    have looks : r = c.refresh d := by
      rcases hr with moved | ⟨kind, input⟩
      · exact moved
      · rw [input, Completer.input, if_pos opened]
    rw [looks, asks, asked_getD]
    obtain ⟨exactly, query⟩ := refresh_asks hs d
    exact ⟨exactly, query, refresh_of_follows (c.refresh_follows d)⟩

example :
    let e : Editor Draft := ⟨{}, .ofText ['@']⟩
    let calls : List (Call Draft) :=
      [.input .insert, .edit (.ofText ['@', 'é']), .input .insert, .selectionMoved,
        .edit (.ofText ['@']), .input .delete, .selectionMoved]
    requests (e.history calls) = [⟨⟨1⟩, none⟩, ⟨⟨2⟩, some ['é']⟩, ⟨⟨3⟩, none⟩] := by decide

end Editor

end PostEditor
