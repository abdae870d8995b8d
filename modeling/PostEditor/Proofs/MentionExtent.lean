import PostEditor.Proofs.MentionRegion
import PostEditor.Proofs.Rounding

namespace PostEditor

namespace Mention

open Text

variable {t q : Text} {caret anchor : Nat} {trigger : Char}

theorem query_of_split_iff {p m : Text} (ht : p.getLast? = some trigger) (rest : Text) :
    query (p ++ m ++ rest) (p.bytes + m.bytes) p.bytes trigger = .ok q ↔ q = m ∧ ∀ x ∈ m, isBlank x = false := by
  constructor
  · intro h
    obtain ⟨_, _, _, _, hs, hb⟩ := query_eq_ok_iff.mp h
    obtain rfl : m = q := (slice_append p m rest).symm.trans hs
    exact ⟨rfl, hb⟩
  · rintro ⟨rfl, hb⟩
    exact query_of_split ht hb rest

theorem query_eq_ok_iff_exists_split :
    query t caret anchor trigger = .ok q ↔
      ∃ p rest, t = p ++ [trigger] ++ q ++ rest ∧ bytes (p ++ [trigger]) = anchor ∧
        bytes (p ++ [trigger] ++ q) = caret ∧ ∀ x ∈ q, isBlank x = false := by
  constructor
  · intro h
    obtain ⟨hle, ha, hc, ht, hs, hb⟩ := query_eq_ok_iff.mp h
    obtain ⟨s, m, rest, rfl, rfl, rfl⟩ := exists_split hle ha hc
    rw [before_bytes_append_append] at ht
    obtain ⟨p, rfl⟩ := List.getLast?_eq_some_iff.mp ht
    obtain rfl : m = q := (slice_append _ m rest).symm.trans hs
    exact ⟨p, rest, rfl, rfl, bytes_append _ m, hb⟩
  · rintro ⟨p, rest, rfl, rfl, rfl, hb⟩
    rw [bytes_append (p ++ [trigger]) q]
    exact query_of_split (List.getLast?_concat ..) hb rest

/-- What keeps the text between anchor and caret from being a query, each with the reason that is told for it, in the
order in which it is looked for. -/
def obstacles (t : Text) (caret anchor : Nat) (trigger : Char) : List (Bool × CloseReason) :=
  [(caret < anchor, .caretBeforeAnchor),
    (t.bytes < anchor ∨ t.Inside Char.utf8Size anchor, .anchorOutOfRange),
    (¬[trigger] <:+ t.before anchor, .triggerRemoved),
    (t.bytes < caret ∨ t.Inside Char.utf8Size caret, .anchorOutOfRange),
    ((t.slice anchor caret).any isBlank, .whitespace)]

theorem query_eq_error_iff {reason : CloseReason} :
    query t caret anchor trigger = .error reason ↔
      ((obstacles t caret anchor trigger).find? Prod.fst).map Prod.snd = some reason := by
  simp only [obstacles, ← not_isBoundary_iff, List.singleton_suffix_iff_getLast?_eq_some]
  unfold query
  split
  next behind => simp [behind]
  next hle =>
    split
    next ha => simp [hle, ha]
    next ha =>
      have ha : t.IsBoundary anchor := Decidable.not_not.mp ha
      split
      next ht => simp [hle, ha, ht]
      next ht =>
        have ht : (t.before anchor).getLast? = some trigger := Decidable.not_not.mp ht
        split
        next cut =>
          have hc : ¬t.IsBoundary caret := by
            intro hc
            have whole : t.slice? anchor caret = some _ := slice?_eq_some_iff.mpr ⟨by omega, ha, hc, rfl⟩
            cases cut.symm.trans whole
          simp [hle, ha, ht, hc]
        next m cut =>
          obtain ⟨_, _, hc, rfl⟩ := slice?_eq_some_iff.mp cut
          split
          next hb =>
            simp only [hle, ha, ht, hc, hb]
            simp
          next hb =>
            simp only [hle, ha, ht, hc, hb]
            simp

theorem query_extends_iff (h : query t caret anchor trigger = .ok q) {t' r q' : Text}
    (follows : t.before caret ++ r <+: t') :
    query t' (caret + r.bytes) anchor trigger = .ok q' ↔ q' = q ++ r ∧ ∀ x ∈ r, isBlank x = false := by
  obtain ⟨p, rest, rfl, rfl, rfl, hb⟩ := query_eq_ok_iff_exists_split.mp h
  rw [before_bytes_append] at follows
  obtain ⟨rest', rfl⟩ := follows
  have grown := query_of_split_iff (p := p ++ [trigger]) (m := q ++ r) (q := q') (List.getLast?_concat ..) rest'
  have none_before : (∀ x ∈ q ++ r, isBlank x = false) ↔ ∀ x ∈ r, isBlank x = false := by
    simp only [List.forall_mem_append, and_iff_right hb]
  rw [none_before] at grown
  simpa only [bytes_append, List.append_assoc, Nat.add_assoc] using grown

theorem query_shrinks (h : query t caret anchor trigger = .ok q) {back : Nat} (hle : anchor ≤ back)
    (hback : back ≤ caret) (boundary : t.IsBoundary back) :
    ∃ kept : Text, kept <+: q ∧ anchor + kept.bytes = back ∧ query t back anchor trigger = .ok kept := by
  obtain ⟨_, ha, hc, ht, rfl, hb⟩ := query_eq_ok_iff.mp h
  obtain ⟨s, kept, lost, rest, rfl, rfl, rfl, rfl⟩ := exists_split_three hle hback ha boundary hc
  rw [slice_append_append] at hb ⊢
  refine ⟨kept, List.prefix_append kept lost, rfl, ?_⟩
  rw [List.append_assoc (s ++ kept)] at ht ⊢
  rw [before_bytes_append_append] at ht
  exact query_of_split ht (fun x hx => hb x (List.mem_append_left lost hx)) (lost ++ rest)

/-- A query is told exactly where the text splits around it, and elsewhere the first obstacle. It grows by a text with
no blank behind the caret, and shrinks as the caret goes back. -/
theorem query_recognises_mentions (t : Text) (caret anchor : Nat) (trigger : Char) :
    (∀ q, query t caret anchor trigger = .ok q ↔
      ∃ p rest, t = p ++ [trigger] ++ q ++ rest ∧ bytes (p ++ [trigger]) = anchor ∧
        bytes (p ++ [trigger] ++ q) = caret ∧ ∀ x ∈ q, isBlank x = false) ∧
      (∀ reason, query t caret anchor trigger = .error reason ↔
        ((obstacles t caret anchor trigger).find? Prod.fst).map Prod.snd = some reason) ∧
      ∀ q, query t caret anchor trigger = .ok q →
        (∀ t' r q', t.before caret ++ r <+: t' →
          (query t' (caret + r.bytes) anchor trigger = .ok q' ↔ q' = q ++ r ∧ ∀ x ∈ r, isBlank x = false)) ∧
        ∀ back, anchor ≤ back → back ≤ caret → t.IsBoundary back →
          ∃ kept : Text, kept <+: q ∧ anchor + kept.bytes = back ∧ query t back anchor trigger = .ok kept := by
  refine ⟨fun q => query_eq_ok_iff_exists_split, fun reason => query_eq_error_iff, ?_⟩
  intro q h
  refine ⟨?_, ?_⟩
  · intro t' r q' follows
    exact query_extends_iff h follows
  · intro back hle hback boundary
    exact query_shrinks h hle hback boundary

end Mention

end PostEditor
