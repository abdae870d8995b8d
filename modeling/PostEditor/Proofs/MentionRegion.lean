import PostEditor.Completer

namespace PostEditor

namespace Text

theorem isBoundary_bytes_append (s r : Text) : IsBoundary (s ++ r) (bytes s) :=
  isBoundary_iff.mpr ⟨s, r, rfl, rfl⟩

theorem isBoundary_bytes_append_append (s m r : Text) :
    IsBoundary (s ++ m ++ r) (bytes s + bytes m) :=
  isBoundary_iff.mpr ⟨s ++ m, r, rfl, bytes_append s m⟩

theorem before_bytes_append_append (s m r : Text) : before (s ++ m ++ r) (bytes s) = s := by
  rw [List.append_assoc, before_bytes_append]

theorem slice_append_append (s m n r : Text) :
    slice (s ++ m ++ n ++ r) (bytes s) (bytes s + bytes m + bytes n) = m ++ n := by
  have h := slice_append s (m ++ n) r
  simpa only [bytes_append, List.append_assoc, Nat.add_assoc] using h

theorem slice_self_of_isBoundary {t : Text} {p : Nat} (h : IsBoundary t p) : slice t p p = [] := by
  obtain ⟨s, r, rfl, rfl⟩ := isBoundary_iff.mp h
  simpa using slice_append s [] r

theorem before_append_slice_append_after {t : Text} {p q : Nat} (hpq : p ≤ q) (hp : IsBoundary t p)
    (hq : IsBoundary t q) : before t p ++ slice t p q ++ after t q = t := by
  obtain ⟨s, m, r, rfl, rfl, rfl⟩ := exists_split hpq hp hq
  rw [before_bytes_append_append, slice_append, ← bytes_append, after_bytes_append]

theorem exists_split_three {t : Text} {a p q : Nat} (hap : a ≤ p) (hpq : p ≤ q) (ha : IsBoundary t a)
    (hp : IsBoundary t p) (hq : IsBoundary t q) :
    ∃ u v m r, t = u ++ v ++ m ++ r ∧ bytes u = a ∧ bytes u + bytes v = p ∧
      bytes u + bytes v + bytes m = q := by
  obtain ⟨u, v, rest, ht, hu, hv⟩ := exists_split hap ha hp
  obtain ⟨s, m, r, ht', hs, hm⟩ := exists_split hpq hp hq
  have first : before t p = u ++ v := by
    rw [ht, ← hv, ← bytes_append]
    exact before_bytes_append (u ++ v) rest
  have second : before t p = s := by
    rw [ht', ← hs]
    exact before_bytes_append_append s m r
  have hsv : s = u ++ v := second.symm.trans first
  rw [hsv, bytes_append] at hm
  exact ⟨u, v, m, r, by rw [ht', hsv], hu, hv, hm⟩

theorem slice?_eq_some_iff {t : Text} {p q : Nat} {m : Text} :
    slice? t p q = some m ↔ p ≤ q ∧ IsBoundary t p ∧ IsBoundary t q ∧ slice t p q = m := by
  unfold slice?
  split
  next h => simp [h]
  next h =>
    simp only [reduceCtorEq, false_iff]
    exact fun ⟨hle, hp, hq, _⟩ => h ⟨hle, hp, hq⟩

end Text

namespace Mention

open Text

/-- There is a query exactly behind the trigger, on boundaries and without blanks. -/
theorem query_eq_ok_iff {t : Text} {caret anchor : Nat} {trigger : Char} {q : Text} :
    query t caret anchor trigger = .ok q ↔
      anchor ≤ caret ∧ t.IsBoundary anchor ∧ t.IsBoundary caret ∧
        (t.before anchor).getLast? = some trigger ∧ t.slice anchor caret = q ∧
        ∀ x ∈ q, isBlank x = false := by
  constructor
  · intro h
    unfold query at h
    split at h
    next => cases h
    next hle =>
      split at h
      next => cases h
      next ha =>
        split at h
        next => cases h
        next ht =>
          split at h
          next => cases h
          next m hm =>
            split at h
            next => cases h
            next hb =>
              cases h
              obtain ⟨_, _, hc, hs⟩ := slice?_eq_some_iff.mp hm
              exact ⟨by omega, by simpa using ha, hc, by simpa using ht, hs, by simpa using hb⟩
  · rintro ⟨hle, ha, hc, ht, hs, hb⟩
    have hm : t.slice? anchor caret = some q := slice?_eq_some_iff.mpr ⟨hle, ha, hc, hs⟩
    have hb : q.any isBlank = false := by simpa using hb
    simp [query, Nat.not_lt.mpr hle, ha, ht, hm, hb]

theorem query_of_split {p q : Text} {trigger : Char} (ht : p.getLast? = some trigger)
    (hb : ∀ x ∈ q, isBlank x = false) (rest : Text) :
    query (p ++ q ++ rest) (p.bytes + q.bytes) p.bytes trigger = .ok q := by
  refine query_eq_ok_iff.mpr ⟨Nat.le_add_right _ _, ?_, isBoundary_bytes_append_append p q rest, ?_,
    slice_append p q rest, hb⟩
  · rw [List.append_assoc]
    exact isBoundary_bytes_append p (q ++ rest)
  · rw [before_bytes_append_append, ht]

theorem typedTrigger?_eq_some_iff {t : Text} {caret anchor : Nat} {trigger : Char} :
    typedTrigger? t caret trigger = some anchor ↔
      anchor = caret ∧ t.IsBoundary caret ∧ (t.before caret).getLast? = some trigger := by
  unfold typedTrigger?
  split
  next h => simp [h, eq_comm]
  next h =>
    simp only [reduceCtorEq, false_iff]
    exact fun ⟨_, hc, hl⟩ => h ⟨hc, hl⟩

end Mention

/-- The selection of a field stands in a mention: behind the anchor, which follows the trigger, with no blank between
the anchor and the caret. -/
structure InMention {β : Type} [TextField β] (b : β) (anchor : Nat) (trigger : Char) : Prop where
  anchor_le_start : anchor ≤ (TextField.selection b).start
  anchor_le_stop : anchor ≤ (TextField.selection b).stop
  stop_le_bytes : (TextField.selection b).stop ≤ (TextField.text b).bytes
  anchor_isBoundary : (TextField.text b).IsBoundary anchor
  stop_isBoundary : (TextField.text b).IsBoundary (TextField.selection b).stop
  trigger_before : ((TextField.text b).before anchor).getLast? = some trigger
  no_blank : ∀ x ∈ (TextField.text b).slice anchor (TextField.selection b).stop, isBlank x = false

namespace Completer

variable {β : Type} [TextField β]

theorem queryAt_eq_ok_iff {c : Completer} {anchor : Nat} {b : β} {q : Text} :
    c.queryAt anchor b = .ok q ↔ InMention b anchor c.trigger ∧
      (TextField.text b).slice anchor (TextField.selection b).stop = q := by
  constructor
  · intro h
    unfold queryAt at h
    simp only at h
    split at h
    next => cases h
    next hs =>
      obtain ⟨hle, ha, hc, ht, rfl, hb⟩ := Mention.query_eq_ok_iff.mp h
      exact ⟨⟨by omega, hle, hc.le_bytes, ha, hc, ht, hb⟩, rfl⟩
  · rintro ⟨h, rfl⟩
    have hs : ¬(TextField.selection b).start < anchor := Nat.not_lt.mpr h.anchor_le_start
    simp only [queryAt, hs, if_false]
    exact Mention.query_eq_ok_iff.mpr ⟨h.anchor_le_stop, h.anchor_isBoundary, h.stop_isBoundary,
      h.trigger_before, rfl, h.no_blank⟩

end Completer

end PostEditor
