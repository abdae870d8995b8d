import PostEditor.TextField
import PostEditor.Proofs.MentionRegion
import PostEditor.Proofs.Rounding
import Mathlib.Data.Nat.PSub

namespace PostEditor

namespace Text

theorem floorBoundary_succ_of_not_isBoundary {t : Text} {p : Nat} (h : ¬t.IsBoundary (p + 1)) :
    t.floorBoundary (p + 1) = t.floorBoundary p := by
  have hle := t.floorBoundary_le (p + 1)
  have hlt : t.floorBoundary (p + 1) ≤ p := by
    have hne : t.floorBoundary (p + 1) ≠ p + 1 := h
    omega
  have hup := (t.isBoundary_floorBoundary (p + 1)).le_floorBoundary hlt
  have hdown := (t.isBoundary_floorBoundary p).le_floorBoundary
    (Nat.le_trans (t.floorBoundary_le p) (Nat.le_add_right p 1))
  omega

theorem floorBoundary_min_bytes (t : Text) (p : Nat) :
    t.floorBoundary (min p t.bytes) = t.floorBoundary p := by
  rcases Nat.le_total p t.bytes with h | h
  · rw [Nat.min_eq_left h]
  · rw [Nat.min_eq_right h]
    have hp : t.before p = t := front_of_weight_le h
    have he : t.floorBoundary t.bytes = t.bytes := t.isBoundary_bytes
    rw [he, floorBoundary, hp]

/-- Steps down from an offset until a boundary is found; it may not step below zero. -/
def stepDown? (t : Text) : Nat → Option Nat
  | 0 => if t.IsBoundary 0 then some 0 else none
  | p + 1 => if t.IsBoundary (p + 1) then some (p + 1) else stepDown? t p

def floorBoundary? (t : Text) (p : Nat) : Option Nat := t.stepDown? (min p t.bytes)

def splice? (t : Text) (p q : Nat) (insert : Text) : Option Text :=
  (t.slice? p q).map fun _ => t.splice p q insert

theorem stepDown?_eq (t : Text) (p : Nat) : t.stepDown? p = some (t.floorBoundary p) := by
  induction p with
  | zero =>
    have h0 : t.IsBoundary 0 := t.isBoundary_zero
    have he : t.floorBoundary 0 = 0 := h0
    simp [stepDown?, h0, he]
  | succ p ih =>
    by_cases h : t.IsBoundary (p + 1)
    · have he : t.floorBoundary (p + 1) = p + 1 := h
      simp [stepDown?, h, he]
    · simp [stepDown?, h, ih, floorBoundary_succ_of_not_isBoundary h]

@[simp] theorem floorBoundary?_eq (t : Text) (p : Nat) : t.floorBoundary? p = some (t.floorBoundary p) := by
  rw [floorBoundary?, stepDown?_eq, floorBoundary_min_bytes]

theorem slice?_of_fits {t : Text} {p q : Nat} (hpq : p ≤ q) (hp : t.IsBoundary p) (hq : t.IsBoundary q) :
    t.slice? p q = some (t.slice p q) :=
  slice?_eq_some_iff.mpr ⟨hpq, hp, hq, rfl⟩

theorem splice?_of_fits {t : Text} {p q : Nat} (hpq : p ≤ q) (hp : t.IsBoundary p) (hq : t.IsBoundary q)
    (insert : Text) : t.splice? p q insert = some (t.splice p q insert) := by
  rw [splice?, slice?_of_fits hpq hp hq]
  rfl

theorem fits_of_checkRange {t : Text} {p q : Nat} (h : t.checkRange p q = .ok ()) :
    p ≤ q ∧ t.IsBoundary p ∧ t.IsBoundary q := by
  unfold checkRange at h
  split at h
  next => cases h
  next hr =>
    split at h
    next => cases h
    next hp =>
      split at h
      next => cases h
      next hq => exact ⟨by omega, not_not.mp hp, not_not.mp hq⟩

theorem slice_zero {t : Text} {p : Nat} (hp : t.IsBoundary p) : t.slice 0 p = t.before p := by
  have h := before_append_slice_append_after (Nat.zero_le p) t.isBoundary_zero hp
  have h0 : t.before 0 = [] := before_bytes_append [] t
  rw [h0, List.nil_append] at h
  exact List.append_cancel_right (h.trans (before_append_after t p).symm)

theorem slice_bytes (t : Text) (p : Nat) : t.slice p t.bytes = t.after p := by
  have h : t.before t.bytes = t := front_of_weight_le (Nat.le_refl _)
  rw [slice, h]

end Text

def Selection.clampTo? (s : Selection) (t : Text) : Option Selection := do
  return .between (← t.floorBoundary? s.start) (← t.floorBoundary? s.stop)

@[simp] theorem Selection.clampTo?_eq (s : Selection) (t : Text) : s.clampTo? t = some (s.clampTo t) := by
  simp [clampTo?, clampTo]

def caretAfterInsert? (start : Nat) (insert : Text) : CaretPolicy → Option Nat
  | .afterInsert => some (start + insert.bytes)
  | .insideTrailingParen =>
    if insert.getLast? = some ')' then Nat.psub (start + insert.bytes) 1 else some (start + insert.bytes)

@[simp] theorem caretAfterInsert?_eq (start : Nat) (insert : Text) (policy : CaretPolicy) :
    caretAfterInsert? start insert policy = some (caretAfterInsert start insert policy) := by
  cases policy with
  | afterInsert => rfl
  | insideTrailingParen =>
    simp only [caretAfterInsert?, caretAfterInsert]
    split
    next h =>
      obtain ⟨front, rfl⟩ := List.getLast?_eq_some_iff.mp h
      apply Nat.psub_eq_sub
      have hpos := Char.utf8Size_pos ')'
      rw [Text.bytes_append, Text.bytes_cons]
      omega
    next => rfl

end PostEditor
