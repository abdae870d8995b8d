import PostEditor.Text

namespace PostEditor

namespace Text

variable {w : Char → Nat} {s t : Text} {p : Nat}

/-- Offset `p`, in the unit that weighs characters as `w` says, falls inside a character of the text. -/
def Inside (w : Char → Nat) (t : Text) (p : Nat) : Prop :=
  ∃ s c r, t = s ++ c :: r ∧ weight w s < p ∧ p < weight w s + w c

theorem weight_le_of_isPrefix (h : s <+: t) : weight w s ≤ weight w t := by
  obtain ⟨r, rfl⟩ := h
  rw [weight_append]
  exact Nat.le_add_right _ _

theorem front_append_of_weight_le {w : Char → Nat} {n : Nat} {s : Text} (h : weight w s ≤ n) (r : Text) :
    front w n (s ++ r) = s ++ front w (n - weight w s) r := by
  induction s generalizing n with
  | nil => simp
  | cons c s ih =>
    simp only [weight_cons] at h
    have hc : w c ≤ n := by omega
    simp only [List.cons_append, front, hc, if_true, weight_cons]
    rw [ih (by omega), Nat.sub_add_eq]

theorem isPrefix_front (h : s <+: t) (hle : weight w s ≤ p) : s <+: front w p t := by
  obtain ⟨r, rfl⟩ := h
  rw [front_append_of_weight_le hle]
  exact List.prefix_append _ _

theorem lt_of_back_eq_cons {c : Char} {r : Text} (h : back w p t = c :: r) : p < weight w (front w p t) + w c := by
  induction t generalizing p with
  | nil => cases h
  | cons d t ih =>
    simp only [back] at h
    simp only [front]
    split at h
    next fits =>
      have hp := ih h
      simp only [fits, if_true, weight_cons]
      omega
    next passes =>
      cases h
      simp only [passes, if_false, weight_nil]
      omega

/-- An offset is the weight of a beginning exactly if it is in the text and inside no character. -/
theorem weight_front_eq_iff : weight w (front w p t) = p ↔ p ≤ weight w t ∧ ¬Inside w t p := by
  constructor
  · intro h
    refine ⟨h ▸ weight_front_le_weight w p t, ?_⟩
    rintro ⟨s, c, r, rfl, hs, hc⟩
    have short : ¬w c ≤ p - weight w s := by omega
    have cut : front w p (s ++ c :: r) = s := by
      rw [front_append_of_weight_le (Nat.le_of_lt hs)]
      simp only [front, short, if_false, List.append_nil]
    rw [cut] at h
    omega
  · rintro ⟨hle, outside⟩
    have below := weight_front_le w p t
    have whole := front_append_back w p t
    cases rest : back w p t with
    | nil =>
      rw [rest, List.append_nil] at whole
      rw [whole] at below ⊢
      omega
    | cons c r =>
      rw [rest] at whole
      have above := lt_of_back_eq_cons rest
      by_cases hlt : weight w (front w p t) < p
      · exact absurd ⟨_, c, r, whole.symm, hlt, above⟩ outside
      · omega

theorem inside_iff : Inside w t p ↔ p ≤ weight w t ∧ weight w (front w p t) ≠ p := by
  constructor
  · intro inside
    refine ⟨?_, fun kept => (weight_front_eq_iff.mp kept).2 inside⟩
    obtain ⟨s, c, r, rfl, _, hc⟩ := inside
    rw [weight_append, weight_cons]
    omega
  · rintro ⟨hle, rounded⟩
    exact Classical.not_not.mp fun outside => rounded (weight_front_eq_iff.mpr ⟨hle, outside⟩)

instance (w : Char → Nat) (t : Text) (p : Nat) : Decidable (Inside w t p) := decidable_of_iff _ inside_iff.symm

theorem not_isBoundary_iff : ¬IsBoundary t p ↔ bytes t < p ∨ Inside Char.utf8Size t p := by
  rw [show IsBoundary t p ↔ _ from weight_front_eq_iff, Decidable.not_and_iff_not_or_not, Nat.not_le,
    Decidable.not_not]
  rfl

theorem IsBoundary.le_floorBoundary {t : Text} {q p : Nat} (hq : t.IsBoundary q) (h : q ≤ p) :
    q ≤ t.floorBoundary p := by
  obtain ⟨s, r, rfl, rfl⟩ := isBoundary_iff.mp hq
  exact weight_le_of_isPrefix (isPrefix_front (List.prefix_append s r) h)

end Text

end PostEditor
