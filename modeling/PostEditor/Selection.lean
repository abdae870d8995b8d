import PostEditor.Text

namespace PostEditor

structure Selection where
  start : Nat
  stop : Nat
  deriving DecidableEq, Repr

namespace Selection

def between (a b : Nat) : Selection := if a ≤ b then ⟨a, b⟩ else ⟨b, a⟩

def cursor (p : Nat) : Selection := ⟨p, p⟩

def isCursor (s : Selection) : Bool := s.start == s.stop

/-- Both ends rounded down to boundaries of the text, and in order. -/
def clampTo (s : Selection) (t : Text) : Selection :=
  between (t.floorBoundary s.start) (t.floorBoundary s.stop)

def Valid (s : Selection) (t : Text) : Prop :=
  s.start ≤ s.stop ∧ t.IsBoundary s.start ∧ t.IsBoundary s.stop

theorem between_comm (a b : Nat) : between a b = between b a := by
  rcases Nat.lt_trichotomy a b with h | rfl | h
  · simp [between, Nat.le_of_lt h, Nat.not_le.mpr h]
  · rfl
  · simp [between, Nat.le_of_lt h, Nat.not_le.mpr h]

@[simp] theorem between_self (a : Nat) : between a a = cursor a := by simp [between, cursor]

theorem between_of_le {a b : Nat} (h : a ≤ b) : between a b = ⟨a, b⟩ := if_pos h

theorem clampTo_valid (s : Selection) (t : Text) : (s.clampTo t).Valid t := by
  unfold clampTo between
  split
  · exact ⟨by assumption, t.isBoundary_floorBoundary _, t.isBoundary_floorBoundary _⟩
  · exact ⟨by simp only; omega, t.isBoundary_floorBoundary _, t.isBoundary_floorBoundary _⟩

theorem Valid.clampTo_eq {s : Selection} {t : Text} (h : s.Valid t) : s.clampTo t = s := by
  obtain ⟨hle, hs, he⟩ := h
  unfold clampTo
  rw [show t.floorBoundary s.start = s.start from hs, show t.floorBoundary s.stop = s.stop from he,
    between_of_le hle]

theorem cursor_valid {t : Text} {p : Nat} (h : t.IsBoundary p) : (cursor p).Valid t :=
  ⟨Nat.le_refl p, h, h⟩

end Selection

end PostEditor
