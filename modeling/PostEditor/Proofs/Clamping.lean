import PostEditor.Proofs.CheckedOffsets
import Mathlib.Order.Bounds.Basic
import Mathlib.Order.MinMax

namespace PostEditor

namespace Text

variable {t : Text} {p q : Nat}

def encoded (t : Text) : List UInt8 := t.flatMap String.utf8EncodeChar

theorem encoded_cons (c : Char) (t : Text) : encoded (c :: t) = String.utf8EncodeChar c ++ encoded t := rfl

theorem length_encoded (t : Text) : t.encoded.length = t.bytes := by
  induction t with
  | nil => rfl
  | cons c t ih => rw [encoded_cons, List.length_append, String.length_utf8EncodeChar, ih, bytes_cons]

theorem isBoundary_cons_of_lt {c : Char} (h : p < c.utf8Size) : IsBoundary (c :: t) p ↔ p = 0 := by
  have cut : before (c :: t) p = [] := if_neg (Nat.not_le.mpr h)
  rw [IsBoundary, floorBoundary, cut]
  exact eq_comm

theorem isBoundary_cons_of_le {c : Char} (h : c.utf8Size ≤ p) :
    IsBoundary (c :: t) p ↔ IsBoundary t (p - c.utf8Size) := by
  have cut : before (c :: t) p = c :: before t (p - c.utf8Size) := if_pos h
  rw [IsBoundary, floorBoundary, cut, bytes_cons, IsBoundary, floorBoundary]
  omega

/-- An offset is a boundary exactly if it is at the end of the encoded text, or at a byte that begins a character. -/
theorem isBoundary_iff_encoded :
    t.IsBoundary p ↔ p = t.encoded.length ∨ ∃ b, t.encoded[p]? = some b ∧ b.IsUTF8FirstByte := by
  induction t generalizing p with
  | nil => simp [IsBoundary, floorBoundary, before, front, encoded, eq_comm]
  | cons c t ih =>
    have width : (String.utf8EncodeChar c).length = c.utf8Size := String.length_utf8EncodeChar c
    rw [encoded_cons, List.length_append, width]
    rcases Nat.lt_or_ge p c.utf8Size with inside | behind
    · have inside' : p < (String.utf8EncodeChar c).length := by omega
      have notEnd : p ≠ c.utf8Size + (encoded t).length := by omega
      rw [isBoundary_cons_of_lt inside, List.getElem?_append_left inside', List.getElem?_eq_getElem inside']
      simp [notEnd, UInt8.isUTF8FirstByte_getElem_utf8EncodeChar]
    · have atEnd : p = c.utf8Size + (encoded t).length ↔ p - c.utf8Size = (encoded t).length := by omega
      rw [isBoundary_cons_of_le behind, ih, List.getElem?_append_right (by omega), width, atEnd]

theorem floorBoundary_isGreatest (t : Text) (p : Nat) :
    IsGreatest {b | t.IsBoundary b ∧ b ≤ p} (t.floorBoundary p) :=
  ⟨⟨t.isBoundary_floorBoundary p, t.floorBoundary_le p⟩, fun _ ⟨boundary, reached⟩ => boundary.le_floorBoundary reached⟩

theorem floorBoundary_floorBoundary (t : Text) (p : Nat) :
    t.floorBoundary (t.floorBoundary p) = t.floorBoundary p :=
  t.isBoundary_floorBoundary p

theorem floorBoundary_monotone (t : Text) : Monotone t.floorBoundary := by
  intro p q hpq
  exact (t.isBoundary_floorBoundary p).le_floorBoundary ((t.floorBoundary_le p).trans hpq)

theorem lt_floorBoundary_add_four (h : p ≤ t.bytes) : p < t.floorBoundary p + 4 := by
  by_cases boundary : t.IsBoundary p
  · have kept : t.floorBoundary p = p := boundary
    omega
  · rcases not_isBoundary_iff.mp boundary with past | ⟨s, c, r, rfl, start, stop⟩
    · omega
    · have low := (isBoundary_bytes_append s (c :: r)).le_floorBoundary (Nat.le_of_lt start)
      have wide := c.utf8Size_le_four
      have stop : p < bytes s + c.utf8Size := stop
      omega

end Text

namespace Selection

variable {t : Text}

theorem clampTo_eq (s : Selection) (t : Text) :
    s.clampTo t = ⟨t.floorBoundary (min s.start s.stop), t.floorBoundary (max s.start s.stop)⟩ := by
  rw [t.floorBoundary_monotone.map_min, t.floorBoundary_monotone.map_max, clampTo]
  rcases Nat.le_total (t.floorBoundary s.start) (t.floorBoundary s.stop) with h | h
  · rw [between_of_le h, min_eq_left h, max_eq_right h]
  · rw [between_comm, between_of_le h, min_eq_right h, max_eq_left h]

theorem clampTo_clampTo (s : Selection) (t : Text) : (s.clampTo t).clampTo t = s.clampTo t :=
  (s.clampTo_valid t).clampTo_eq

theorem clampTo_mono {s s' : Selection} (start : s.start ≤ s'.start) (stop : s.stop ≤ s'.stop) (t : Text) :
    (s.clampTo t).start ≤ (s'.clampTo t).start ∧ (s.clampTo t).stop ≤ (s'.clampTo t).stop := by
  rw [clampTo_eq, clampTo_eq]
  exact ⟨t.floorBoundary_monotone (min_le_min start stop), t.floorBoundary_monotone (max_le_max start stop)⟩

/-- An offset is rounded down to the greatest boundary it reaches, in at most three steps and none below zero. Clamping
does so with both ends, whichever comes first, and keeps what is valid. -/
theorem clamping_rounds_down (t : Text) :
    (∀ p, t.IsBoundary p ↔ p = t.encoded.length ∨ ∃ b, t.encoded[p]? = some b ∧ b.IsUTF8FirstByte) ∧
      (∀ p, t.floorBoundary? p = some (t.floorBoundary p) ∧
        min p t.encoded.length < t.floorBoundary p + 4 ∧
        IsGreatest {b | t.IsBoundary b ∧ b ≤ p} (t.floorBoundary p) ∧
        t.floorBoundary (t.floorBoundary p) = t.floorBoundary p) ∧
      Monotone t.floorBoundary ∧
      (∀ a b, let s := clampTo ⟨a, b⟩ t
        s.start ≤ s.stop ∧ s.stop ≤ t.encoded.length ∧ t.IsBoundary s.start ∧ t.IsBoundary s.stop ∧
          s.clampTo t = s ∧ clampTo ⟨b, a⟩ t = s) ∧
      (∀ s : Selection, s.Valid t → s.clampTo t = s) ∧
      ∀ a b a' b', a ≤ a' → b ≤ b' →
        (clampTo ⟨a, b⟩ t).start ≤ (clampTo ⟨a', b'⟩ t).start ∧
          (clampTo ⟨a, b⟩ t).stop ≤ (clampTo ⟨a', b'⟩ t).stop := by
  refine ⟨fun p => Text.isBoundary_iff_encoded, ?_, t.floorBoundary_monotone, ?_, fun s valid => valid.clampTo_eq, ?_⟩
  · intro p
    refine ⟨t.floorBoundary?_eq p, ?_, t.floorBoundary_isGreatest p, t.floorBoundary_floorBoundary p⟩
    rw [t.length_encoded, ← t.floorBoundary_min_bytes p]
    exact Text.lt_floorBoundary_add_four (Nat.min_le_right _ _)
  · intro a b s
    obtain ⟨ordered, start, stop⟩ := clampTo_valid ⟨a, b⟩ t
    rw [t.length_encoded]
    exact ⟨ordered, stop.le_bytes, start, stop, clampTo_clampTo _ t, between_comm _ _⟩
  · intro a b a' b' start stop
    exact clampTo_mono start stop t

example : clampTo ⟨40, 2⟩ ['h', 'é', 'l', '😀'] = ⟨1, 8⟩ := by decide

end Selection

end PostEditor
