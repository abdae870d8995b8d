import PostEditor.Mention
import PostEditor.Selection
import PostEditor.Proofs.Rounding
import Mathlib.Logic.Basic

namespace PostEditor

namespace Text

variable (p t : Text) (i j : Nat)

theorem before_append_add : before (p ++ t) (i + p.bytes) = p ++ before t i := by
  have cut := front_append_of_weight_le (Nat.le_add_left p.bytes i) t
  rw [show i + p.bytes - weight Char.utf8Size p = i from Nat.add_sub_cancel i p.bytes] at cut
  exact cut

theorem after_append_add : after (p ++ t) (i + p.bytes) = after t i := by
  have whole : p ++ before t i ++ after (p ++ t) (i + p.bytes) = p ++ before t i ++ after t i := by
    rw [← before_append_add, before_append_after, before_append_add, List.append_assoc, before_append_after]
  exact List.append_cancel_left whole

theorem floorBoundary_append_add : floorBoundary (p ++ t) (i + p.bytes) = floorBoundary t i + p.bytes := by
  rw [floorBoundary, before_append_add, bytes_append, Nat.add_comm]
  rfl

theorem isBoundary_append_add_iff : IsBoundary (p ++ t) (i + p.bytes) ↔ IsBoundary t i := by
  rw [IsBoundary, floorBoundary_append_add, Nat.add_right_cancel_iff, IsBoundary]

theorem slice_append_add : slice (p ++ t) (i + p.bytes) (j + p.bytes) = slice t i j := by
  rw [slice, before_append_add, after_append_add, slice]

theorem slice?_append_add : slice? (p ++ t) (i + p.bytes) (j + p.bytes) = slice? t i j := by
  simp only [slice?, Nat.add_le_add_iff_right, isBoundary_append_add_iff, slice_append_add]

theorem splice_append_add (insert : Text) :
    splice (p ++ t) (i + p.bytes) (j + p.bytes) insert = p ++ splice t i j insert := by
  simp only [splice, before_append_add, after_append_add, List.append_assoc]

variable {p}

/-- At its start a text that follows `p` is behind the end of `p`, which has to be no trigger. -/
theorem getLast?_before_append_add {trigger : Char} (hp : p.getLast? ≠ some trigger) :
    (before (p ++ t) (i + p.bytes)).getLast? = some trigger ↔ (before t i).getLast? = some trigger := by
  rw [before_append_add]
  cases hb : before t i with
  | nil => simp [hp]
  | cons c rest => simp [List.getLast?_append, List.getLast?_cons]

end Text

namespace Selection

def shift (s : Selection) (n : Nat) : Selection := ⟨s.start + n, s.stop + n⟩

@[simp] theorem shift_start (s : Selection) (n : Nat) : (s.shift n).start = s.start + n := rfl

@[simp] theorem shift_stop (s : Selection) (n : Nat) : (s.shift n).stop = s.stop + n := rfl

theorem cursor_add (i n : Nat) : cursor (i + n) = (cursor i).shift n := rfl

theorem between_add (a b n : Nat) : between (a + n) (b + n) = (between a b).shift n := by
  simp only [between, Nat.add_le_add_iff_right]
  split
  next => rfl
  next => rfl

theorem clampTo_shift (s : Selection) (p t : Text) :
    (s.shift p.bytes).clampTo (p ++ t) = (s.clampTo t).shift p.bytes := by
  simp only [clampTo, shift, Text.floorBoundary_append_add, between_add]

theorem isCursor_shift (s : Selection) (n : Nat) : (s.shift n).isCursor = s.isCursor := by
  simp [isCursor, shift]

theorem shift_inj {s r : Selection} {n : Nat} : s.shift n = r.shift n ↔ s = r := by
  cases s
  cases r
  simp [shift]

theorem shift_bne_shift (s r : Selection) (n : Nat) : (s.shift n != r.shift n) = (s != r) := by
  simp only [bne, beq_eq_decide, shift_inj]

end Selection

namespace Mention

variable {p : Text} {trigger : Char} (hp : p.getLast? ≠ some trigger) (t : Text)

include hp

theorem query_append_add (caret anchor : Nat) :
    query (p ++ t) (caret + p.bytes) (anchor + p.bytes) trigger = query t caret anchor trigger := by
  simp only [query, Nat.add_lt_add_iff_right, Text.isBoundary_append_add_iff, Text.slice?_append_add, ne_eq,
    Text.getLast?_before_append_add t anchor hp]

theorem typedTrigger?_append_add (caret : Nat) :
    typedTrigger? (p ++ t) (caret + p.bytes) trigger = (typedTrigger? t caret trigger).map (· + p.bytes) := by
  simp only [typedTrigger?, Text.isBoundary_append_add_iff, Text.getLast?_before_append_add t caret hp]
  split
  next => rfl
  next => rfl

end Mention

end PostEditor
