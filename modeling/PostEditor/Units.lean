import PostEditor.Text

namespace PostEditor

namespace Text

def unitSize (c : Char) : Nat := if c.toNat < 0x10000 then 1 else 2

theorem unitSize_pos (c : Char) : 0 < unitSize c := by
  unfold unitSize
  split <;> omega

def units (t : Text) : Nat := weight unitSize t

/-- The byte offset of unit offset `p`; inside a pair it rounds down, past the end it stops there. -/
def unitsToBytes (t : Text) (p : Nat) : Nat := bytes (front unitSize p t)

/-- The units before byte offset `p`, which is past the end or a character boundary. -/
def bytesToUnits? (t : Text) (p : Nat) : Option Nat :=
  if bytes t ≤ p then some (units t)
  else if IsBoundary t p then some (units (before t p))
  else none

def bytesToUnits (t : Text) (p : Nat) : Nat := units (before t p)

@[simp] theorem units_nil : units [] = 0 := rfl

@[simp] theorem units_cons (c : Char) (t : Text) : units (c :: t) = unitSize c + units t := rfl

@[simp] theorem units_append (s t : Text) : units (s ++ t) = units s + units t :=
  weight_append _ s t

@[simp] theorem unitsToBytes_units_append (s t : Text) :
    unitsToBytes (s ++ t) (units s) = bytes s := by
  simp only [unitsToBytes, units, front_weight_append unitSize_pos]

@[simp] theorem bytesToUnits_bytes_append (s t : Text) :
    bytesToUnits (s ++ t) (bytes s) = units s := by
  simp [bytesToUnits]

theorem isBoundary_unitsToBytes (t : Text) (p : Nat) : IsBoundary t (unitsToBytes t p) :=
  isBoundary_iff.mpr ⟨_, _, (front_append_back unitSize p t).symm, rfl⟩

theorem bytesToUnits?_of_isBoundary {t : Text} {p : Nat} (h : IsBoundary t p) :
    bytesToUnits? t p = some (bytesToUnits t p) := by
  unfold bytesToUnits?
  split
  · rename_i hp
    have he : p = bytes t := Nat.le_antisymm h.le_bytes hp
    subst he
    have := before_bytes_append t []
    simp only [List.append_nil] at this
    simp [bytesToUnits, this]
  · simp only [bytesToUnits]

theorem unitsToBytes_bytesToUnits {t : Text} {p : Nat} (h : IsBoundary t p) :
    unitsToBytes t (bytesToUnits t p) = p := by
  obtain ⟨s, r, rfl, rfl⟩ := isBoundary_iff.mp h
  simp

end Text

end PostEditor
