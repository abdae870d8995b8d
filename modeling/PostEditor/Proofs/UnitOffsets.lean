import PostEditor.Units
import PostEditor.Proofs.Rounding
import Mathlib.Order.Bounds.Basic

namespace PostEditor

namespace Text

variable {t : Text} {p q : Nat}

theorem units_before_le (hpq : p ≤ q) (hp : t.IsBoundary p) (hq : t.IsBoundary q) :
    t.bytesToUnits p ≤ t.bytesToUnits q := by
  obtain ⟨s, m, r, rfl, rfl, rfl⟩ := exists_split hpq hp hq
  have hs : bytesToUnits (s ++ m ++ r) (bytes s) = units s := by
    rw [List.append_assoc, bytesToUnits_bytes_append]
  have hm : bytesToUnits (s ++ m ++ r) (bytes s + bytes m) = units (s ++ m) := by
    rw [← bytes_append, bytesToUnits_bytes_append]
  rw [hs, hm, units_append]
  exact Nat.le_add_right _ _

theorem bytesToUnits_le_units (t : Text) (p : Nat) : t.bytesToUnits p ≤ t.units := by
  have h := congrArg units (before_append_after t p)
  rw [units_append] at h
  unfold bytesToUnits
  omega

theorem units_before_lt (hpq : p < q) (hp : t.IsBoundary p) (hq : t.IsBoundary q) :
    t.bytesToUnits p < t.bytesToUnits q := by
  refine Nat.lt_of_le_of_ne (units_before_le hpq.le hp hq) fun same => hpq.ne ?_
  rw [← unitsToBytes_bytesToUnits hp, same, unitsToBytes_bytesToUnits hq]

theorem before_unitsToBytes (t : Text) (p : Nat) : t.before (t.unitsToBytes p) = front unitSize p t := by
  have h := before_bytes_append (front unitSize p t) (back unitSize p t)
  rwa [front_append_back] at h

theorem bytesToUnits?_unitsToBytes (t : Text) (p : Nat) :
    t.bytesToUnits? (t.unitsToBytes p) = some (units (front unitSize p t)) := by
  rw [bytesToUnits?_of_isBoundary (isBoundary_unitsToBytes t p), bytesToUnits, before_unitsToBytes]

theorem unitsToBytes_isGreatest (t : Text) (p : Nat) :
    IsGreatest {b | t.IsBoundary b ∧ units (t.before b) ≤ p} (t.unitsToBytes p) := by
  refine ⟨⟨isBoundary_unitsToBytes t p, ?_⟩, ?_⟩
  · rw [before_unitsToBytes]
    exact weight_front_le _ _ _
  · rintro b ⟨hb, reached⟩
    have part : t.before b <+: front unitSize p t := isPrefix_front ⟨_, before_append_after t b⟩ reached
    have hle := weight_le_of_isPrefix (w := Char.utf8Size) part
    rwa [show weight Char.utf8Size (t.before b) = b from hb] at hle

theorem unitsToBytes_monotone (t : Text) : Monotone t.unitsToBytes := by
  intro p q hpq
  obtain ⟨boundary, reached⟩ := (t.unitsToBytes_isGreatest p).1
  exact (t.unitsToBytes_isGreatest q).2 ⟨boundary, reached.trans hpq⟩

/-- Unit offset `p` falls between the two units of a character. -/
def SplitsPair (t : Text) (p : Nat) : Prop :=
  ∃ s c r, t = s ++ c :: r ∧ 0x10000 ≤ c.toNat ∧ p = units s + 1

theorem inside_unitSize_iff : Inside unitSize t p ↔ t.SplitsPair p := by
  constructor
  · rintro ⟨s, c, r, rfl, hs, hc⟩
    have hs : units s < p := hs
    have hc : p < units s + unitSize c := hc
    unfold unitSize at hc
    split at hc
    next => omega
    next wide => exact ⟨s, c, r, rfl, by omega, by omega⟩
  · rintro ⟨s, c, r, rfl, wide, rfl⟩
    have two : unitSize c = 2 := if_neg (by omega)
    have hc : units s + 1 < units s + unitSize c := by omega
    exact ⟨s, c, r, rfl, Nat.lt_succ_self _, hc⟩

theorem units_front_eq_iff : units (front unitSize p t) = p ↔ p ≤ t.units ∧ ¬t.SplitsPair p := by
  rw [← inside_unitSize_iff]
  exact weight_front_eq_iff

theorem bytesToUnits?_of_bytes_le (h : t.bytes ≤ p) : t.bytesToUnits? p = some t.units := if_pos h

theorem bytesToUnits?_eq_none_iff : t.bytesToUnits? p = none ↔ p < t.bytes ∧ Inside Char.utf8Size t p := by
  unfold bytesToUnits?
  split
  next past =>
    have hn : ¬p < t.bytes := by omega
    simp [hn]
  next within =>
    have hp : p < t.bytes := by omega
    split
    next boundary =>
      have outside := (weight_front_eq_iff.mp boundary).2
      simp [outside]
    next other =>
      have inside := (not_isBoundary_iff.mp other).resolve_left (by omega)
      simp [hp, inside]

theorem le_units_of_bytesToUnits? {n : Nat} (h : t.bytesToUnits? p = some n) : n ≤ t.units := by
  unfold bytesToUnits? at h
  split at h
  next => exact (Option.some.inj h).ge
  next =>
    split at h
    next =>
      rw [← Option.some.inj h]
      exact t.bytesToUnits_le_units p
    next => cases h

def add32? (m n : Nat) : Option Nat := if m + n < UInt32.size then some (m + n) else none

/-- Walks on from the place with `u` units and `b` bytes in front of it, in search of unit offset `p`. It stops in front
of a character that would pass `p`, and behind one that reaches it. -/
def seekUnit? (p : Nat) : Nat → Nat → Text → Option Nat
  | _, b, [] => some b
  | u, b, c :: t => do
    let next ← add32? u (unitSize c)
    if next > p then some b
    else if next = p then some (b + c.utf8Size)
    else seekUnit? p next (b + c.utf8Size) t

def unitsToBytes? (t : Text) (p : Nat) : Option Nat := if p = 0 then some 0 else seekUnit? p 0 0 t

theorem front_unitSize_zero (t : Text) : front unitSize 0 t = [] := by
  cases t with
  | nil => rfl
  | cons c t => simp [front, Nat.not_le.mpr (unitSize_pos c)]

theorem seekUnit?_eq {u b : Nat} (hu : u ≤ p) (short : u + t.units < UInt32.size) :
    seekUnit? p u b t = some (b + bytes (front unitSize (p - u) t)) := by
  induction t generalizing u b with
  | nil => simp [seekUnit?, front]
  | cons c t ih =>
    rw [units_cons] at short
    have sum : add32? u (unitSize c) = some (u + unitSize c) := if_pos (by omega)
    simp only [seekUnit?, sum, Option.bind_eq_bind, Option.bind_some, front]
    split
    next passes =>
      have short : ¬unitSize c ≤ p - u := by omega
      simp [short]
    next fits =>
      have fits : unitSize c ≤ p - u := by omega
      simp only [fits, if_true, bytes_cons]
      split
      next reached =>
        have none_left : p - u - unitSize c = 0 := by omega
        rw [none_left, front_unitSize_zero, bytes_nil, Nat.add_zero]
      next missing =>
        rw [ih (by omega) (by omega), Nat.sub_add_eq, Nat.add_assoc]

theorem unitsToBytes?_eq (short : t.units < UInt32.size) (p : Nat) : t.unitsToBytes? p = some (t.unitsToBytes p) := by
  unfold unitsToBytes?
  split
  next start =>
    rw [start, unitsToBytes, front_unitSize_zero, bytes_nil]
  next =>
    rw [seekUnit?_eq (Nat.zero_le p) (by omega), Nat.zero_add, Nat.sub_zero]
    rfl

/-- The walk to a unit offset stays below 32 bits and ends at the greatest boundary with at most so many units in front.
On boundaries both conversions are inverse and increasing. -/
theorem unit_offsets_round_down_and_back (short : t.units < UInt32.size) :
    (∀ p, t.unitsToBytes? p = some (t.unitsToBytes p)) ∧
      (∀ p, IsGreatest {b | t.IsBoundary b ∧ units (t.before b) ≤ p} (t.unitsToBytes p)) ∧
      (∀ p, t.unitsToBytes p ≤ t.bytes) ∧
      Monotone t.unitsToBytes ∧
      (∀ p, ∃ n, t.bytesToUnits? (t.unitsToBytes p) = some n ∧ n ≤ p ∧ (n = p ↔ p ≤ t.units ∧ ¬t.SplitsPair p)) ∧
      (∀ b, t.IsBoundary b → ∃ n, t.bytesToUnits? b = some n ∧ t.unitsToBytes n = b) ∧
      (∀ b c, t.IsBoundary b → t.IsBoundary c → b < c →
        ∃ m n, t.bytesToUnits? b = some m ∧ t.bytesToUnits? c = some n ∧ m < n) ∧
      (∀ b, t.bytes ≤ b → t.bytesToUnits? b = some t.units) ∧
      (∀ b, t.bytesToUnits? b = none ↔ b < t.bytes ∧ Inside Char.utf8Size t b) ∧
      ∀ b n, t.bytesToUnits? b = some n → n < UInt32.size := by
  refine ⟨unitsToBytes?_eq short, unitsToBytes_isGreatest t, ?_, unitsToBytes_monotone t, ?_, ?_, ?_, ?_, ?_, ?_⟩
  · intro p
    exact (isBoundary_unitsToBytes t p).le_bytes
  · intro p
    exact ⟨_, bytesToUnits?_unitsToBytes t p, weight_front_le unitSize p t, units_front_eq_iff⟩
  · intro b hb
    exact ⟨_, bytesToUnits?_of_isBoundary hb, unitsToBytes_bytesToUnits hb⟩
  · intro b c hb hc hbc
    exact ⟨_, _, bytesToUnits?_of_isBoundary hb, bytesToUnits?_of_isBoundary hc, units_before_lt hbc hb hc⟩
  · intro b hb
    exact bytesToUnits?_of_bytes_le hb
  · intro b
    exact bytesToUnits?_eq_none_iff
  · intro b n h
    exact (le_units_of_bytesToUnits? h).trans_lt short

theorem unit_offsets_round_down_and_back_beyond_ascii :
    let t : Text := ['é', '😀', '€', '@']
    t.units < UInt32.size ∧ t.unitsToBytes? 2 = some 2 ∧
      IsGreatest {b | t.IsBoundary b ∧ units (t.before b) ≤ 2} 2 ∧
      (∃ n, t.bytesToUnits? 9 = some n ∧ t.unitsToBytes n = 9) ∧
      t.bytesToUnits? 11 = some 5 ∧ t.bytesToUnits? 4 = none := by
  intro t
  have short : t.units < UInt32.size := by decide
  obtain ⟨walk, greatest, _, _, _, inverse, _, past, nowhere, _⟩ := unit_offsets_round_down_and_back short
  exact ⟨short, walk 2, greatest 2, inverse 9 (by decide), past 11 (by decide),
    (nowhere 4).mpr ⟨by decide, by decide⟩⟩

end Text

end PostEditor
