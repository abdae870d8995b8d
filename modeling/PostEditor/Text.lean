namespace PostEditor

/-- A text is its list of characters. -/
abbrev Text := List Char

namespace Text

def ofNat (n : Nat) : Text := Nat.toDigits 10 n

def toNat (t : Text) : Nat := Nat.ofDigitChars 10 t 0

@[simp] theorem toNat_ofNat (n : Nat) : toNat (ofNat n) = n := Nat.ofDigitChars_ten_toDigits

/-- The weight of a text in the unit that weighs one character as `w` says. -/
def weight (w : Char → Nat) : Text → Nat
  | [] => 0
  | c :: t => w c + weight w t

/-- The longest beginning of a text that weighs at most `n`. -/
def front (w : Char → Nat) : Nat → Text → Text
  | _, [] => []
  | n, c :: t => if w c ≤ n then c :: front w (n - w c) t else []

def back (w : Char → Nat) : Nat → Text → Text
  | _, [] => []
  | n, c :: t => if w c ≤ n then back w (n - w c) t else c :: t

@[simp] theorem weight_nil (w : Char → Nat) : weight w [] = 0 := rfl

@[simp] theorem weight_cons (w : Char → Nat) (c : Char) (t : Text) :
    weight w (c :: t) = w c + weight w t := rfl

@[simp] theorem weight_append (w : Char → Nat) (s t : Text) :
    weight w (s ++ t) = weight w s + weight w t := by
  induction s with
  | nil => simp
  | cons c s ih => simp [ih, Nat.add_assoc]

@[simp] theorem front_append_back (w : Char → Nat) (n : Nat) (t : Text) :
    front w n t ++ back w n t = t := by
  induction t generalizing n with
  | nil => rfl
  | cons c t ih =>
    simp only [front, back]
    split
    · simp [ih]
    · rfl

theorem weight_front_le (w : Char → Nat) (n : Nat) (t : Text) : weight w (front w n t) ≤ n := by
  induction t generalizing n with
  | nil => simp [front]
  | cons c t ih =>
    simp only [front]
    split
    · have := ih (n - w c)
      simp only [weight_cons]
      omega
    · simp

theorem weight_front_le_weight (w : Char → Nat) (n : Nat) (t : Text) :
    weight w (front w n t) ≤ weight w t := by
  have h := congrArg (weight w) (front_append_back w n t)
  rw [weight_append] at h
  omega

theorem front_weight_append {w : Char → Nat} (hw : ∀ c, 0 < w c) (s t : Text) :
    front w (weight w s) (s ++ t) = s := by
  induction s with
  | nil =>
    cases t with
    | nil => rfl
    | cons c t => simp [front, Nat.not_le.mpr (hw c)]
  | cons c s ih => simp [front, ih]

theorem back_weight_append {w : Char → Nat} (hw : ∀ c, 0 < w c) (s t : Text) :
    back w (weight w s) (s ++ t) = t := by
  have h := front_append_back w (weight w s) (s ++ t)
  rw [front_weight_append hw] at h
  exact List.append_cancel_left h

theorem front_of_weight_le {w : Char → Nat} {n : Nat} {t : Text} (h : weight w t ≤ n) :
    front w n t = t := by
  induction t generalizing n with
  | nil => rfl
  | cons c t ih =>
    simp only [weight_cons] at h
    have hc : w c ≤ n := by omega
    simp only [front, hc, if_true]
    rw [ih (by omega)]

theorem front_append_of_le {w : Char → Nat} (hw : ∀ c, 0 < w c) {n : Nat} {s t : Text}
    (h : n ≤ weight w s) : front w n (s ++ t) = front w n s := by
  induction s generalizing n with
  | nil =>
    have hn : n = 0 := by simpa using h
    subst hn
    cases t with
    | nil => rfl
    | cons c t => simp [front, Nat.not_le.mpr (hw c)]
  | cons c s ih =>
    simp only [List.cons_append, front]
    split
    · rw [ih (by simp only [weight_cons] at h; omega)]
    · rfl

def bytes (t : Text) : Nat := weight Char.utf8Size t

/-- The text before byte offset `p`, rounded down to a character boundary. -/
def before (t : Text) (p : Nat) : Text := front Char.utf8Size p t

def after (t : Text) (p : Nat) : Text := back Char.utf8Size p t

def floorBoundary (t : Text) (p : Nat) : Nat := bytes (before t p)

/-- Byte offset `p` lies at an end of the text or between two of its characters. -/
def IsBoundary (t : Text) (p : Nat) : Prop := floorBoundary t p = p

instance (t : Text) (p : Nat) : Decidable (IsBoundary t p) :=
  inferInstanceAs (Decidable (floorBoundary t p = p))

def slice (t : Text) (p q : Nat) : Text := after (before t q) p

def slice? (t : Text) (p q : Nat) : Option Text :=
  if p ≤ q ∧ IsBoundary t p ∧ IsBoundary t q then some (slice t p q) else none

def splice (t : Text) (p q : Nat) (insert : Text) : Text := before t p ++ insert ++ after t q

@[simp] theorem bytes_nil : bytes [] = 0 := rfl

@[simp] theorem bytes_cons (c : Char) (t : Text) : bytes (c :: t) = c.utf8Size + bytes t := rfl

@[simp] theorem bytes_append (s t : Text) : bytes (s ++ t) = bytes s + bytes t :=
  weight_append _ s t

@[simp] theorem before_append_after (t : Text) (p : Nat) : before t p ++ after t p = t :=
  front_append_back _ p t

@[simp] theorem before_bytes_append (s t : Text) : before (s ++ t) (bytes s) = s :=
  front_weight_append Char.utf8Size_pos s t

@[simp] theorem after_bytes_append (s t : Text) : after (s ++ t) (bytes s) = t :=
  back_weight_append Char.utf8Size_pos s t

theorem floorBoundary_le (t : Text) (p : Nat) : floorBoundary t p ≤ p :=
  weight_front_le _ p t

theorem floorBoundary_le_bytes (t : Text) (p : Nat) : floorBoundary t p ≤ bytes t :=
  weight_front_le_weight _ p t

/-- A boundary is the length of a beginning of the text. -/
theorem isBoundary_iff {t : Text} {p : Nat} :
    IsBoundary t p ↔ ∃ s r, t = s ++ r ∧ bytes s = p := by
  constructor
  · intro h
    exact ⟨before t p, after t p, (before_append_after t p).symm, h⟩
  · rintro ⟨s, r, rfl, rfl⟩
    simp [IsBoundary, floorBoundary]

theorem isBoundary_floorBoundary (t : Text) (p : Nat) : IsBoundary t (floorBoundary t p) :=
  isBoundary_iff.mpr ⟨before t p, after t p, (before_append_after t p).symm, rfl⟩

theorem IsBoundary.le_bytes {t : Text} {p : Nat} (h : IsBoundary t p) : p ≤ bytes t :=
  h ▸ floorBoundary_le_bytes t p

theorem isBoundary_zero (t : Text) : IsBoundary t 0 :=
  isBoundary_iff.mpr ⟨[], t, rfl, rfl⟩

theorem isBoundary_bytes (t : Text) : IsBoundary t (bytes t) :=
  isBoundary_iff.mpr ⟨t, [], by simp, rfl⟩

theorem exists_split {t : Text} {p q : Nat} (hpq : p ≤ q) (hp : IsBoundary t p)
    (hq : IsBoundary t q) : ∃ s m r, t = s ++ m ++ r ∧ bytes s = p ∧ bytes s + bytes m = q := by
  obtain ⟨u, r, rfl, rfl⟩ := isBoundary_iff.mp hq
  obtain ⟨s, v, hv, rfl⟩ := isBoundary_iff.mp hp
  obtain ⟨m, hm⟩ : ∃ m, u = s ++ m := by
    refine ⟨after u (bytes s), ?_⟩
    have hfront : before (u ++ r) (bytes s) = before u (bytes s) := front_append_of_le Char.utf8Size_pos hpq
    rw [hv, before_bytes_append] at hfront
    exact (before_append_after u (bytes s)).symm.trans (by rw [← hfront])
  exact ⟨s, m, r, by rw [hm], rfl, by rw [hm, bytes_append]⟩

@[simp] theorem slice_append (s m r : Text) : slice (s ++ m ++ r) (bytes s) (bytes s + bytes m) = m := by
  have h := before_bytes_append (s ++ m) r
  rw [bytes_append] at h
  rw [slice, h, after_bytes_append]

@[simp] theorem splice_append (s m r insert : Text) :
    splice (s ++ m ++ r) (bytes s) (bytes s + bytes m) insert = s ++ insert ++ r := by
  have h1 := before_bytes_append s (m ++ r)
  have h2 := after_bytes_append (s ++ m) r
  rw [bytes_append] at h2
  rw [splice, h2, List.append_assoc s m r, h1]

end Text

end PostEditor
