import PostEditor.Proofs.JsonSpelling

namespace PostEditor

theorem hexDigit_of_hexValue? {c : Char} {n : Nat} (h : hexValue? c = some n) : Spelling.HexDigit n c := by
  have table : ∀ k < 128, ∀ n ∈ hexValue? (Char.ofNat k),
      n < 16 ∧ (Char.ofNat k = hexDigit n ∨ Char.ofNat k = (hexDigit n).toLower) := by decide
  have ascii : c.toNat < 128 := by
    have upper : ∀ d : Char, d.toNat < 128 → c ≤ d → c.toNat < 128 :=
      fun d hd hc => Nat.lt_of_le_of_lt (UInt32.le_iff_toNat_le.mp hc) hd
    unfold hexValue? at h
    split at h
    next digit => exact upper '9' (by decide) digit.2
    next =>
      split at h
      next letter => exact upper 'f' (by decide) letter.2
      next =>
        split at h
        next letter => exact upper 'F' (by decide) letter.2
        next => cases h
  have value := table c.toNat ascii n
  rw [Char.ofNat_toNat] at value
  exact value h

theorem hexValue?_of_hexDigit {c : Char} {n : Nat} (h : Spelling.HexDigit n c) : hexValue? c = some n := by
  have table : ∀ m < 16, hexValue? (hexDigit m) = some m ∧ hexValue? (hexDigit m).toLower = some m := by decide
  obtain ⟨bound, rfl | rfl⟩ := h
  · exact (table n bound).1
  · exact (table n bound).2

theorem quad_of_hexQuad? {a b c d : Char} {n : Nat} (h : hexQuad? a b c d = some n) :
    Spelling.Quad n [a, b, c, d] := by
  simp only [hexQuad?, Option.bind_eq_bind, Option.bind_eq_some_iff] at h
  obtain ⟨w, hw, x, hx, y, hy, z, hz, value⟩ := h
  obtain rfl := Option.some.inj value
  exact .digits (hexDigit_of_hexValue? hw) (hexDigit_of_hexValue? hx) (hexDigit_of_hexValue? hy)
    (hexDigit_of_hexValue? hz)

namespace Spelling

theorem Quad.exists_digits {n : Nat} {q : Text} (h : Quad n q) :
    ∃ a b c d, q = [a, b, c, d] ∧ hexQuad? a b c d = some n := by
  cases h with
  | @digits w x y z a b c d ha hb hc hd =>
    refine ⟨a, b, c, d, rfl, ?_⟩
    simp [hexQuad?, hexValue?_of_hexDigit ha, hexValue?_of_hexDigit hb, hexValue?_of_hexDigit hc,
      hexValue?_of_hexDigit hd]

theorem Quad.lt {n : Nat} {q : Text} (h : Quad n q) : n < 0x10000 := by
  cases h with
  | digits ha hb hc hd =>
    have := ha.1
    have := hb.1
    have := hc.1
    have := hd.1
    omega

theorem toNat_lt (c : Char) : c.toNat < 0xD800 ∨ 0xDFFF < c.toNat ∧ c.toNat < 0x110000 := c.valid

theorem isHighSurrogate_highHalf {c : Char} (beyond : 0x10000 ≤ c.toNat) :
    isHighSurrogate (highHalf c) = true := by
  have bound := toNat_lt c
  unfold highHalf
  exact Bool.and_eq_true_iff.mpr ⟨decide_eq_true (by omega), decide_eq_true (by omega)⟩

theorem isLowSurrogate_lowHalf (c : Char) : isLowSurrogate (lowHalf c) = true := by
  unfold lowHalf
  exact Bool.and_eq_true_iff.mpr ⟨decide_eq_true (by omega), decide_eq_true (by omega)⟩

theorem pairChar_halves {c : Char} (beyond : 0x10000 ≤ c.toNat) : pairChar (highHalf c) (lowHalf c) = c := by
  have number : 0x10000 + (highHalf c - 0xD800) * 0x400 + (lowHalf c - 0xDC00) = c.toNat := by
    simp only [highHalf, lowHalf]
    omega
  rw [pairChar, number, Char.ofNat_toNat]

theorem not_surrogate (c : Char) : isHighSurrogate c.toNat = false ∧ isLowSurrogate c.toNat = false := by
  have bound := toNat_lt c
  simp only [isHighSurrogate, isLowSurrogate, Bool.and_eq_false_iff, decide_eq_false_iff_not]
  omega

/-- The read succeeds up to `rest`, and what is kept is `a`. -/
def ReadsAs {α : Type} (use : Use) (r : Except ReadError (α × Text)) (a : α) (rest : Text) : Prop :=
  ∃ a', r = .ok (a', rest) ∧ (use = .kept → a' = a)

section

variable {use : Use} {c : Char} {s t rest : Text}

theorem ReadsAs.push {r : Except ReadError (Text × Text)} (h : ReadsAs use r s rest) {c' : Char}
    (same : use = .kept → c' = c) : ReadsAs use (pushChar c' r) (c :: s) rest := by
  obtain ⟨s', rfl, kept⟩ := h
  exact ⟨c' :: s', rfl, fun h => by rw [same h, kept h]⟩

theorem OfChar.read {p : Text} (h : OfChar use c p) (later : ReadsAs use (readString use none t) s rest) :
    ReadsAs use (readString use none (p ++ t)) (c :: s) rest := by
  cases h with
  | plain printable no_quote no_escape =>
    have read : readString use none (c :: t) = pushChar c (readString use none t) := by
      simp [readString, no_escape, Char.not_lt.mpr printable]
    exact read ▸ later.push fun _ => rfl
  | @letter _ l escaped =>
    have no_code : l ≠ 'u' := by
      rintro rfl
      cases escaped
    have read : readString use none ('\\' :: l :: t) = pushChar c (readString use none t) := by
      simp [readString, no_code, escaped]
    exact read ▸ later.push fun _ => rfl
  | @code _ q quad =>
    obtain ⟨a₃, a₂, a₁, a₀, rfl, value⟩ := quad.exists_digits
    have read : readString use none ('\\' :: 'u' :: a₃ :: a₂ :: a₁ :: a₀ :: t) =
        pushChar c (readString use none t) := by
      simp [readString, value, not_surrogate]
    exact read ▸ later.push fun _ => rfl
  | @pair _ q r beyond high low =>
    obtain ⟨a₃, a₂, a₁, a₀, rfl, first⟩ := high.exists_digits
    obtain ⟨b₃, b₂, b₁, b₀, rfl, second⟩ := low.exists_digits
    cases use with
    | kept =>
      have read : readString .kept none
          ('\\' :: 'u' :: a₃ :: a₂ :: a₁ :: a₀ :: '\\' :: 'u' :: b₃ :: b₂ :: b₁ :: b₀ :: t) =
          pushChar c (readString .kept none t) := by
        simp [readString, first, second, isHighSurrogate_highHalf beyond, isLowSurrogate_lowHalf,
          pairChar_halves beyond]
      exact read ▸ later.push fun _ => rfl
    | skipped =>
      have read : readString .skipped none
          ('\\' :: 'u' :: a₃ :: a₂ :: a₁ :: a₀ :: '\\' :: 'u' :: b₃ :: b₂ :: b₁ :: b₀ :: t) =
          pushChar (Char.ofNat (highHalf c)) (pushChar (Char.ofNat (lowHalf c)) (readString .skipped none t)) := by
        simp [readString, first, second]
      obtain ⟨s', hs, _⟩ := later
      exact ⟨_, by rw [List.append_assoc]; exact read.trans (by rw [hs]; rfl), nofun⟩
  | @half n q skipped surrogate quad =>
    subst skipped
    obtain ⟨a₃, a₂, a₁, a₀, rfl, value⟩ := quad.exists_digits
    have read : readString .skipped none ('\\' :: 'u' :: a₃ :: a₂ :: a₁ :: a₀ :: t) =
        pushChar (Char.ofNat n) (readString .skipped none t) := by
      simp [readString, value]
    exact read ▸ later.push nofun

theorem OfChars.read (h : OfChars use s t) (rest : Text) :
    ReadsAs use (readString use none (t ++ '"' :: rest)) s rest := by
  induction h with
  | nil => exact ⟨[], by simp [readString], fun _ => rfl⟩
  | cons char later ih =>
    rw [List.append_assoc]
    exact char.read ih

end

theorem bind_eq_ok {α γ : Type} {r : Except ReadError α} {f : α → Except ReadError γ} {y : γ}
    (h : r >>= f = .ok y) : ∃ x, r = .ok x ∧ f x = .ok y := by
  cases r with
  | error problem => cases h
  | ok x => exact ⟨x, rfl, h⟩

theorem map_eq_ok {α γ : Type} {r : Except ReadError α} {f : α → γ} {y : γ} (h : r.map f = .ok y) :
    ∃ x, r = .ok x ∧ f x = y := by
  cases r with
  | error problem => cases h
  | ok x => exact ⟨x, rfl, Except.ok.inj h⟩

theorem pushChar_eq_ok {c : Char} {r : Except ReadError (Text × Text)} {s rest : Text}
    (h : pushChar c r = .ok (s, rest)) : ∃ s', s = c :: s' ∧ r = .ok (s', rest) := by
  obtain ⟨⟨s', rest'⟩, hr, pushed⟩ := map_eq_ok h
  obtain ⟨rfl, rfl⟩ := Prod.mk.inj pushed
  exact ⟨s', rfl, hr⟩

theorem toNat_ofNat_of_valid {n : Nat} (valid : n.isValidChar) : (Char.ofNat n).toNat = n := by
  rw [Char.ofNat, dif_pos valid]
  rfl

theorem OfChar.of_code {use : Use} {n : Nat} {q : Text} (quad : Quad n q) (high : isHighSurrogate n = false)
    (low : isLowSurrogate n = false) : OfChar use (Char.ofNat n) ('\\' :: 'u' :: q) := by
  have bound := quad.lt
  have number : (Char.ofNat n).toNat = n := by
    simp only [isHighSurrogate, isLowSurrogate, Bool.and_eq_false_iff, decide_eq_false_iff_not] at high low
    have valid : n < 0xD800 ∨ 0xDFFF < n ∧ n < 0x110000 := by omega
    exact toNat_ofNat_of_valid valid
  exact .code (number.symm ▸ quad)

theorem OfChar.of_halves {use : Use} {n m : Nat} {q r : Text} (high : Quad n q) (hn : isHighSurrogate n = true)
    (low : Quad m r) (hm : isLowSurrogate m = true) :
    OfChar use (pairChar n m) ('\\' :: 'u' :: q ++ '\\' :: 'u' :: r) := by
  simp only [isHighSurrogate, isLowSurrogate, Bool.and_eq_true, decide_eq_true_eq] at hn hm
  have number : (pairChar n m).toNat = 0x10000 + (n - 0xD800) * 0x400 + (m - 0xDC00) := by
    have valid : 0x10000 + (n - 0xD800) * 0x400 + (m - 0xDC00) < 0x110000 := by omega
    exact toNat_ofNat_of_valid (Or.inr ⟨by omega, valid⟩)
  have first : highHalf (pairChar n m) = n := by
    rw [highHalf, number]
    omega
  have second : lowHalf (pairChar n m) = m := by
    rw [lowHalf, number]
    omega
  exact .pair (by omega) (first.symm ▸ high) (second.symm ▸ low)

/-- What is left to read of a string: its characters, or first the second half of a pair. -/
def OfRest : Option Nat → Text → Text → Prop
  | none, s, p => OfChars .kept s p
  | some high, s, p => ∃ low q s' p', s = pairChar high low :: s' ∧ p = '\\' :: 'u' :: q ++ p' ∧ Quad low q ∧
      isLowSurrogate low = true ∧ OfChars .kept s' p'

/-- What is read as a string spells it, as the rest of a pair if one half has been read. -/
theorem chars_of_readString {half : Option Nat} {t s rest : Text} (first : ∀ high ∈ half, isHighSurrogate high = true)
    (h : readString .kept half t = .ok (s, rest)) : ∃ p, t = p ++ '"' :: rest ∧ OfRest half s p := by
  fun_induction readString .kept half t generalizing s with
  | case1 rest' =>
    obtain ⟨rfl, rfl⟩ := Prod.mk.inj (Except.ok.inj h)
    exact ⟨[], rfl, .nil⟩
  | case3 a b c d rest' n value high ih =>
    obtain ⟨p, rfl, low, q, s', p', rfl, rfl, quad, surrogate, later⟩ := ih (fun _ hn => Option.some.inj hn ▸ high.2) h
    refine ⟨'\\' :: 'u' :: [a, b, c, d] ++ ('\\' :: 'u' :: q ++ p'), by simp, ?_⟩
    have pair : OfChar .kept _ _ := .of_halves (quad_of_hexQuad? value) high.2 quad surrogate
    rw [← List.append_assoc]
    exact .cons pair later
  | case5 a b c d rest' n value high low ih =>
    obtain ⟨s', rfl, read⟩ := pushChar_eq_ok h
    obtain ⟨p, rfl, later⟩ := ih nofun read
    exact ⟨'\\' :: 'u' :: [a, b, c, d] ++ p, rfl, .cons (.of_code (quad_of_hexQuad? value) (by simpa using high)
      (by simpa using low)) later⟩
  | case8 l rest' code not_code c escaped ih =>
    obtain ⟨s', rfl, read⟩ := pushChar_eq_ok h
    obtain ⟨p, rfl, later⟩ := ih nofun read
    exact ⟨['\\', l] ++ p, rfl, .cons (.letter escaped) later⟩
  | case11 c rest' quote code code' escape lone printable ih =>
    obtain ⟨s', rfl, read⟩ := pushChar_eq_ok h
    obtain ⟨p, rfl, later⟩ := ih nofun read
    have no_escape : c ≠ '\\' := by
      rintro rfl
      cases hp : p ++ '"' :: rest with
      | nil => exact lone rfl hp
      | cons x xs => exact escape x xs rfl hp
    exact ⟨[c] ++ p, rfl, .cons (.plain (Char.not_lt.mp printable) quote no_escape) later⟩
  | case14 high a b c d rest' low value surrogate ih =>
    obtain ⟨s', rfl, read⟩ := pushChar_eq_ok h
    obtain ⟨p, rfl, later⟩ := ih nofun read
    exact ⟨'\\' :: 'u' :: [a, b, c, d] ++ p, rfl, low, [a, b, c, d], s', p, rfl, rfl, quad_of_hexQuad? value,
      surrogate, later⟩
  | _ => cases h

end Spelling

end PostEditor
