import PostEditor.Proofs.StringReading
import Mathlib.Data.List.TakeWhile

namespace PostEditor

namespace Spelling

/-- What may follow a value: nothing, a blank, or the end of a part of an array or object. -/
def Stops (rest : Text) : Prop := ∀ c ∈ rest.head?, isJsonBlank c = true ∨ c ∈ [',', ']', '}']

def NoNumberChar (c : Char) : Prop := c.isDigit = false ∧ c ∉ ['.', 'e', 'E']

theorem Stops.noNumberChar {rest : Text} (h : Stops rest) : ∀ c ∈ rest.head?, NoNumberChar c := by
  intro c hc
  rcases h c hc with blank | mem
  · simp only [isJsonBlank, Bool.or_eq_true, beq_iff_eq] at blank
    rcases blank with ((rfl | rfl) | rfl) | rfl <;> exact ⟨by decide, by decide⟩
  · simp only [List.mem_cons, List.not_mem_nil, or_false] at mem
    rcases mem with rfl | rfl | rfl <;> exact ⟨by decide, by decide⟩

theorem spanDigits_append {ds rest : Text} (digits : ∀ c ∈ ds, c.isDigit = true)
    (stop : ∀ c ∈ rest.head?, c.isDigit = false) : spanDigits (ds ++ rest) = (ds, rest) := by
  induction ds with
  | nil =>
    cases rest with
    | nil => rfl
    | cons c rest =>
      have hc : c.isDigit = false := stop c rfl
      simp [spanDigits, hc]
  | cons d ds ih =>
    obtain ⟨hd, digits⟩ := List.forall_mem_cons.mp digits
    obtain ⟨taken, left⟩ := Prod.mk.inj (ih digits)
    simp [spanDigits, hd, taken, left]

section

variable {use : Use} {rest : Text}

theorem Digits.read {ds : Text} (h : Digits ds) (stop : ∀ c ∈ rest.head?, c.isDigit = false) :
    readDigits use (ds ++ rest) = .ok (ds, rest) := by
  rw [readDigits, spanDigits_append h.2 stop]
  split
  next empty => exact absurd (Prod.mk.inj empty).1 h.1
  next => rfl

theorem readWhole_append {ds : Text} (h : Digits ds) (no_zero : ds.head? = some '0' → ds = ['0'])
    (stop : ∀ c ∈ rest.head?, c.isDigit = false) : readWhole use (ds ++ rest) = .ok (ds, rest) := by
  have alone : ¬(ds.head? = some '0' ∧ ds.length ≠ 1) := by
    rintro ⟨zero, long⟩
    exact long (by rw [no_zero zero]; rfl)
  rw [readWhole, h.read stop]
  exact if_neg alone

theorem OfFraction.read {fraction : Option Text} {f : Text} (h : OfFraction fraction f)
    (stop : ∀ c ∈ rest.head?, c.isDigit = false ∧ c ≠ '.') : readFraction use (f ++ rest) = .ok (fraction, rest) := by
  cases h with
  | none =>
    cases rest with
    | nil => rfl
    | cons c rest =>
      have point : c ≠ '.' := (stop c rfl).2
      simp [readFraction, point]
  | @some ds digits =>
    have read : readDigits use (ds ++ rest) = .ok (ds, rest) := digits.read fun c hc => (stop c hc).1
    simp only [List.cons_append, readFraction, read]
    rfl

theorem OfExponent.read {exponent : Option (Bool × Text)} {x : Text} (h : OfExponent exponent x)
    (stop : ∀ c ∈ rest.head?, NoNumberChar c) : readExponent use (x ++ rest) = .ok (exponent, rest) := by
  cases h with
  | none =>
    cases rest with
    | nil => rfl
    | cons c rest =>
      obtain ⟨_, mark⟩ := stop c rfl
      simp only [List.mem_cons, not_or] at mark
      unfold readExponent
      simp [mark]
  | @some mark negative sign ds marked signed digits =>
    have read : readDigits use (ds ++ rest) = .ok (ds, rest) := digits.read fun c hc => (stop c hc).1
    cases signed with
    | minus | plus =>
      unfold readExponent
      simp only [List.cons_append, List.nil_append, if_pos marked, read]
      rfl
    | none =>
      obtain ⟨d, ds, rfl⟩ := List.exists_cons_of_ne_nil digits.1
      have hd : d.isDigit = true := digits.2 d List.mem_cons_self
      unfold readExponent
      simp only [List.cons_append, List.nil_append, if_pos marked] at read ⊢
      split
      next signed => cases (List.cons.inj signed).1 ▸ hd
      next signed => cases (List.cons.inj signed).1 ▸ hd
      next => simp only [read]; rfl

theorem OfExponent.noNumberChar {exponent : Option (Bool × Text)} {x : Text} (h : OfExponent exponent x)
    (stop : ∀ c ∈ rest.head?, NoNumberChar c) : ∀ c ∈ (x ++ rest).head?, c.isDigit = false ∧ c ≠ '.' := by
  cases h with
  | none =>
    intro c hc
    obtain ⟨digit, others⟩ := stop c hc
    exact ⟨digit, fun point => others (point ▸ List.mem_cons_self)⟩
  | some marked signed digits =>
    intro c hc
    obtain rfl := Option.some.inj hc
    rcases marked with rfl | rfl <;> exact ⟨by decide, by decide⟩

theorem OfFraction.noDigit {fraction : Option Text} {f : Text} (h : OfFraction fraction f)
    (stop : ∀ c ∈ rest.head?, c.isDigit = false ∧ c ≠ '.') : ∀ c ∈ (f ++ rest).head?, c.isDigit = false := by
  cases h with
  | none => exact fun c hc => (stop c hc).1
  | some digits =>
    intro c hc
    obtain rfl := Option.some.inj hc
    decide

theorem OfNumeral.read {n : Numeral} {t : Text} (h : OfNumeral n t) (stop : ∀ c ∈ rest.head?, NoNumberChar c) :
    readNumber use (t ++ rest) =
      if use = .kept ∧ n.overflows = true then .error .malformed else .ok (n, rest) := by
  cases h with
  | @parts negative whole f x fraction exponent digits no_zero hf hx =>
    have behind_fraction := hx.noNumberChar stop
    have behind_whole := hf.noDigit behind_fraction
    have first : readWhole use (whole ++ (f ++ (x ++ rest))) = .ok (whole, f ++ (x ++ rest)) :=
      readWhole_append digits no_zero behind_whole
    have second : readFraction use (f ++ (x ++ rest)) = .ok (fraction, x ++ rest) := hf.read behind_fraction
    have third : readExponent use (x ++ rest) = .ok (exponent, rest) := hx.read stop
    rw [List.append_assoc, List.append_assoc, List.append_assoc]
    cases negative with
    | true =>
      simp only [if_true, List.cons_append, List.nil_append, readNumber, first, second, third, bind, Except.bind]
    | false =>
      obtain ⟨d, ds, rfl⟩ := List.exists_cons_of_ne_nil digits.1
      have unsigned : d ≠ '-' := by
        rintro rfl
        cases digits.2 '-' List.mem_cons_self
      simp only [Bool.false_eq_true, if_false, List.nil_append, List.cons_append] at first ⊢
      rw [readNumber]
      · simp only [first, second, third, bind, Except.bind]
      · rintro r signed
        exact unsigned (List.cons.inj signed).1

theorem OfNumeral.exists_cons {n : Numeral} {t : Text} (h : OfNumeral n t) :
    ∃ c t', t = c :: t' ∧ (c = '-' ∨ c.isDigit = true) := by
  cases h with
  | @parts negative whole f x fraction exponent digits no_zero hf hx =>
    cases negative with
    | true => exact ⟨'-', _, rfl, Or.inl rfl⟩
    | false =>
      obtain ⟨d, ds, rfl⟩ := List.exists_cons_of_ne_nil digits.1
      exact ⟨d, _, rfl, Or.inr (digits.2 d List.mem_cons_self)⟩

theorem digits_of_readDigits {t ds : Text} (h : readDigits use t = .ok (ds, rest)) :
    t = ds ++ rest ∧ Digits ds := by
  rw [readDigits] at h
  split at h
  next => cases h
  next r some_digits =>
    obtain ⟨rfl, rfl⟩ := Prod.mk.inj (Except.ok.inj h)
    refine ⟨List.takeWhile_append_dropWhile.symm, ?_, fun c hc => List.mem_takeWhile_imp hc⟩
    exact fun none => some_digits _ (by rw [spanDigits, none])

theorem digits_of_readWhole {t ds : Text} (h : readWhole use t = .ok (ds, rest)) :
    t = ds ++ rest ∧ Digits ds ∧ (ds.head? = some '0' → ds = ['0']) := by
  obtain ⟨⟨ds', rest'⟩, read, checked⟩ := bind_eq_ok h
  simp only at checked
  split at checked
  next => cases checked
  next alone =>
    obtain ⟨same, rfl⟩ := Prod.mk.inj (Except.ok.inj checked)
    subst same
    obtain ⟨ht, digits⟩ := digits_of_readDigits read
    refine ⟨ht, digits, ?_⟩
    intro zero
    have single : ds'.length = 1 := by_contra fun long => alone ⟨zero, long⟩
    obtain ⟨d, rfl⟩ := List.length_eq_one_iff.mp single
    rw [Option.some.inj zero]

theorem fraction_of_readFraction {t : Text} {fraction : Option Text} (h : readFraction use t = .ok (fraction, rest)) :
    ∃ f, t = f ++ rest ∧ OfFraction fraction f := by
  unfold readFraction at h
  split at h
  next t =>
    obtain ⟨⟨ds, rest'⟩, read, made⟩ := bind_eq_ok h
    obtain ⟨rfl, rfl⟩ := Prod.mk.inj (Except.ok.inj made)
    obtain ⟨rfl, digits⟩ := digits_of_readDigits read
    exact ⟨'.' :: ds, rfl, .some digits⟩
  next =>
    obtain ⟨rfl, rfl⟩ := Prod.mk.inj (Except.ok.inj h)
    exact ⟨[], rfl, .none⟩

theorem exponent_of_readExponent {t : Text} {exponent : Option (Bool × Text)}
    (h : readExponent use t = .ok (exponent, rest)) : ∃ x, t = x ++ rest ∧ OfExponent exponent x := by
  unfold readExponent at h
  split at h
  next =>
    obtain ⟨rfl, rfl⟩ := Prod.mk.inj (Except.ok.inj h)
    exact ⟨[], rfl, .none⟩
  next c t =>
    split at h
    next marked =>
      split at h
      next negative unsigned signed =>
        obtain ⟨⟨ds, rest'⟩, read, made⟩ := bind_eq_ok h
        obtain ⟨rfl, rfl⟩ := Prod.mk.inj (Except.ok.inj made)
        obtain ⟨rfl, digits⟩ := digits_of_readDigits read
        obtain ⟨sign, rfl, hs⟩ : ∃ sign, t = sign ++ (ds ++ rest') ∧ OfSign negative sign := by
          split at signed
          next r =>
            obtain ⟨rfl, rfl⟩ := Prod.mk.inj signed
            exact ⟨['-'], rfl, .minus⟩
          next r =>
            obtain ⟨rfl, rfl⟩ := Prod.mk.inj signed
            exact ⟨['+'], rfl, .plus⟩
          next =>
            obtain ⟨rfl, rfl⟩ := Prod.mk.inj signed
            exact ⟨[], rfl, .none⟩
        exact ⟨c :: (sign ++ ds), by simp, .some marked hs digits⟩
    next =>
      obtain ⟨rfl, rfl⟩ := Prod.mk.inj (Except.ok.inj h)
      exact ⟨[], rfl, .none⟩

theorem numeral_of_readNumber {t : Text} {n : Numeral} (h : readNumber .kept t = .ok (n, rest)) :
    ∃ p, t = p ++ rest ∧ OfNumeral n p ∧ n.overflows = false := by
  unfold readNumber at h
  split at h
  next negative unsigned signed =>
    obtain ⟨⟨whole, behind_whole⟩, first, h⟩ := bind_eq_ok h
    obtain ⟨⟨fraction, behind_fraction⟩, second, h⟩ := bind_eq_ok h
    obtain ⟨⟨exponent, behind_exponent⟩, third, h⟩ := bind_eq_ok h
    simp only at second third h
    split at h
    next => cases h
    next fits =>
      obtain ⟨rfl, rfl⟩ := Prod.mk.inj (Except.ok.inj h)
      obtain ⟨rfl, digits, no_zero⟩ := digits_of_readWhole first
      obtain ⟨f, rfl, hf⟩ := fraction_of_readFraction second
      obtain ⟨x, rfl, hx⟩ := exponent_of_readExponent third
      have sign : t = (if negative then ['-'] else []) ++ (whole ++ (f ++ (x ++ behind_exponent))) := by
        split at signed
        next r =>
          obtain ⟨rfl, rfl⟩ := Prod.mk.inj signed
          rfl
        next =>
          obtain ⟨rfl, rfl⟩ := Prod.mk.inj signed
          rfl
      exact ⟨_, by simpa using sign, .parts digits no_zero hf hx, by simpa using fits⟩

end

end Spelling

end PostEditor
