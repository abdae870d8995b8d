import PostEditor.Record
import PostEditor.Proofs.ValueReading

namespace PostEditor

namespace Spelling

variable {use : Use}

theorem OfChars.skip {s t : Text} (h : OfChars use s t) : OfChars .skipped s t := by
  induction h with
  | nil => exact .nil
  | cons char rest ih =>
    refine .cons ?_ ih
    cases char with
    | plain printable no_quote no_escape => exact .plain printable no_quote no_escape
    | letter escaped => exact .letter escaped
    | code quad => exact .code quad
    | pair beyond high low => exact .pair beyond high low
    | half _ surrogate quad => exact .half rfl surrogate quad

theorem OfName.skip {name t : Text} (h : OfName use name t) : OfName .skipped name t := by
  cases h with
  | padded before chars after => exact .padded before chars.skip after

theorem OfScalar.skip {v : Json} {t : Text} (h : OfScalar use v t) : OfScalar .skipped v t := by
  cases h with
  | null => exact .null
  | bool => exact .bool
  | number numeral => exact .number numeral
  | string chars => exact .string chars.skip

mutual

theorem OfValue.skip : ∀ {v : Json} {t : Text}, OfValue use v t → OfValue .skipped v t
  | _, _, .scalar scalar => .scalar scalar.skip
  | _, _, .emptyArray blanks => .emptyArray blanks
  | _, _, .array items => .array items.skip
  | _, _, .emptyObject blanks => .emptyObject blanks
  | _, _, .object members => .object members.skip

theorem OfPadded.skip : ∀ {v : Json} {t : Text}, OfPadded use v t → OfPadded .skipped v t
  | _, _, .padded before value after => .padded before value.skip after

theorem OfItems.skip : ∀ {vs : List Json} {t : Text}, OfItems use vs t → OfItems .skipped vs t
  | _, _, .one value => .one value.skip
  | _, _, .more value rest => .more value.skip rest.skip

theorem OfMembers.skip : ∀ {ms : List (Text × Json)} {t : Text}, OfMembers use ms t → OfMembers .skipped ms t
  | _, _, .one named value => .one named.skip value.skip
  | _, _, .more named value rest => .more named.skip value.skip rest.skip

end

theorem OfPadded.exists_start {v : Json} {t : Text} (h : OfPadded use v t) (rest : Text) :
    ∃ c u, skipBlanks (t ++ rest) = c :: (u ++ rest) ∧ OfPadded use v (c :: u) ∧ c ≠ ']' ∧ c ≠ '}' := by
  cases h with
  | @padded _ b t b' before value after =>
    obtain ⟨c, u, rfl, hc, others⟩ := value.exists_cons
    refine ⟨c, u ++ b', ?_, .padded (show Blanks [] from nofun) value after, others⟩
    rw [List.append_assoc, skipBlanks_append before, List.append_assoc, List.cons_append, skipBlanks_cons hc,
      List.append_assoc]

theorem OfName.exists_start {name p : Text} (h : OfName use name p) (rest : Text) :
    ∃ u, skipBlanks (p ++ rest) = '"' :: (u ++ rest) ∧ OfName use name ('"' :: u) := by
  cases h with
  | @padded b b' name t before chars after =>
    refine ⟨t ++ '"' :: b', ?_, .padded (show Blanks [] from nofun) chars after⟩
    rw [List.append_assoc, skipBlanks_append before]
    exact skipBlanks_cons (by decide) _

theorem skipValue_append {v : Json} {t rest : Text} (h : OfPadded .skipped v t) (stop : Stops rest) :
    ∃ b, Blanks b ∧ skipValue (t ++ rest) = .ok (b ++ rest) := by
  have enough : 2 * t.length ≤ fuelFor (t ++ rest) := by
    simp only [fuelFor, List.length_append]
    omega
  obtain ⟨b, blank, v', read, _⟩ := h.read enough (show _ → v.Within 0 from nofun) stop
  exact ⟨b, blank, by rw [skipValue, read]; rfl⟩

theorem OfValue.scalar_of_within {v : Json} {t : Text} (h : OfValue use v t) (within : v.Within 0) :
    OfScalar use v t := by
  cases h with
  | scalar scalar => exact scalar
  | emptyArray | array | emptyObject | object => cases within

theorem OfScalar.rest_eq {v v' : Json} {t rest rest' : Text} (h : OfScalar .kept v t) (stop : Stops rest)
    (read : readScalar .kept (t ++ rest) = .ok (v', rest')) : rest' = rest := by
  have by_reading (within : v.Within 0) : rest' = rest := by
    obtain ⟨_, found, _⟩ := h.read (fun _ => within) stop
    exact (Prod.mk.inj (Except.ok.inj (read.symm.trans found))).2
  cases h with
  | null => exact by_reading .null
  | bool => exact by_reading .bool
  | string => exact by_reading .string
  | @number n t numeral =>
    cases fits : n.overflows with
    | false => exact by_reading (.number fits)
    | true =>
      obtain ⟨c, u, rfl, start⟩ := numeral.exists_cons
      have refused : readNumber .kept (c :: u ++ rest) = .error .malformed := by
        rw [numeral.read stop.noNumberChar, if_pos ⟨rfl, fits⟩]
      rw [List.cons_append, readScalar_of_numberStart start, ← List.cons_append, refused] at read
      cases read

end Spelling

open Spelling

section

variable {α : Type} {accept : Json → Option α} {v : Json}

theorem readAs_scalar {b t : Text} (blank : Blanks b) (h : OfScalar .kept v t) (rest : Text) :
    readAs accept (b ++ (t ++ rest)) = (readScalar .kept (t ++ rest)).bind fun (v, rest) =>
      match accept v with
      | some a => .ok (a, rest)
      | none => .error .mismatch := by
  obtain ⟨c, u, rfl, hc, other⟩ := h.exists_cons
  simp only [List.mem_cons, not_or] at other
  obtain ⟨bracket, _, brace, _⟩ := other
  rw [readAs, skipBlanks_append blank, List.cons_append, skipBlanks_cons hc]
  split
  next array => exact absurd (List.cons.inj array).1 bracket
  next object => exact absurd (List.cons.inj object).1 brace
  next => rfl

theorem readAs_of_opening {b : Text} {c : Char} (blank : Blanks b) (opening : c = '[' ∨ c = '{') (t : Text) :
    readAs accept (b ++ c :: t) = .error .mismatch := by
  rw [readAs, skipBlanks_append blank]
  rcases opening with rfl | rfl
  · rw [skipBlanks_cons (by decide)]
    rfl
  · rw [skipBlanks_cons (by decide)]
    rfl

end

namespace RecordField

variable {σ : Type}

/-- However the value is spelled, the field reads it up to its end and puts it into the record. -/
def Reads (f : RecordField σ) (v : Json) (put : σ → σ) : Prop :=
  ∀ ⦃t rest : Text⦄ (record : σ), OfPadded .kept v t → Stops rest →
    ∃ b, Blanks b ∧ f.read record (t ++ rest) = .ok (put record, b ++ rest)

def Ends (f : RecordField σ) : Prop :=
  ∀ ⦃v : Json⦄ ⦃t rest rest' : Text⦄ ⦃record record' : σ⦄, OfPadded .kept v t → Stops rest →
    f.read record (t ++ rest) = .ok (record', rest') → ∃ b, Blanks b ∧ rest' = b ++ rest

variable {α : Type} {accept : Json → Option α}

theorem scalar_reads {v : Json} {a : α} (accepted : accept v = some a) (within : v.Within 0) {name : String}
    {put : σ → α → σ} {put' : σ → σ} (puts : ∀ record, put record a = put' record) :
    (scalar name accept put).Reads v put' := by
  intro t rest record padded stop
  cases padded with
  | @padded _ b t b' before value after =>
    obtain ⟨v', read, same⟩ :=
      (value.scalar_of_within within).read (fun _ => within) (stop.blanks_append after)
    obtain rfl := same rfl
    refine ⟨b', after, ?_⟩
    simp only [scalar, List.append_assoc, readAs_scalar before (value.scalar_of_within within), read, Except.bind,
      accepted, Except.map, puts]

theorem scalar_ends (name : String) (accept : Json → Option α) (put : σ → α → σ) :
    (scalar name accept put).Ends := by
  intro v t rest rest' record record' padded stop read
  cases padded with
  | @padded _ b t b' before value after =>
    obtain ⟨⟨a, behind⟩, accepted, made⟩ := map_eq_ok read
    obtain ⟨rfl, rfl⟩ := Prod.mk.inj made
    rw [List.append_assoc, List.append_assoc] at accepted
    cases value with
    | scalar scalar =>
      rw [readAs_scalar before scalar] at accepted
      obtain ⟨⟨v', behind'⟩, read', accepted⟩ := bind_eq_ok accepted
      obtain rfl := scalar.rest_eq (stop.blanks_append after) read'
      simp only at accepted
      split at accepted
      next =>
        obtain ⟨_, rfl⟩ := Prod.mk.inj (Except.ok.inj accepted)
        exact ⟨b', after, rfl⟩
      next => cases accepted
    | emptyArray | array =>
      rw [List.cons_append, readAs_of_opening before (.inl rfl)] at accepted
      cases accepted
    | emptyObject | object =>
      rw [List.cons_append, readAs_of_opening before (.inr rfl)] at accepted
      cases accepted

end RecordField

end PostEditor
