import PostEditor.JsonScalar
import PostEditor.Lookup
import Mathlib.Data.List.Basic

namespace PostEditor

/-- The bytes that a percent-coded text stands for: `%XX` is one byte, and any other character its encoding. -/
def percentBytes : Text → List UInt8
  | [] => []
  | '%' :: high :: low :: t =>
    match hexValue? high, hexValue? low with
    | some h, some l => (16 * h + l).toUInt8 :: percentBytes t
    | _, _ => String.utf8EncodeChar '%' ++ percentBytes (high :: low :: t)
  | c :: t => String.utf8EncodeChar c ++ percentBytes t

def percentDecode? (t : Text) : Option Text :=
  (percentBytes t).toByteArray.utf8Decode?.map Array.toList

def upperHexDigits : Text := "0123456789ABCDEF".toList

/-- A text of characters that are kept and of bytes as a percent sign and two upper-case digits. -/
inductive PercentCoded (keep : Char → Bool) : Text → Prop
  | nil : PercentCoded keep []
  | kept {c : Char} {t : Text} (kept : keep c = true) (rest : PercentCoded keep t) : PercentCoded keep (c :: t)
  | byte {high low : Char} {t : Text} (high_mem : high ∈ upperHexDigits) (low_mem : low ∈ upperHexDigits)
      (rest : PercentCoded keep t) : PercentCoded keep ('%' :: high :: low :: t)

variable {keep : Char → Bool}

theorem hexDigit_mem_upperHexDigits : ∀ n < 16, hexDigit n ∈ upperHexDigits := by decide

theorem hexValue?_hexDigit : ∀ n < 16, hexValue? (hexDigit n) = some n := by decide

theorem PercentCoded.append {s t : Text} (hs : PercentCoded keep s) (ht : PercentCoded keep t) :
    PercentCoded keep (s ++ t) := by
  induction hs with
  | nil => exact ht
  | kept kept rest ih => exact .kept kept ih
  | byte high low rest ih => exact .byte high low ih

theorem percentCoded_flatMap_percentByte (bs : List UInt8) : PercentCoded keep (bs.flatMap percentByte) := by
  induction bs with
  | nil => exact .nil
  | cons b bs ih =>
    have bound := b.toNat_lt
    exact .byte (hexDigit_mem_upperHexDigits _ (by omega)) (hexDigit_mem_upperHexDigits _ (by omega)) ih

theorem percentCoded_percentEncode (keep : Char → Bool) (t : Text) :
    PercentCoded keep (percentEncode keep t) := by
  induction t with
  | nil => exact .nil
  | cons c t ih =>
    rw [percentEncode, List.flatMap_cons]
    refine PercentCoded.append ?_ ih
    split
    next kept => exact .kept kept .nil
    next => exact percentCoded_flatMap_percentByte _

theorem PercentCoded.forall_mem {P : Char → Prop} (sign : P '%') (digit : ∀ c ∈ upperHexDigits, P c)
    (kept : ∀ c, keep c = true → P c) {t : Text} (h : PercentCoded keep t) : ∀ c ∈ t, P c := by
  induction h with
  | nil => simp
  | kept hc rest ih => exact List.forall_mem_cons.mpr ⟨kept _ hc, ih⟩
  | byte high low rest ih =>
    exact List.forall_mem_cons.mpr ⟨sign, List.forall_mem_cons.mpr ⟨digit _ high,
      List.forall_mem_cons.mpr ⟨digit _ low, ih⟩⟩⟩

theorem PercentCoded.not_mem {chars : List Char} (sign : '%' ∉ chars) (digit : ∀ c ∈ upperHexDigits, c ∉ chars)
    (reserved : ∀ c ∈ chars, keep c = false) {t : Text} (h : PercentCoded keep t) : ∀ c ∈ t, c ∉ chars := by
  refine h.forall_mem sign digit ?_
  intro c kept mem
  rw [reserved c mem] at kept
  cases kept

theorem percentBytes_percentByte_append (b : UInt8) (rest : Text) :
    percentBytes (percentByte b ++ rest) = b :: percentBytes rest := by
  have bound := b.toNat_lt
  have value : 16 * (b.toNat / 16) + b.toNat % 16 = b.toNat := Nat.div_add_mod b.toNat 16
  have high := hexValue?_hexDigit (b.toNat / 16) (by omega)
  have low := hexValue?_hexDigit (b.toNat % 16) (by omega)
  simp only [percentByte, List.cons_append, List.nil_append, percentBytes, high, low, value]
  simp

theorem percentBytes_flatMap_percentByte_append (bs : List UInt8) (rest : Text) :
    percentBytes (bs.flatMap percentByte ++ rest) = bs ++ percentBytes rest := by
  induction bs with
  | nil => rfl
  | cons b bs ih => rw [List.flatMap_cons, List.append_assoc, percentBytes_percentByte_append, ih, List.cons_append]

theorem percentBytes_cons_of_ne {c : Char} (hc : c ≠ '%') (t : Text) :
    percentBytes (c :: t) = String.utf8EncodeChar c ++ percentBytes t := by
  rw [percentBytes]
  intro high low rest sign
  exact absurd sign hc

theorem percentBytes_percentEncode (sign : keep '%' = false) (t : Text) :
    percentBytes (percentEncode keep t) = t.flatMap String.utf8EncodeChar := by
  induction t with
  | nil => rfl
  | cons c t ih =>
    rw [percentEncode, List.flatMap_cons, List.flatMap_cons, ← ih]
    split
    next kept =>
      have hc : c ≠ '%' := by
        rintro rfl
        rw [sign] at kept
        cases kept
      exact percentBytes_cons_of_ne hc _
    next => exact percentBytes_flatMap_percentByte_append _ _

/-- A coded text is read back, if the percent sign itself is coded. -/
theorem percentDecode?_percentEncode (sign : keep '%' = false) (t : Text) :
    percentDecode? (percentEncode keep t) = some t := by
  have decoded : t.utf8Encode.utf8Decode? = some t.toArray := List.utf8Decode?_utf8Encode
  rw [percentDecode?, percentBytes_percentEncode sign, ← List.utf8Encode, decoded]
  rfl

theorem percentEncode_inj (sign : keep '%' = false) {s t : Text} :
    percentEncode keep s = percentEncode keep t ↔ s = t := by
  refine ⟨?_, congrArg _⟩
  intro same
  have decoded := congrArg percentDecode? same
  rw [percentDecode?_percentEncode sign, percentDecode?_percentEncode sign] at decoded
  exact Option.some.inj decoded

end PostEditor
