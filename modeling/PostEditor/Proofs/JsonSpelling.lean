import PostEditor.JsonReader
import PostEditor.Lookup

namespace PostEditor

/-- The value nests at most so deep, and no number in it is too large for a double. -/
inductive Json.Within : Nat → Json → Prop
  | null {depth : Nat} : Within depth .null
  | bool {depth : Nat} {b : Bool} : Within depth (.bool b)
  | number {depth : Nat} {n : Numeral} (fits : n.overflows = false) : Within depth (.number n)
  | string {depth : Nat} {s : Text} : Within depth (.string s)
  | array {depth : Nat} {items : List Json} (within : ∀ v ∈ items, Within depth v) :
      Within (depth + 1) (.array items)
  | object {depth : Nat} {members : List (Text × Json)} (within : ∀ m ∈ members, Within depth m.2) :
      Within (depth + 1) (.object members)

namespace Spelling

def Blanks (t : Text) : Prop := ∀ c ∈ t, isJsonBlank c = true

def HexDigit (n : Nat) (c : Char) : Prop := n < 16 ∧ (c = hexDigit n ∨ c = (hexDigit n).toLower)

inductive Quad : Nat → Text → Prop
  | digits {n₃ n₂ n₁ n₀ : Nat} {c₃ c₂ c₁ c₀ : Char} (third : HexDigit n₃ c₃) (second : HexDigit n₂ c₂)
      (first : HexDigit n₁ c₁) (last : HexDigit n₀ c₀) :
      Quad (((n₃ * 16 + n₂) * 16 + n₁) * 16 + n₀) [c₃, c₂, c₁, c₀]

def highHalf (c : Char) : Nat := 0xD800 + (c.toNat - 0x10000) / 0x400

def lowHalf (c : Char) : Nat := 0xDC00 + (c.toNat - 0x10000) % 0x400

/-- A character as it may stand in a string. -/
inductive OfChar (use : Use) : Char → Text → Prop
  | plain {c : Char} (printable : ' ' ≤ c) (no_quote : c ≠ '"') (no_escape : c ≠ '\\') : OfChar use c [c]
  | letter {c l : Char} (escaped : escaped? l = some c) : OfChar use c ['\\', l]
  | code {c : Char} {q : Text} (quad : Quad c.toNat q) : OfChar use c ('\\' :: 'u' :: q)
  | pair {c : Char} {q r : Text} (beyond : 0x10000 ≤ c.toNat) (high : Quad (highHalf c) q)
      (low : Quad (lowHalf c) r) : OfChar use c ('\\' :: 'u' :: q ++ '\\' :: 'u' :: r)
  | half {n : Nat} {q : Text} (skipped : use = .skipped) (surrogate : isHighSurrogate n || isLowSurrogate n)
      (quad : Quad n q) : OfChar use '\ufffd' ('\\' :: 'u' :: q)

inductive OfChars (use : Use) : Text → Text → Prop
  | nil : OfChars use [] []
  | cons {c : Char} {s p t : Text} (char : OfChar use c p) (rest : OfChars use s t) :
      OfChars use (c :: s) (p ++ t)

def Digits (t : Text) : Prop := t ≠ [] ∧ ∀ c ∈ t, c.isDigit = true

inductive OfFraction : Option Text → Text → Prop
  | none : OfFraction none []
  | some {ds : Text} (digits : Digits ds) : OfFraction (some ds) ('.' :: ds)

inductive OfSign : Bool → Text → Prop
  | minus : OfSign true ['-']
  | plus : OfSign false ['+']
  | none : OfSign false []

inductive OfExponent : Option (Bool × Text) → Text → Prop
  | none : OfExponent none []
  | some {mark : Char} {negative : Bool} {sign ds : Text} (marked : mark = 'e' ∨ mark = 'E')
      (signed : OfSign negative sign) (digits : Digits ds) :
      OfExponent (some (negative, ds)) (mark :: (sign ++ ds))

/-- A number; its whole part starts with a zero only if that is all of it. -/
inductive OfNumeral : Numeral → Text → Prop
  | parts {negative : Bool} {whole f x : Text} {fraction : Option Text} {exponent : Option (Bool × Text)}
      (digits : Digits whole) (no_zero : whole.head? = some '0' → whole = ['0']) (hf : OfFraction fraction f)
      (hx : OfExponent exponent x) :
      OfNumeral ⟨negative, whole, fraction, exponent⟩
        ((if negative then ['-'] else []) ++ (whole ++ (f ++ x)))

inductive OfScalar (use : Use) : Json → Text → Prop
  | null : OfScalar use .null "null".toList
  | bool {b : Bool} : OfScalar use (.bool b) (if b then "true".toList else "false".toList)
  | number {n : Numeral} {t : Text} (numeral : OfNumeral n t) : OfScalar use (.number n) t
  | string {s t : Text} (chars : OfChars use s t) : OfScalar use (.string s) ('"' :: t ++ ['"'])

inductive OfName (use : Use) : Text → Text → Prop
  | padded {b b' name t : Text} (before : Blanks b) (chars : OfChars use name t) (after : Blanks b') :
      OfName use name (b ++ ('"' :: t ++ '"' :: b'))

mutual

inductive OfValue (use : Use) : Json → Text → Prop
  | scalar {v : Json} {t : Text} (scalar : OfScalar use v t) : OfValue use v t
  | emptyArray {b : Text} (blanks : Blanks b) : OfValue use (.array []) ('[' :: (b ++ [']']))
  | array {vs : List Json} {t : Text} (items : OfItems use vs t) : OfValue use (.array vs) ('[' :: (t ++ [']']))
  | emptyObject {b : Text} (blanks : Blanks b) : OfValue use (.object []) ('{' :: (b ++ ['}']))
  | object {ms : List (Text × Json)} {t : Text} (members : OfMembers use ms t) :
      OfValue use (.object ms) ('{' :: (t ++ ['}']))

inductive OfPadded (use : Use) : Json → Text → Prop
  | padded {v : Json} {b t b' : Text} (before : Blanks b) (value : OfValue use v t) (after : Blanks b') :
      OfPadded use v (b ++ (t ++ b'))

inductive OfItems (use : Use) : List Json → Text → Prop
  | one {v : Json} {t : Text} (value : OfPadded use v t) : OfItems use [v] t
  | more {v : Json} {vs : List Json} {t ts : Text} (value : OfPadded use v t) (rest : OfItems use vs ts) :
      OfItems use (v :: vs) (t ++ ',' :: ts)

inductive OfMembers (use : Use) : List (Text × Json) → Text → Prop
  | one {name p t : Text} {v : Json} (named : OfName use name p) (value : OfPadded use v t) :
      OfMembers use [(name, v)] (p ++ ':' :: t)
  | more {name p t ts : Text} {v : Json} {ms : List (Text × Json)} (named : OfName use name p)
      (value : OfPadded use v t) (rest : OfMembers use ms ts) :
      OfMembers use ((name, v) :: ms) (p ++ ':' :: (t ++ ',' :: ts))

end

theorem OfChars.as_is {use : Use} {s : Text} (plain : ∀ c ∈ s, (decide (' ' ≤ c) && c != '"' && c != '\\') = true) :
    OfChars use s s := by
  induction s with
  | nil => exact .nil
  | cons c s ih =>
    obtain ⟨hc, plain⟩ := List.forall_mem_cons.mp plain
    simp only [Bool.and_eq_true, decide_eq_true_eq, bne_iff_ne] at hc
    exact .cons (.plain hc.1.1 hc.1.2 hc.2) (ih plain)

end Spelling

/-- The text spells the value. -/
def Json.Spelled (v : Json) (t : Text) : Prop := Spelling.OfPadded .kept v t

end PostEditor
