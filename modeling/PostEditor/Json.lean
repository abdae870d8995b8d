import PostEditor.Double
import PostEditor.Text

namespace PostEditor

/-- A number as written: its sign and the digits of its parts. -/
structure Numeral where
  negative : Bool
  whole : Text
  fraction : Option Text
  exponent : Option (Bool × Text)
  deriving DecidableEq, Repr

/-- A JSON value; the members of an object stand in the order written. -/
inductive Json
  | null
  | bool (value : Bool)
  | number (value : Numeral)
  | string (value : Text)
  | array (items : List Json)
  | object (members : List (Text × Json))

inductive JsonKind
  | null
  | bool
  | number
  | string
  | array
  | object
  deriving DecidableEq, Repr

def JsonKind.name : JsonKind → Text
  | .null => "null".toList
  | .bool => "bool".toList
  | .number => "number".toList
  | .string => "string".toList
  | .array => "array".toList
  | .object => "object".toList

def Json.kind : Json → JsonKind
  | .null => .null
  | .bool _ => .bool
  | .number _ => .number
  | .string _ => .string
  | .array _ => .array
  | .object _ => .object

namespace Numeral

/-- Appends digits to a number while it stays below 2^64; also how many were appended. -/
def appendDigits (n : Nat) : Text → Nat × Nat
  | [] => (n, 0)
  | c :: ds =>
    let m := 10 * n + (c.toNat - '0'.toNat)
    if m < 0x10000000000000000 then
      let (k, count) := appendDigits m ds
      (k, count + 1)
    else (n, 0)

/-- The leading digits as a number below 2^64, and the power of ten that it is to be scaled by. -/
def scaled (n : Numeral) : Nat × Int :=
  let fraction := n.fraction.getD []
  let (whole, wholeCount) := appendDigits 0 n.whole
  let (significand, fractionCount) := appendDigits whole fraction
  let written : Int := match n.exponent with
    | none => 0
    | some (negative, ds) => if negative then -(Text.toNat ds : Int) else Text.toNat ds
  (significand, (n.whole.length - wholeCount : Nat) - fractionCount + written)

def overflows (n : Numeral) : Bool :=
  let (significand, exponent) := n.scaled
  significand != 0 && (308 < exponent ||
    (0 ≤ exponent && Double.bound ≤ Double.nearest significand * Double.nearest (10 ^ exponent)))

def toNat? (n : Numeral) : Option Nat :=
  if n.negative || n.fraction.isSome || n.exponent.isSome then none else some (Text.toNat n.whole)

end Numeral

end PostEditor
