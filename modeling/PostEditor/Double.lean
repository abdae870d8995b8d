namespace PostEditor.Double

def leading (x : Rat) : Int :=
  let e := (x.num.natAbs.log2 : Int) - x.den.log2
  if (2 : Rat) ^ e ≤ x then e else e - 1

/-- The distance between doubles around a positive fraction. -/
def gap (x : Rat) : Rat := 2 ^ max (leading x - 52) (-1074)

def roundEven (x : Rat) : Int :=
  let low := x.floor
  if 1 / 2 < x - low ∨ (x - low = 1 / 2 ∧ low % 2 = 1) then low + 1 else low

/-- The double nearest to a fraction that is not negative, as if there were doubles of any size. -/
def nearest (x : Rat) : Rat := roundEven (x / gap x) * gap x

/-- The least fraction that is too large for a double: half a distance above the largest one. -/
def bound : Rat := 2 ^ (1024 : Nat) - 2 ^ (970 : Nat)

def around (x : Rat) : List Int :=
  let low := x.floor
  if roundEven x = low then [low, low + 1] else [low + 1, low]

/-- Names a double in multiples of a power of ten, if its neighbours there stand for it. -/
def onScale? (v : Rat) (scale : Int) : Option Nat :=
  ((around (v / 10 ^ scale)).find? fun n : Int => nearest (n * 10 ^ scale) = v).map Int.toNat

/-- Names a double in multiples of the largest power of ten that can: the multiple, and the power. Zero is no multiple
of a largest power, and is named by itself. -/
def shortest (v : Rat) : Nat × Int :=
  if v = 0 then (0, 0)
  else
    ((List.range 633).findSome? fun step : Nat =>
      let scale : Int := 308 - step
      (onScale? v scale).map (·, scale)).getD (v.floor.toNat, 0)

end PostEditor.Double
