import PostEditor.Json

namespace PostEditor

/-- The first problem met in a text: it ends too early, it is no JSON, or a value is of the wrong kind. -/
inductive ReadError
  | early
  | malformed
  | mismatch
  deriving DecidableEq, Repr

/-- A value read is kept or only skipped over. -/
inductive Use
  | kept
  | skipped
  deriving DecidableEq, Repr

def isJsonBlank (c : Char) : Bool := c == ' ' || c == '\t' || c == '\n' || c == '\x0d'

def skipBlanks (t : Text) : Text := t.dropWhile isJsonBlank

def hexValue? (c : Char) : Option Nat :=
  if '0' ≤ c ∧ c ≤ '9' then some (c.toNat - 48)
  else if 'a' ≤ c ∧ c ≤ 'f' then some (c.toNat - 87)
  else if 'A' ≤ c ∧ c ≤ 'F' then some (c.toNat - 55)
  else none

def hexQuad? (a b c d : Char) : Option Nat := do
  let a ← hexValue? a
  let b ← hexValue? b
  let c ← hexValue? c
  let d ← hexValue? d
  some (((a * 16 + b) * 16 + c) * 16 + d)

/-- The problem with an escape that has no four hexadecimal digits after its `u`. -/
def quadError (rest : Text) : ReadError := if rest.bytes < 4 then .early else .malformed

def escaped? : Char → Option Char
  | '"' => some '"'
  | '\\' => some '\\'
  | '/' => some '/'
  | 'b' => some '\x08'
  | 'f' => some '\x0c'
  | 'n' => some '\n'
  | 'r' => some '\x0d'
  | 't' => some '\t'
  | _ => none

def isHighSurrogate (n : Nat) : Bool := 0xD800 ≤ n && n < 0xDC00

def isLowSurrogate (n : Nat) : Bool := 0xDC00 ≤ n && n < 0xE000

def pairChar (high low : Nat) : Char :=
  Char.ofNat (0x10000 + (high - 0xD800) * 0x400 + (low - 0xDC00))

def pushChar (c : Char) (r : Except ReadError (Text × Text)) :
    Except ReadError (Text × Text) :=
  r.map fun (s, rest) => (c :: s, rest)

/-- Reads a string from behind its opening quote. In a string that is kept, the escape of a first half of a surrogate
pair waits for that of the second. -/
def readString (use : Use) : Option Nat → Text → Except ReadError (Text × Text)
  | none, '"' :: rest => .ok ([], rest)
  | none, '\\' :: 'u' :: a :: b :: c :: d :: rest =>
    match hexQuad? a b c d with
    | none => .error .malformed
    | some n =>
      if use = .kept ∧ isHighSurrogate n then readString use (some n) rest
      else if use = .kept ∧ isLowSurrogate n then .error .malformed
      else pushChar (Char.ofNat n) (readString use none rest)
  | none, '\\' :: 'u' :: rest => .error (quadError rest)
  | none, '\\' :: c :: rest =>
    match escaped? c with
    | none => .error .malformed
    | some e => pushChar e (readString use none rest)
  | none, ['\\'] => .error .early
  | none, c :: rest => if c < ' ' then .error .malformed else pushChar c (readString use none rest)
  | none, [] => .error .early
  | some high, '\\' :: 'u' :: a :: b :: c :: d :: rest =>
    match hexQuad? a b c d with
    | none => .error .malformed
    | some low =>
      if isLowSurrogate low then pushChar (pairChar high low) (readString use none rest)
      else .error .malformed
  | some _, '\\' :: 'u' :: rest => .error (quadError rest)
  | some _, ['\\'] => .error .early
  | some _, [] => .error .early
  | some _, _ :: _ => .error .malformed

def spanDigits (t : Text) : Text × Text := (t.takeWhile Char.isDigit, t.dropWhile Char.isDigit)

/-- The problem with a number that lacks a digit in front of `rest`: a number that is kept may end early. -/
def digitError (use : Use) (rest : Text) : ReadError :=
  if use = .kept ∧ rest = [] then .early else .malformed

def readDigits (use : Use) (t : Text) : Except ReadError (Text × Text) :=
  match spanDigits t with
  | ([], rest) => .error (digitError use rest)
  | r => .ok r

/-- Reads the whole part of a number: a zero stands alone. -/
def readWhole (use : Use) (t : Text) : Except ReadError (Text × Text) := do
  let (ds, rest) ← readDigits use t
  if ds.head? = some '0' ∧ ds.length ≠ 1 then .error .malformed else .ok (ds, rest)

def readFraction (use : Use) : Text → Except ReadError (Option Text × Text)
  | '.' :: t => do
    let (ds, rest) ← readDigits use t
    .ok (some ds, rest)
  | t => .ok (none, t)

def readExponent (use : Use) : Text → Except ReadError (Option (Bool × Text) × Text)
  | [] => .ok (none, [])
  | c :: t =>
    if c = 'e' ∨ c = 'E' then do
      let (negative, digits) := match t with
        | '-' :: r => (true, r)
        | '+' :: r => (false, r)
        | r => (false, r)
      let (ds, rest) ← readDigits use digits
      .ok (some (negative, ds), rest)
    else .ok (none, c :: t)

def readNumber (use : Use) (t : Text) : Except ReadError (Numeral × Text) := do
  let (negative, t) := match t with
    | '-' :: r => (true, r)
    | r => (false, r)
  let (whole, t) ← readWhole use t
  let (fraction, t) ← readFraction use t
  let (exponent, t) ← readExponent use t
  let n : Numeral := ⟨negative, whole, fraction, exponent⟩
  if use = .kept ∧ n.overflows then .error .malformed else .ok (n, t)

def readWord : Text → Text → Except ReadError Text
  | [], t => .ok t
  | _ :: _, [] => .error .early
  | w :: ws, c :: t => if w = c then readWord ws t else .error .malformed

def readScalar (use : Use) : Text → Except ReadError (Json × Text)
  | [] => .error .early
  | '"' :: t => (readString use none t).map fun (s, rest) => (.string s, rest)
  | 'n' :: t => (readWord "ull".toList t).map fun rest => (.null, rest)
  | 't' :: t => (readWord "rue".toList t).map fun rest => (.bool true, rest)
  | 'f' :: t => (readWord "alse".toList t).map fun rest => (.bool false, rest)
  | c :: t =>
    if c = '-' ∨ c.isDigit then (readNumber use (c :: t)).map fun (n, rest) => (.number n, rest)
    else .error .malformed

end PostEditor
