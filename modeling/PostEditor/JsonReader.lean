import PostEditor.JsonScalar

namespace PostEditor

/-- How deep arrays and objects that are kept may nest. -/
def maxDepth : Nat := 127

def readName (use : Use) (t : Text) : Except ReadError (Text × Text) :=
  match skipBlanks t with
  | [] => .error .early
  | '"' :: rest => readString use none rest
  | _ :: _ => .error .malformed

def readColon (t : Text) : Except ReadError Text :=
  match skipBlanks t with
  | [] => .error .early
  | ':' :: rest => .ok rest
  | _ :: _ => .error .malformed

def readEnd (t : Text) : Except ReadError Unit :=
  match skipBlanks t with
  | [] => .ok ()
  | _ :: _ => .error .malformed

mutual

/-- Reads a value; `depth` is how much deeper values that are kept may nest. -/
def readValue (use : Use) : (fuel depth : Nat) → Text → Except ReadError (Json × Text)
  | 0, _, _ => .error .malformed
  | fuel + 1, depth, t =>
    match skipBlanks t with
    | '[' :: rest =>
      if use = .kept ∧ depth = 0 then .error .malformed
      else match skipBlanks rest with
        | ']' :: rest => .ok (.array [], rest)
        | rest => (readItems use fuel (depth - 1) rest).map fun (items, rest) => (.array items, rest)
    | '{' :: rest =>
      if use = .kept ∧ depth = 0 then .error .malformed
      else match skipBlanks rest with
        | '}' :: rest => .ok (.object [], rest)
        | rest => (readMembers use fuel (depth - 1) rest).map fun (ms, rest) => (.object ms, rest)
    | t => readScalar use t

def readItems (use : Use) : (fuel depth : Nat) → Text → Except ReadError (List Json × Text)
  | 0, _, _ => .error .malformed
  | fuel + 1, depth, t => do
    let (item, rest) ← readValue use fuel depth t
    match skipBlanks rest with
    | [] => .error .early
    | ']' :: rest => .ok ([item], rest)
    | ',' :: rest =>
      let (items, rest) ← readItems use fuel depth rest
      .ok (item :: items, rest)
    | _ :: _ => .error .malformed

def readMembers (use : Use) : (fuel depth : Nat) → Text → Except ReadError (List (Text × Json) × Text)
  | 0, _, _ => .error .malformed
  | fuel + 1, depth, t => do
    let (name, rest) ← readName use t
    let rest ← readColon rest
    let (value, rest) ← readValue use fuel depth rest
    match skipBlanks rest with
    | [] => .error .early
    | '}' :: rest => .ok ([(name, value)], rest)
    | ',' :: rest =>
      let (members, rest) ← readMembers use fuel depth rest
      .ok ((name, value) :: members, rest)
    | _ :: _ => .error .malformed

end

/-- Enough for every value in a text: each step of the reader but one takes a character. -/
def fuelFor (t : Text) : Nat := 2 * t.length + 2

def skipValue (t : Text) : Except ReadError Text :=
  (readValue .skipped (fuelFor t) 0 t).map Prod.snd

namespace Json

def ofText (t : Text) : Except ReadError Json := do
  let (value, rest) ← readValue .kept (fuelFor t) maxDepth t
  readEnd rest
  .ok value

end Json

/-- Reads a scalar that `accept` takes. An array or object in its place is refused unread; any other value is read
before it is refused. -/
def readAs {α : Type} (accept : Json → Option α) (t : Text) : Except ReadError (α × Text) :=
  match skipBlanks t with
  | '[' :: _ => .error .mismatch
  | '{' :: _ => .error .mismatch
  | t => do
    let (value, rest) ← readScalar .kept t
    match accept value with
    | some a => .ok (a, rest)
    | none => .error .mismatch

namespace Json

def text? : Json → Option Text
  | .string s => some s
  | _ => none

def char? : Json → Option Char
  | .string [c] => some c
  | _ => none

def word? : Json → Option Nat
  | .number n => n.toNat?.filter (· < 0x100000000)
  | _ => none

end Json

end PostEditor
