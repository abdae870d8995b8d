import PostEditor.JsonReader

namespace PostEditor

/-- A field of the records in `σ`: its name, and how its value is read into a record. -/
structure RecordField (σ : Type) where
  name : Text
  read : σ → Text → Except ReadError (σ × Text)

/-- A kind of record: its fields in order, the record that no field has been read into, and whether every field has to
be given. -/
structure RecordShape (σ : Type) where
  fields : List (RecordField σ)
  initial : σ
  complete : Bool

namespace RecordShape

variable {σ : Type} (shape : RecordShape σ)

def field? (name : Text) : Option (RecordField σ) := shape.fields.find? (·.name == name)

def finish (seen : List Text) (record : σ) : Except ReadError σ :=
  if shape.complete && shape.fields.any (fun f => !seen.contains f.name) then .error .mismatch
  else .ok record

def readMember (seen : List Text) (record : σ) (name : Text) (t : Text) :
    Except ReadError (List Text × σ × Text) :=
  match shape.field? name with
  | none => do
    let rest ← readColon t
    let rest ← skipValue rest
    .ok (seen, record, rest)
  | some f =>
    if seen.contains name then .error .mismatch
    else do
      let rest ← readColon t
      let (record, rest) ← f.read record rest
      .ok (name :: seen, record, rest)

def readMembers : (fuel : Nat) → (seen : List Text) → σ → Text → Except ReadError (σ × Text)
  | 0, _, _, _ => .error .malformed
  | fuel + 1, seen, record, t => do
    let (name, rest) ← readName .kept t
    let (seen, record, rest) ← shape.readMember seen record name rest
    match skipBlanks rest with
    | [] => .error .early
    | '}' :: rest => (shape.finish seen record).map (·, rest)
    | ',' :: rest => readMembers fuel seen record rest
    | _ :: _ => .error .malformed

def readObject (t : Text) : Except ReadError (σ × Text) :=
  match skipBlanks t with
  | '}' :: rest => (shape.finish [] shape.initial).map (·, rest)
  | rest => shape.readMembers (rest.length + 1) [] shape.initial rest

def readClosing (record : σ) (t : Text) : Except ReadError (σ × Text) :=
  match skipBlanks t with
  | [] => .error .early
  | ']' :: rest => .ok (record, rest)
  | _ :: _ => .error .malformed

def readItems : List (RecordField σ) → (seen : List Text) → σ → Text → Except ReadError (σ × Text)
  | [], _, record, t => readClosing record t
  | f :: fields, seen, record, t =>
    match skipBlanks t with
    | [] => .error .early
    | ']' :: rest => (shape.finish seen record).map (·, rest)
    | c :: rest =>
      if seen = [] then do
        let (record, rest) ← f.read record (c :: rest)
        readItems fields (f.name :: seen) record rest
      else if c = ',' then
        match skipBlanks rest with
        | ']' :: _ => .error .malformed
        | rest => do
          let (record, rest) ← f.read record rest
          readItems fields (f.name :: seen) record rest
      else .error .malformed

def read (t : Text) : Except ReadError (σ × Text) :=
  match skipBlanks t with
  | '{' :: rest => shape.readObject rest
  | '[' :: rest => shape.readItems shape.fields [] shape.initial rest
  | t => do
    let _ ← readScalar .kept t
    .error .mismatch

def ofText (t : Text) : Except ReadError σ := do
  let (record, rest) ← shape.read t
  readEnd rest
  .ok record

end RecordShape

def RecordField.scalar {σ α : Type} (name : String) (accept : Json → Option α) (put : σ → α → σ) :
    RecordField σ :=
  ⟨name.toList, fun record t => (readAs accept t).map fun (a, rest) => (put record a, rest)⟩

end PostEditor
