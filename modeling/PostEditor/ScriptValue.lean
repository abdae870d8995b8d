import PostEditor.Double
import PostEditor.Text

namespace PostEditor

structure Decimal where
  mantissa : Int
  places : Nat
  deriving DecidableEq, Repr

namespace Decimal

def withPoint (digits : Text) (n : Int) : Text :=
  if n ≤ 0 then "0.".toList ++ List.replicate n.natAbs '0' ++ digits
  else if n < digits.length then digits.take n.toNat ++ '.' :: digits.drop n.toNat
  else digits ++ List.replicate (n.toNat - digits.length) '0'

/-- A number from its digits and the place of its point. With more than 21 digits before the point, or six zeros or more
after it, the point follows the first digit and an exponent says where it belongs. -/
def layout (digits : Text) (n : Int) : Text :=
  if -6 < n ∧ n ≤ 21 then withPoint digits n
  else withPoint digits 1 ++ (if n < 1 then "e-" else "e+").toList ++ Text.ofNat (n - 1).natAbs

/-- A number as scripts write it: the fewest digits that stand for the same double, with no sign on zero. -/
def text (d : Decimal) : Text :=
  let (multiple, scale) := Double.shortest (Double.nearest (mkRat d.mantissa.natAbs (Nat.pow 10 d.places)))
  let digits := Text.ofNat multiple
  (if d.mantissa < 0 ∧ multiple ≠ 0 then ['-'] else []) ++ layout digits (digits.length + scale)

end Decimal

inductive ScriptValue
  | undefined
  | null
  | bool (value : Bool)
  | number (value : Decimal)
  | string (value : Text)
  | array (items : List ScriptValue)
  | object (members : List (Text × ScriptValue))
  deriving Inhabited

namespace ScriptValue

def text? : ScriptValue → Option Text
  | .string t => some t
  | _ => none

/-- The index that a name stands for: a number below 2^32 - 1 with no digit to spare. -/
def index? (name : Text) : Option Nat :=
  let n := Text.toNat name
  if Text.ofNat n = name ∧ n < 0xFFFFFFFF then some n else none

/-- An object that lists its members as scripts do: first those named by an index, in ascending order, and then the
others as they come. -/
def ofMembers (members : List (Text × ScriptValue)) : ScriptValue :=
  let indexed := members.filterMap fun m => (index? m.1).map (·, m)
  .object ((indexed.mergeSort fun a b => a.1 ≤ b.1).map (·.2) ++
    members.filter fun m => (index? m.1).isNone)

def member? (name : Text) : ScriptValue → Option ScriptValue
  | .object members => members.lookup name
  | _ => none

def hexLetter (n : Nat) : Char := Char.ofNat (if n < 10 then 48 + n else 87 + n)

def quoteChar (c : Char) : Text :=
  if c = '"' then ['\\', '"']
  else if c = '\\' then ['\\', '\\']
  else if c = '\x08' then ['\\', 'b']
  else if c = '\x0c' then ['\\', 'f']
  else if c = '\n' then ['\\', 'n']
  else if c = '\x0d' then ['\\', 'r']
  else if c = '\t' then ['\\', 't']
  else if c < ' ' then "\\u00".toList ++ [hexLetter (c.toNat / 16), hexLetter (c.toNat % 16)]
  else [c]

def quote (t : Text) : Text := '"' :: t.flatMap quoteChar ++ ['"']

mutual

def json : ScriptValue → Text
  | .undefined => "null".toList
  | .null => "null".toList
  | .bool true => "true".toList
  | .bool false => "false".toList
  | .number n => n.text
  | .string t => quote t
  | .array items => '[' :: jsonItems items ++ [']']
  | .object members => '\x7b' :: jsonMembers members ++ ['\x7d']

def jsonItems : List ScriptValue → Text
  | [] => []
  | [v] => json v
  | v :: rest => json v ++ ',' :: jsonItems rest

def jsonMembers : List (Text × ScriptValue) → Text
  | [] => []
  | [(name, v)] => quote name ++ ':' :: json v
  | (name, v) :: rest => quote name ++ ':' :: json v ++ ',' :: jsonMembers rest

end

mutual

/-- A value as a debugger shows it: nothing in a string is escaped, and an object is shown as JSON. -/
def debug : ScriptValue → Text
  | .undefined => "undefined".toList
  | .null => "null".toList
  | .bool true => "true".toList
  | .bool false => "false".toList
  | .number n => n.text
  | .string t => '"' :: t ++ ['"']
  | .array items => '[' :: debugItems items ++ [']']
  | .object members => "Object(".toList ++ json (.object members) ++ [')']

def debugItems : List ScriptValue → Text
  | [] => []
  | [v] => debug v
  | v :: rest => debug v ++ ", ".toList ++ debugItems rest

end

def shown (v : ScriptValue) : Text := "JsValue(".toList ++ v.debug ++ [')']

def describe (v : ScriptValue) : Text :=
  match v.text? with
  | some t => t
  | none => ((v.member? "message".toList).bind text?).getD v.shown

end ScriptValue

structure Prefill where
  text : Text
  hash : Text
  deriving DecidableEq, Repr

def Prefill.ofDetail? (v : ScriptValue) : Option Prefill := do
  let text ← (← v.member? "text".toList).text?
  match (v.member? "hash".toList).getD .undefined with
  | .undefined => some ⟨text, []⟩
  | .null => some ⟨text, []⟩
  | .string hash => some ⟨text, hash⟩
  | _ => none

end PostEditor
