import PostEditor.Characters

namespace PostEditor

inductive Level
  | error
  | warn
  | info
  | debug
  | trace
  deriving DecidableEq, Repr

namespace Level

def rank : Level → Nat
  | .error => 1
  | .warn => 2
  | .info => 3
  | .debug => 4
  | .trace => 5

def name : Level → Text
  | .error => "ERROR".toList
  | .warn => "WARN".toList
  | .info => "INFO".toList
  | .debug => "DEBUG".toList
  | .trace => "TRACE".toList

end Level

/-- The events of a target that a directive is about: all of them, those with a detail of some name, or those inside a
scope. -/
inductive Reach
  | all
  | detail (name : Text)
  | scope
  deriving DecidableEq, Repr

def Reach.names : Reach → List Text
  | .detail name => [name]
  | _ => []

/-- Lets the events it is about through up to the level of rank `ceiling`, if they come from a target that starts with
`target`. -/
structure Directive where
  target : Text
  reach : Reach
  ceiling : Nat
  deriving DecidableEq, Repr

namespace Directive

def covers (d : Directive) (target : Text) (names : List Text) : Bool :=
  d.target.isPrefixOf target && d.reach ≠ .scope && d.reach.names.all names.contains

/-- A directive gives way to one with a longer target, or with the same target and no smaller demands. -/
def yieldsTo (d e : Directive) : Bool :=
  d.target.length < e.target.length ||
    (d.target.length = e.target.length &&
      !e.reach.names.lex d.reach.names fun s t => s.lex t fun a b => a.toNat < b.toNat)

end Directive

/-- A list of directives; of two for the same events the later one counts. -/
structure LogFilter where
  directives : List Directive
  deriving DecidableEq, Repr

namespace LogFilter

def number? (t : Text) : Option Nat :=
  let ds := match t with
    | '+' :: ds => ds
    | ds => ds
  if ds ≠ [] ∧ ds.all Char.isDigit then some (Text.toNat ds) else none

def rankNames : List Text := ["off", "error", "warn", "info", "debug", "trace"].map String.toList

/-- The rank that a level name in any case or a number stands for; zero lets nothing through. -/
def ceiling? (t : Text) : Option Nat :=
  match rankNames.idxOf? (t.map Char.toLower) with
  | some rank => some rank
  | none => (number? t).filter (· < rankNames.length)

def startsDirective (c : Char) : Bool := isAlphanumeric c || ['-', ':', '_', '['].contains c

/-- Reads a directive of a single word: a level for every target, or else a target for every level. -/
def word (t : Text) : Directive :=
  match ceiling? t with
  | some ceiling => ⟨[], .all, ceiling⟩
  | none => ⟨t, .all, Level.trace.rank⟩

def levelOf? (t : Text) : Option Nat := if t = [] then some Level.trace.rank else ceiling? t

/-- Reads a scope after its opening bracket, and gives what follows it. A scope without a name that asks for the name of
a detail, and not for its value, is about any event with such a detail. -/
def scope? (t : Text) : Option (Reach × Text) :=
  let inName := fun c => c != ']' && c != '\x7b'
  let name := t.takeWhile inName
  match t.dropWhile inName with
  | [] => none
  | ']' :: rest => some (.scope, rest)
  | _ :: rest =>
    let demand := rest.takeWhile (· != '\x7d')
    match rest.dropWhile (· != '\x7d') with
    | _ :: ']' :: rest =>
      if demand = [] then none
      else if name = [] ∧ '=' ∉ demand then some (.detail demand, rest)
      else some (.scope, rest)
    | _ => none

/-- Reads a directive: a single word, or a target, a scope and a level, where the first two may be left out but not
both, and `=` stands before the level. No level may follow when the directive starts with a blank. -/
def directive? (t : Text) : Option Directive :=
  match t.dropWhile isBlank with
  | [] => none
  | first :: _ =>
    if ¬startsDirective first then none
    else
      let inTarget := fun c => c != '=' && c != '['
      match t.dropWhile inTarget with
      | [] => some (word t)
      | sign :: rest => do
        let (reach, tail) ← if sign = '[' then scope? rest else some (.all, sign :: rest)
        let ceiling ← match tail.dropWhile isBlank with
          | [] => some Level.trace.rank
          | _ =>
            match tail with
            | '=' :: level => if t.head? = some first then levelOf? level else none
            | _ => none
        some ⟨t.takeWhile inTarget, reach, ceiling⟩

def parse? (t : Text) : Option LogFilter :=
  (((t.splitOn ',').filter fun piece => !piece.isEmpty).mapM directive?).map (⟨·⟩)

def ofText (t : Text) : LogFilter := (parse? t).getD ⟨[⟨[], .all, Level.info.rank⟩]⟩

def decisive? (f : LogFilter) (target : Text) (names : List Text) : Option Directive :=
  (f.directives.filter (·.covers target names)).foldl (fun best d =>
    match best with
    | some b => if b.yieldsTo d then some d else best
    | none => some d) none

def allows (f : LogFilter) (target : Text) (names : List Text) (level : Level) : Bool :=
  match f.decisive? target names with
  | none => false
  | some d => level.rank ≤ d.ceiling

end LogFilter

end PostEditor
