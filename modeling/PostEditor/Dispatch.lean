import PostEditor.Completer

namespace PostEditor

def lookupAddress (base : Text) : Option Text → Text
  | none => base
  | some query =>
    base ++ (if base.contains '?' then '&' else '?') :: "prefix=".toList ++
      percentEncode isParameterChar query

structure Waiting where
  request : Request
  due : Nat
  deriving DecidableEq, Repr

structure Sent where
  request : Request
  number : Nat
  deriving DecidableEq, Repr

/-- A completer, its requests that wait, the oldest first, and those that have been sent. -/
structure Dispatch where
  completer : Completer
  waiting : List Waiting := []
  sent : List Sent := []
  deriving DecidableEq, Repr

namespace Dispatch

def wait (d : Dispatch) (request : Request) (due : Nat) : Dispatch :=
  { d with waiting := d.waiting ++ [⟨request, due⟩] }

/-- The wait of a request is over: it is sent under a number if it is still current. -/
def fire (d : Dispatch) (w : Waiting) (number : Nat) : Option Sent × Dispatch :=
  let rested := { d with waiting := d.waiting.erase w }
  if d.completer.isCurrent w.request.ticket then
    let s : Sent := ⟨w.request, number⟩
    (some s, { rested with sent := d.sent ++ [s] })
  else (none, rested)

def answered (d : Dispatch) (s : Sent) (answer : Except Failure (List Candidate)) :
    Report Dispatch Bool :=
  (d.completer.applyLookup s.request.ticket answer).into fun c =>
    { d with completer := c, sent := d.sent.erase s }

/-- The request that has waited longest of those due first, if it is due by `time`. -/
def next? (d : Dispatch) (time : Nat) : Option Waiting :=
  (d.waiting.filter (·.due ≤ time)).foldl (fun best w =>
    match best with
    | none => some w
    | some b => if w.due < b.due then some w else best) none

end Dispatch

end PostEditor
