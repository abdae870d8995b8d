import PostEditor.Text

namespace PostEditor

structure Ticket where
  number : Nat
  deriving DecidableEq, Repr

def Ticket.label (t : Ticket) : Text := "LookupTicket(".toList ++ Text.ofNat t.number ++ [')']

structure Request where
  ticket : Ticket
  query : Option Text
  deriving DecidableEq, Repr

/-- How many tickets have been issued, and which one is current. -/
structure Tickets where
  issued : Nat := 0
  current : Option Ticket := none
  deriving DecidableEq, Repr

namespace Tickets

def next (s : Tickets) : Ticket := ⟨s.issued + 1⟩

def issue (s : Tickets) (query : Option Text) : Request × Tickets :=
  (⟨s.next, query⟩, ⟨s.issued + 1, some s.next⟩)

def cancel (s : Tickets) : Tickets := { s with current := none }

def isCurrent (s : Tickets) (t : Ticket) : Bool := s.current == some t

@[simp] theorem issue_isCurrent (s : Tickets) (query : Option Text) (t : Ticket) :
    (s.issue query).2.isCurrent t = (t == s.next) := by
  simp only [issue, isCurrent, Option.some_beq_some]
  exact BEq.comm

@[simp] theorem cancel_isCurrent (s : Tickets) (t : Ticket) : s.cancel.isCurrent t = false := rfl

end Tickets

def hexDigit (n : Nat) : Char := Char.ofNat (if n < 10 then 48 + n else 55 + n)

def percentByte (b : UInt8) : Text := ['%', hexDigit (b.toNat / 16), hexDigit (b.toNat % 16)]

/-- A text with every byte of a character that is not kept written as `%XX`. -/
def percentEncode (keep : Char → Bool) (t : Text) : Text :=
  t.flatMap fun c => if keep c then [c] else (String.utf8EncodeChar c).flatMap percentByte

/-- Characters that need no coding anywhere in an address. -/
def isUnreserved (c : Char) : Bool := c.isAlphanum || ['-', '_', '.', '~'].contains c

/-- Characters that need no coding in the value of a parameter. -/
def isParameterChar (c : Char) : Bool :=
  isUnreserved c || ['!', '*', '\x27', '(', ')'].contains c

structure Candidate where
  id : Text
  shown : Text
  deriving DecidableEq, Repr

namespace Candidate

def ofName (name : Text) : Candidate := ⟨name, name⟩

/-- The address of the picture; the name in it is percent-coded. -/
def avatar (c : Candidate) : Text :=
  "/user/".toList ++ percentEncode isUnreserved c.id ++ "/avatar.png".toList

end Candidate

end PostEditor
