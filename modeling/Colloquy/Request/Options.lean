/-
What a requester asks for: how long to wait, for how many answers, and how its messages
are made.
-/

namespace Colloquy

/-- How many answers a request waits for. -/
inductive Wait where
  /-- None; only a window for acknowledgements keeps the conversation open. -/
  | none
  /-- This many, unless acknowledgements announce more. -/
  | exactly (n : Nat)
  /-- As many as come until the deadline. -/
  | untilTimeout
  deriving DecidableEq, Inhabited

namespace Wait

/-- Zero waits for nothing and a negative number until the deadline. -/
def ofInt (i : Int) : Wait :=
  if i = 0 then none else if i < 0 then untilTimeout else exactly i.toNat

def expected : Wait → Nat
  | exactly n => n
  | _ => 0

def expectsAnswers : Wait → Bool
  | none => false
  | exactly n => decide (0 < n)
  | untilTimeout => true

end Wait

/-- What every message of a requester or responder has in common. -/
structure Template where
  ttl : Option Nat := none
  tags : List String := []
  deriving DecidableEq, Inhabited

structure Options where
  ackTimeoutMs : Option Nat := none
  responseTimeoutMs : Option Nat := none
  wait : Wait := .none
  routingKey : Option String := none
  forward : Option String := none
  template : Template := {}
  deriving DecidableEq, Inhabited

namespace Options

def opensConversation (o : Options) : Bool :=
  (match o.ackTimeoutMs with | some ms => decide (0 < ms) | none => false)
    || o.wait.expectsAnswers

end Options
end Colloquy
