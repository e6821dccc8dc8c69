/-
What becomes of a delivery.
-/

namespace Colloquy

/-- What the broker is told about a delivery. -/
inductive Settlement where
  /-- The message is done with. -/
  | confirm
  /-- The message is to be discarded. -/
  | reject
  /-- The message is to be delivered again. -/
  | retry
  deriving DecidableEq, Repr

/-- How far a delivery is settled. -/
inductive Resolution where
  | pending
  | confirmed
  | rejected
  | retried
  deriving DecidableEq, Repr

namespace Settlement

def resolution : Settlement → Resolution
  | confirm => .confirmed
  | reject => .rejected
  | retry => .retried

def name : Settlement → String
  | confirm => "confirm"
  | reject => "reject"
  | retry => "retry"

def title : Settlement → String
  | confirm => "Confirm"
  | reject => "Reject"
  | retry => "Retry"

/-- A message that was delivered again is not delivered a third time. -/
def bounded (redelivered : Bool) : Settlement → Settlement
  | retry => if redelivered then reject else retry
  | s => s

end Settlement

def Resolution.title : Resolution → String
  | pending => "Pending"
  | confirmed => "Confirmed"
  | rejected => "Rejected"
  | retried => "Retried"

end Colloquy
