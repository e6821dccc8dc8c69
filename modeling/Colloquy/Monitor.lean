/-
Watching the traffic of topics.

The channels report to an agent when a topic gets or loses a producer or consumer, and
each message that is sent or received.  One kind of agent keeps statistics, for all topics
but those for internal use.
-/
import Colloquy.Table
import Colloquy.Topic

namespace Colloquy

/-- What is reported to an agent. -/
inductive Hook where
  | producerCreated
  | producerRemoved
  | consumerCreated
  | consumerRemoved
  | sent
  | received
  deriving DecidableEq, Repr

/-- Who listens to the reports. -/
inductive Agent where
  | silent
  | log
  | stats
  deriving DecidableEq, Inhabited

structure TopicStats where
  producers : Bool := false
  consumers : Bool := false
  produced : Bool := false
  consumed : Bool := false
  deriving DecidableEq, Inhabited

namespace TopicStats

def note (s : TopicStats) : Hook → TopicStats
  | .producerCreated => { s with producers := true }
  | .producerRemoved => { s with producers := false }
  | .consumerCreated => { s with consumers := true }
  | .consumerRemoved => { s with consumers := false }
  | .sent => { s with produced := true }
  | .received => { s with consumed := true }

end TopicStats

/-- Statistics for every topic that was reported. -/
abbrev Stats := Table String TopicStats

def Stats.note (stats : Stats) (h : Hook) (topic : String) : Stats :=
  if Topic.isService topic then stats else stats.put topic ((stats.getD topic {}).note h)

end Colloquy
