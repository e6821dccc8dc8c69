/-
Making the messages of a conversation.

A request goes to a namespace and asks for answers on the private topic of its instance.
It starts a conversation of its own, or joins the one of a request that is being handled.
An answer goes to the topic that the request asked for and repeats its correlation.
-/
import Colloquy.Failure
import Colloquy.Message
import Colloquy.Request.Options
import Colloquy.Topic

namespace Colloquy

namespace Template

def stamp (t : Template) (origin : Origin) (now : Instant) : Stamp :=
  { ttl := t.ttl, createdAt := now, origin := origin }

end Template

namespace Origin

/-- The topic on which this instance takes the answers to its requests to a namespace. -/
def responseTopic (o : Origin) (namesp : String) : String :=
  Topic.forResponses namesp o.instanceId

def request (o : Origin) (now : Instant) (id correlation namesp : String) (options : Options)
    (payload : Option Json.Value) : Message where
  id := id
  correlation := correlation
  tags := options.template.tags
  route := {
    destination := namesp
    response := some (o.responseTopic namesp)
    forward := options.forward
    routingKey := options.routingKey }
  stamp := options.template.stamp o now
  payload := payload

/-- An answer to a request, which has to name a topic for it. -/
def answer (o : Origin) (now : Instant) (id : String) (request : Message)
    (template : Template) (ack : Option Ack) (payload : Option Json.Value) :
    Except Failure Message :=
  match request.route.response with
  | none => .error (.missingResponseTopic request.id)
  | some topic => .ok {
      id := id
      correlation := request.correlation
      tags := template.tags
      route := { destination := topic }
      stamp := template.stamp o now
      ack := ack
      payload := payload }

end Origin
end Colloquy
