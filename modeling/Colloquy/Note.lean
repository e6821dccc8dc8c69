/-
The lines of the log, by what they report.
-/
import Colloquy.Failure
import Colloquy.Settlement

namespace Colloquy

inductive Note where
  /-- An explicit settlement came after the first one. -/
  | settledBefore (topic : String) (state : Resolution) (requested : Settlement)
  /-- A second delivery is rejected where a retry was asked for. -/
  | notRetried (topic : String)
  /-- The broker refused a settlement. -/
  | settlementRefused (action : Settlement) (topic : String) (why : Failure)
  | channelsClosing
  | unsubscribeFailed (topic : String) (why : Failure)
  | undecodable (topic : String) (why : Failure)
  | expired (correlation id topic : String)
  | unhandled (topic id : String)
  | handlerFailed (topic id reason : String)
  | handlerPanicked (topic id : String)
  | publishFailed (id topic : String) (why : Failure)
  | callbackPanicked (callback : String)
  /-- A conversation takes the place of another one with its correlation. -/
  | displaced (correlation topic : String)
  | inboxNotSubscribed (topic : String) (why : Failure)
  | inboxNotUnsubscribed (topic : String) (why : Failure)
  | noConversation (correlation topic id : String)
  | timerDropped (kind : String) (delayMs : Nat)
  | timersStopped
  | contextClosing (instanceId : String)
  | serving (namesp : String)
  | errorHandlerPanicked (namesp : String)
  | requestFailed (correlation id namesp reason : String)
  | errorAnswerFailed (correlation : String) (why : Failure)
  | brokerStopped
  deriving DecidableEq

namespace Note

inductive Level where
  | info
  | warn
  | error
  deriving DecidableEq

def Level.name : Level → String
  | info => "info"
  | warn => "warn"
  | error => "error"

def level : Note → Level
  | settledBefore .. | notRetried .. | unsubscribeFailed .. | expired .. | unhandled ..
  | handlerFailed .. | callbackPanicked .. | displaced .. | inboxNotUnsubscribed ..
  | noConversation .. | timerDropped .. => .warn
  | settlementRefused .. | undecodable .. | handlerPanicked .. | publishFailed ..
  | inboxNotSubscribed .. | errorHandlerPanicked .. | requestFailed ..
  | errorAnswerFailed .. => .error
  | channelsClosing | timersStopped | contextClosing .. | serving .. | brokerStopped => .info

/-- The part of the program that reports. -/
def target : Note → String
  | settledBefore .. | notRetried .. | settlementRefused .. => "msb::acknowledge"
  | channelsClosing | unsubscribeFailed .. => "msb::channel"
  | undecodable .. | expired .. | unhandled .. | handlerFailed .. | handlerPanicked .. =>
    "msb::channel::consumer"
  | publishFailed .. => "msb::channel::producer"
  | callbackPanicked .. => "msb::collector::events"
  | displaced .. | inboxNotSubscribed .. | inboxNotUnsubscribed .. | noConversation .. =>
    "msb::collector::multiplexer"
  | timerDropped .. | timersStopped => "msb::collector::timeout"
  | contextClosing .. => "msb::context"
  | serving .. | errorHandlerPanicked .. | requestFailed .. | errorAnswerFailed .. =>
    "msb::protocol::responder"
  | brokerStopped => "msb::adapter::memory"

def text : Note → String
  | settledBefore topic state requested =>
    s!"Acknowledgement was already sent on {topic} ({state.title}), ignoring {requested.title}"
  | notRetried topic =>
    s!"Message on {topic} was already redelivered, rejecting instead of retrying"
  | settlementRefused action topic why =>
    s!"Broker rejected {action.title} on {topic}: {why.message}"
  | channelsClosing => "Shutting down channels"
  | unsubscribeFailed topic why => s!"Failed to unsubscribe {topic}: {why.message}"
  | undecodable topic why => s!"Dropping undecodable message on {topic}: {why.message}"
  | expired correlation id topic =>
    s!"[correlation id: {correlation}] Dropping expired message {id} on {topic}"
  | unhandled topic id => s!"No handler attached to {topic}, rejecting message {id}"
  | handlerFailed topic id reason =>
    s!"Handler on {topic} failed for message {id}: {reason}"
  | handlerPanicked topic id => s!"Handler on {topic} panicked for message {id}"
  | publishFailed id topic why => s!"Failed to publish message {id} to {topic}: {why.message}"
  | callbackPanicked callback => s!"The '{callback}' callback panicked"
  | displaced correlation topic =>
    s!"[correlation id: {correlation}] Replacing a collector still registered on {topic}"
  | inboxNotSubscribed topic why =>
    s!"Failed to subscribe to response topic {topic}: {why.message}"
  | inboxNotUnsubscribed topic why => s!"Failed to unsubscribe from {topic}: {why.message}"
  | noConversation correlation topic id =>
    s!"[correlation id: {correlation}] No conversation waiting on {topic}, dropping message {id}"
  | timerDropped kind delayMs =>
    s!"Scheduler is shut down, dropping {kind} timeout of {delayMs}ms"
  | timersStopped => "Timeout scheduler shut down"
  | contextClosing instanceId => s!"Shutting down messaging context of {instanceId}"
  | serving namesp => s!"Listening for requests on {namesp}"
  | errorHandlerPanicked namesp => s!"Error handler on {namesp} panicked"
  | requestFailed correlation id namesp reason =>
    s!"[correlation id: {correlation}] Request {id} on {namesp} failed: {reason}"
  | errorAnswerFailed correlation why =>
    s!"[correlation id: {correlation}] Failed to send error response: {why.message}"
  | brokerStopped => "Memory broker shut down"

end Note
end Colloquy
