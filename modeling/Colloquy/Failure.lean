/-
Why an operation of the library fails, by cause.

`message` is the text that an application sees; `kind` names the cause in one word.
-/
import Colloquy.Json.Reader

namespace Colloquy

inductive Failure where
  /-- Publishing to a topic of the broker or subscribing to it failed. -/
  | transport (topic reason : String)
  | alreadySubscribed (topic : String)
  | invalidTopic (topic : String)
  /-- An answer was asked for, and the message names no topic for it. -/
  | missingResponseTopic (messageId : String)
  /-- The conversation was torn down before it ended. -/
  | conversationAborted (correlation : String)
  /-- The conversation ended without a payload. -/
  | noResponse (correlation : String)
  /-- A message or payload cannot be written or read. -/
  | serialization (fault : Json.Fault) (detail : String)
  | unreadableSettings
  | settings (reason : String)
  | shutDown
  | fileNotFound
  | io (reason : String)
  | internal (reason : String)
  deriving DecidableEq, Repr

namespace Failure

def message : Failure → String
  | transport topic reason => s!"Transport error on topic {topic}: {reason}"
  | alreadySubscribed topic => s!"Topic already has a subscribed handler: {topic}"
  | invalidTopic topic => s!"Invalid topic name: {topic}"
  | missingResponseTopic messageId => s!"Message {messageId} has no response topic"
  | conversationAborted correlation => s!"Conversation {correlation} was aborted"
  | noResponse correlation => s!"Conversation {correlation} ended without a response"
  | serialization _ detail => s!"Serialization error: {detail}"
  | unreadableSettings => "Invalid configuration: TOML parse error"
  | settings reason => s!"Invalid configuration: {reason}"
  | shutDown => "Messaging context is shut down"
  | fileNotFound => "IO error: No such file or directory (os error 2)"
  | io reason => s!"IO error: {reason}"
  | internal reason => s!"Internal error: {reason}"

def kind : Failure → String
  | transport _ _ => "Transport"
  | alreadySubscribed _ => "AlreadySubscribed"
  | invalidTopic _ => "InvalidTopic"
  | missingResponseTopic _ => "MissingResponseTopic"
  | conversationAborted _ => "ConversationAborted"
  | noResponse _ => "NoResponse"
  | serialization _ _ => "Serialization"
  | unreadableSettings => "Config"
  | settings _ => "Config"
  | shutDown => "ShutDown"
  | fileNotFound => "Io"
  | io _ => "Io"
  | internal _ => "Internal"

def isTransport : Failure → Bool
  | transport _ _ => true
  | _ => false

def ofFault : Json.Fault → Failure
  | .malformed => serialization .malformed "the text is not JSON"
  | .truncated => serialization .truncated "the text ends too early"
  | .mismatched => serialization .mismatched "a value does not fit its place"

end Failure
end Colloquy
