/-
Names of topics.

A topic is two or more segments of lower-case letters, digits and hyphens, separated by
colons.  An underscore in front marks a service topic.
-/
import Colloquy.Failure

namespace Colloquy
namespace Topic

def isSegmentChar (c : Char) : Bool :=
  ('a' ≤ c && c ≤ 'z') || ('0' ≤ c && c ≤ '9') || c == '-'

/-- Whether what follows is the rest of a topic: `inSegment` tells that the current
segment has a character, and `more` that a colon has been seen. -/
def accepts (inSegment more : Bool) : List Char → Bool
  | [] => inSegment && more
  | c :: r =>
    if c = ':' then inSegment && accepts false true r
    else isSegmentChar c && accepts true more r

def dropMark : List Char → List Char
  | [] => []
  | c :: r => if c = '_' then r else c :: r

def valid (topic : String) : Bool := accepts false false (dropMark topic.toList)

def check (topic : String) : Except Failure Unit :=
  if valid topic then .ok () else .error (.invalidTopic topic)

def isService (topic : String) : Bool :=
  match topic.toList with
  | c :: _ => c == '_'
  | [] => false

/-- The topic on which one instance of a service takes the answers to its requests to a
namespace. -/
def forResponses (namesp instanceId : String) : String :=
  namesp ++ ":response:" ++ instanceId

end Topic
end Colloquy
