/-
The wire form of messages.

`encode` writes the fields of each record in the order of their declaration and leaves out
what is absent.  `decode` accepts the fields in any order, null for an absent one, fields
it does not know, and records written as lists.
-/
import Colloquy.Failure
import Colloquy.Json.Printer
import Colloquy.Message

namespace Colloquy

open Json (member optionalField textField natField intField present Shape Reader)

/-- A field that is left out when it is absent. -/
def Json.optionalEntry (name : String) (v : Option Json.Value) : List (String × Json.Value) :=
  match v with
  | some v => [(name, v)]
  | none => []

/-! ## Reading -/

namespace Route

structure Draft where
  destination : Option String := none
  response : Option (Option String) := none
  forward : Option (Option String) := none
  routingKey : Option (Option String) := none

def shape : Shape Draft Route where
  members := [
    member "to" true (fun _ => textField) Draft.destination
      (fun v d => { d with destination := some v }),
    member "response" false (fun _ => optionalField textField) Draft.response
      (fun v d => { d with response := some v }),
    member "forward" false (fun _ => optionalField textField) Draft.forward
      (fun v d => { d with forward := some v }),
    member "routingKey" false (fun _ => optionalField textField) Draft.routingKey
      (fun v d => { d with routingKey := some v })]
  closed := false
  blank := {}
  finish := fun d => do
    let destination ← present d.destination
    .ok {
      destination
      response := d.response.join
      forward := d.forward.join
      routingKey := d.routingKey.join }

def toJson (r : Route) : Json.Value :=
  .object (("to", .text r.destination) ::
    Json.optionalEntry "response" (r.response.map .text) ++
    Json.optionalEntry "forward" (r.forward.map .text) ++
    Json.optionalEntry "routingKey" (r.routingKey.map .text))

end Route

namespace Origin

structure Draft where
  name : Option String := none
  version : Option String := none
  instanceId : Option String := none
  hostname : Option String := none
  pid : Option Nat := none

def shape : Shape Draft Origin where
  members := [
    member "name" true (fun _ => textField) Draft.name (fun v d => { d with name := some v }),
    member "version" true (fun _ => textField) Draft.version
      (fun v d => { d with version := some v }),
    member "instanceId" true (fun _ => textField) Draft.instanceId
      (fun v d => { d with instanceId := some v }),
    member "hostname" true (fun _ => textField) Draft.hostname
      (fun v d => { d with hostname := some v }),
    member "pid" true (fun _ => natField 32) Draft.pid (fun v d => { d with pid := some v })]
  closed := false
  blank := {}
  finish := fun d => do
    let name ← present d.name
    let version ← present d.version
    let instanceId ← present d.instanceId
    let hostname ← present d.hostname
    let pid ← present d.pid
    .ok { name, version, instanceId, hostname, pid }

def toJson (o : Origin) : Json.Value :=
  .object [("name", .text o.name), ("version", .text o.version),
    ("instanceId", .text o.instanceId), ("hostname", .text o.hostname),
    ("pid", .integer o.pid)]

end Origin

namespace Stamp

structure Draft where
  ttl : Option (Option Nat) := none
  createdAt : Option Instant := none
  publishedAt : Option (Option Instant) := none
  durationMs : Option (Option Nat) := none
  origin : Option Origin := none

def shape : Shape Draft Stamp where
  members := [
    member "ttl" false (fun _ => optionalField (natField 64)) Draft.ttl
      (fun v d => { d with ttl := some v }),
    member "createdAt" true Instant.read Draft.createdAt
      (fun v d => { d with createdAt := some v }),
    member "publishedAt" false (fun depth => optionalField (Instant.read depth))
      Draft.publishedAt (fun v d => { d with publishedAt := some v }),
    member "durationMs" false (fun _ => optionalField (natField 64)) Draft.durationMs
      (fun v d => { d with durationMs := some v }),
    member "serviceDetails" true Origin.shape.read Draft.origin
      (fun v d => { d with origin := some v })]
  closed := false
  blank := {}
  finish := fun d => do
    let createdAt ← present d.createdAt
    let origin ← present d.origin
    .ok {
      ttl := d.ttl.join
      createdAt
      publishedAt := d.publishedAt.join
      durationMs := d.durationMs.join
      origin }

def toJson? (s : Stamp) : Option Json.Value := do
  let createdAt ← s.createdAt.toJson?
  let publishedAt ← match s.publishedAt with
    | some t => t.toJson?.map some
    | none => some none
  some (.object (
    Json.optionalEntry "ttl" (s.ttl.map fun n => .integer n) ++
    [("createdAt", createdAt)] ++
    Json.optionalEntry "publishedAt" publishedAt ++
    Json.optionalEntry "durationMs" (s.durationMs.map fun n => .integer n) ++
    [("serviceDetails", s.origin.toJson)]))

end Stamp

namespace Ack

structure Draft where
  responderId : Option String := none
  responsesRemaining : Option (Option Int) := none
  timeoutMs : Option (Option Nat) := none

def shape : Shape Draft Ack where
  members := [
    member "responderId" true (fun _ => textField) Draft.responderId
      (fun v d => { d with responderId := some v }),
    member "responsesRemaining" false
      (fun _ => optionalField (intField (Word.intMin 32) (Word.intMax 32)))
      Draft.responsesRemaining (fun v d => { d with responsesRemaining := some v }),
    member "timeoutMs" false (fun _ => optionalField (natField 64)) Draft.timeoutMs
      (fun v d => { d with timeoutMs := some v })]
  closed := false
  blank := {}
  finish := fun d => do
    let responderId ← present d.responderId
    .ok {
      responderId
      responsesRemaining := d.responsesRemaining.join
      timeoutMs := d.timeoutMs.join }

def toJson (a : Ack) : Json.Value :=
  .object (("responderId", .text a.responderId) ::
    Json.optionalEntry "responsesRemaining" (a.responsesRemaining.map .integer) ++
    Json.optionalEntry "timeoutMs" (a.timeoutMs.map fun n => .integer n))

end Ack

namespace Message

structure Draft where
  id : Option String := none
  correlation : Option String := none
  tags : Option (List String) := none
  route : Option Route := none
  stamp : Option Stamp := none
  ack : Option (Option Ack) := none
  payload : Option (Option Json.Value) := none

def shape : Shape Draft Message where
  members := [
    member "id" true (fun _ => textField) Draft.id (fun v d => { d with id := some v }),
    member "correlationId" true (fun _ => textField) Draft.correlation
      (fun v d => { d with correlation := some v }),
    member "tags" false (Json.listField textField) Draft.tags
      (fun v d => { d with tags := some v }),
    member "topics" true Route.shape.read Draft.route (fun v d => { d with route := some v }),
    member "meta" true Stamp.shape.read Draft.stamp (fun v d => { d with stamp := some v }),
    member "ack" false (fun depth => optionalField (Ack.shape.read depth)) Draft.ack
      (fun v d => { d with ack := some v }),
    member "payload" false (fun depth => optionalField (Json.value depth)) Draft.payload
      (fun v d => { d with payload := some v })]
  closed := false
  blank := {}
  finish := fun d => do
    let id ← present d.id
    let correlation ← present d.correlation
    let route ← present d.route
    let stamp ← present d.stamp
    .ok {
      id
      correlation
      tags := d.tags.getD []
      route
      stamp
      ack := d.ack.join
      payload := d.payload.join }

/-- The message written in some bytes. -/
def decode (bs : Bytes) : Except Json.Fault Message :=
  Json.document (shape.read Json.nestingLimit) bs

/-! ## Writing -/

/-- The message as JSON.  Times before the epoch have no written form. -/
def toJson? (m : Message) : Option Json.Value := do
  let stamp ← m.stamp.toJson?
  some (.object (
    [("id", .text m.id), ("correlationId", .text m.correlation)] ++
    (if m.tags.isEmpty then [] else [("tags", .array (m.tags.map .text))]) ++
    [("topics", m.route.toJson), ("meta", stamp)] ++
    Json.optionalEntry "ack" (m.ack.map Ack.toJson) ++
    Json.optionalEntry "payload" m.payload))

def encode (m : Message) : Except Failure Bytes :=
  match m.toJson? with
  | some v => .ok v.render
  | none => .error (.serialization .mismatched "a time lies before the epoch")

end Message
end Colloquy
