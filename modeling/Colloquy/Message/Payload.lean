/-
A payload in the style of a web request or response.

Servers use it to report that a handler failed: status 500 and the reason.
-/
import Colloquy.Json.Typed
import Colloquy.Message.Wire

namespace Colloquy

open Json (member optionalField textField natField Shape)

structure Payload where
  statusCode : Option Nat := none
  statusMessage : Option String := none
  headers : Option Json.Value := none
  query : Option Json.Value := none
  params : Option Json.Value := none
  body : Option Json.Value := none
  deriving BEq

namespace Payload

/-- The report of a failed handler. -/
def serverError (reason : String) : Payload :=
  { statusCode := some 500, statusMessage := some reason }

def toJson (p : Payload) : Json.Value :=
  .object (Json.optionalEntry "statusCode" (p.statusCode.map fun n => .integer n) ++
    Json.optionalEntry "statusMessage" (p.statusMessage.map .text) ++
    Json.optionalEntry "headers" p.headers ++
    Json.optionalEntry "query" p.query ++
    Json.optionalEntry "params" p.params ++
    Json.optionalEntry "body" p.body)

structure Draft where
  statusCode : Option (Option Nat) := none
  statusMessage : Option (Option String) := none
  headers : Option (Option Json.Value) := none
  query : Option (Option Json.Value) := none
  params : Option (Option Json.Value) := none
  body : Option (Option Json.Value) := none

def ofDraft (d : Draft) : Payload where
  statusCode := d.statusCode.join
  statusMessage := d.statusMessage.join
  headers := d.headers.join
  query := d.query.join
  params := d.params.join
  body := d.body.join

def anyField (depth : Nat) : Json.Reader (Option Json.Value) :=
  optionalField (Json.value depth)

def shape : Shape Draft Payload where
  members := [
    member "statusCode" false (fun _ => optionalField (natField 16)) Draft.statusCode
      (fun v d => { d with statusCode := some v }),
    member "statusMessage" false (fun _ => optionalField textField) Draft.statusMessage
      (fun v d => { d with statusMessage := some v }),
    member "headers" false anyField Draft.headers (fun v d => { d with headers := some v }),
    member "query" false anyField Draft.query (fun v d => { d with query := some v }),
    member "params" false anyField Draft.params (fun v d => { d with params := some v }),
    member "body" false anyField Draft.body (fun v d => { d with body := some v })]
  closed := false
  blank := {}
  finish := fun d => .ok (ofDraft d)

def decode (bs : Bytes) : Except Json.Fault Payload :=
  Json.document (shape.read Json.nestingLimit) bs

/-- The payload that a generic value holds, as an object or as a list of its fields. -/
def ofValue (v : Json.Value) : Except Json.Fault Payload :=
  let build := fun (field : Nat → String → Option Json.Value) => do
    let plain := fun i name => (field i name).filter fun v => !v.isNull
    let statusCode ← ((field 0 "statusCode").getD .null).asOption (Json.Value.asInt 0 65535)
    let statusMessage ← ((field 1 "statusMessage").getD .null).asOption Json.Value.asText
    .ok {
      statusCode := statusCode.map Int.toNat
      statusMessage
      headers := plain 2 "headers"
      query := plain 3 "query"
      params := plain 4 "params"
      body := plain 5 "body" }
  match v with
  | .object fields => build fun _ name => fields.lookup name
  | .array vs => if vs.length ≤ 6 then build fun i _ => vs[i]? else .error .mismatched
  | _ => .error .mismatched

end Payload
end Colloquy
