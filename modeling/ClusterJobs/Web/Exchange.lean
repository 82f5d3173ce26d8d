import ClusterJobs.Fault
import ClusterJobs.Json.Printer
import ClusterJobs.Json.Reader
import ClusterJobs.Program
import ClusterJobs.Web.Address
import ClusterJobs.Web.Query
import ClusterJobs.Wire.Decode

/-!
# Exchanges

A cluster is spoken to by requests, each of which gets one reply. A reply whose status says so is a
refusal, and a refusal usually explains itself in its body.
-/

namespace ClusterJobs.Web

open Json (Value)

/-- What a request does to its target. -/
inductive Method where
  | get
  | post
  | patch
  | delete
deriving DecidableEq, Repr

def Method.name : Method → String
  | get => "GET"
  | post => "POST"
  | patch => "PATCH"
  | delete => "DELETE"

/-- A request as it is sent. -/
structure Request where
  method : Method
  path : String
  /-- The pairs of the query as they are written. -/
  query : List String
  body : Option Value

/-- A reply: its status and the text of its body. -/
structure Reply where
  status : Nat
  body : String
deriving DecidableEq, Repr

/-- A refusal in the words of the cluster. -/
structure Refusal where
  status : String
  message : String
  reason : String
  code : Nat
deriving DecidableEq, Repr

/-- Why an exchange did not yield what it was made for. -/
inductive ExchangeFault where
  /-- The cluster refused the request. -/
  | refused (refusal : Refusal)
  /-- The request could not be sent, or the reply could not be used. -/
  | unusable (message : String)
deriving DecidableEq, Repr

namespace ExchangeFault

def message : ExchangeFault → String
  | refused r => r.message ++ ": " ++ r.reason
  | unusable message => message

/-- The code of a refusal. -/
def code? : ExchangeFault → Option Nat
  | refused r => some r.code
  | unusable _ => none

/-- The fault of a call that made the exchange. -/
def toFault (e : ExchangeFault) : Fault :=
  .kube e.code? e.message

end ExchangeFault

/-! ## Requests -/

/-- The text of the target: the path, and a query if there may be one. -/
def targetText (path : String) : Option (List (String × String)) → String
  | none => path
  | some pairs => path ++ "?" ++ Text.joinWith "&" (pairs.map formPair)

namespace Request

/-- A request. The path is written as it stands, so a path with a blank has no request. -/
def make (method : Method) (path : String) (query : Option (List (String × String)))
    (body : Option Value) : Except ExchangeFault Request :=
  let text := targetText path query
  if text.utf8ByteSize > maxAddressLength then .error (.unusable "the target is too long")
  else
    match splitTarget? text.toList with
    | some (path, query) => .ok ⟨method, String.ofList path, rawPairs query, body⟩
    | none => .error (.unusable "the target holds a character that needs encoding")

/-- A request about a named object. -/
def named (method : Method) (collection name : String) (rest : String)
    (query : Option (List (String × String))) (body : Option Value) :
    Except ExchangeFault Request :=
  if name.isEmpty then .error (.unusable "an object needs a name")
  else make method (collection ++ "/" ++ name ++ rest) query body

end Request

/-! ## Replies -/

def Refusal.decode : Decoder Refusal := fun w => do
  let ms ← Decode.members false ["status", "message", "reason", "code"] w
  some {
    status := ← ms.required "status" Decode.text
    message := ← ms.withDefault "message" "" Decode.text
    reason := ← ms.withDefault "reason" "" Decode.text
    code := ← ms.required "code" Decode.nat16 }

namespace Reply

/-- The value in the body. -/
def value? (r : Reply) : Option Value :=
  Value.parse? r.body

/-- The refusal that a reply is: that of its body, or one made from its status. -/
def refusal? (r : Reply) : Option Refusal :=
  if 400 ≤ r.status && r.status < 600 then
    some (((r.value?.map Wire.ofJson).bind Refusal.decode).getD
      ⟨toString r.status, r.body, "the reply does not explain itself", r.status⟩)
  else none

/-- The body of a reply that is no refusal. -/
def text (r : Reply) : Except ExchangeFault String :=
  match r.refusal? with
  | some refusal => .error (.refused refusal)
  | none => .ok r.body

end Reply

/-- Reads a body. -/
def readBody {α : Type} (read : Value → Option α) (body : String) : Except ExchangeFault α :=
  match (Value.parse? body).bind read with
  | some a => .ok a
  | none => .error (.unusable "the reply cannot be read")

/-! ## Programs -/

/-- The call of a program that speaks to a cluster. -/
inductive ExchangeCall where
  | send (request : Request)

/-- Each call is answered by a reply. -/
def ExchangeAnswer : ExchangeCall → Type
  | .send _ => Reply

/-- What is done by exchanges. -/
abbrev ExchangeProgram := Program ExchangeCall ExchangeAnswer

/-- Sends a request. -/
def send (request : Request) : ExchangeProgram Reply :=
  Program.call (.send request)

/-- Sends a request that could be made, and takes the body of its reply. -/
def exchange : Except ExchangeFault Request → ExchangeProgram (Except ExchangeFault String)
  | .error e => return .error e
  | .ok request => do
    let reply ← send request
    return reply.text

/-- Sends a request and reads the body of its reply. -/
def exchangeFor {α : Type} (read : Value → Option α) (request : Except ExchangeFault Request) :
    ExchangeProgram (Except ExchangeFault α) := do
  match ← exchange request with
  | .error e => return .error e
  | .ok body => return readBody read body

/-- Runs a program on replies given in order, and lists the requests that it sends. There is no result
if a request gets no reply. -/
def rehearse {α : Type} : ExchangeProgram α → List Reply → Option α × List Request
  | .done a, _ => (some a, [])
  | .ask (.send r) _, [] => (none, [r])
  | .ask (.send r) next, reply :: replies =>
    let (a, sent) := rehearse (next reply) replies
    (a, r :: sent)
  | .never, _ => (none, [])

end ClusterJobs.Web
