import ClusterJobs.Cluster.Kubeconfig
import ClusterJobs.Program

/-!
# Clients

A client is what a target is talked to with. It is built from the credentials stored for a cluster, or
from a URL, and kept under a key of its target until a call against it fails.
-/

namespace ClusterJobs

/-- The call of building clients. -/
inductive CredentialCall where
  /-- The credential file of a cluster. -/
  | credentials (cluster : String)

/-- What the call is answered with. -/
def CredentialAnswer : CredentialCall → Type
  | .credentials _ => Except Fault String

/-- What is done with the help of stored credentials. -/
abbrev CredentialProgram := Program CredentialCall CredentialAnswer

/-- A client of a target. -/
structure Client where
  target : Target
  server : String
deriving DecidableEq, Repr

namespace Client

/-- The client of a cluster, from its credential file. -/
def ofCredentials (cluster text : String) : Except Fault Client :=
  match Kubeconfig.ofText? text with
  | none => .error (.cluster cluster "failed to parse kubeconfig: not a kubeconfig document")
  | some k =>
    match k.server with
    | .ok server => .ok ⟨.stored cluster, server⟩
    | .error e => .error (.cluster cluster ("failed to load kubeconfig: " ++ e))

/-- The client of a server. -/
def ofUrl (url : String) : Except Fault Client :=
  if Web.isAddress url then .ok ⟨.masterUrl url, url⟩
  else .error (.cluster url "invalid master URL: not an address")

/-- Builds the client of a target. -/
def build : Target → CredentialProgram (Except Fault Client)
  | .stored cluster => do
    match ← Program.call (.credentials cluster) with
    | .ok text => return ofCredentials cluster text
    | .error e => return .error e
  | .masterUrl url => return ofUrl url

end Client

/-- Clients by the keys of their targets. -/
structure ClientCache where
  clients : Fields Client
deriving DecidableEq, Repr

namespace ClientCache

def empty : ClientCache := ⟨[]⟩

/-- The number of clients. -/
def size (cache : ClientCache) : Nat :=
  cache.clients.length

/-- The client of a target, which is built unless there is one. A client that cannot be built leaves
the cache as it is. -/
def client (cache : ClientCache) (t : Target) :
    CredentialProgram (Except Fault Client × ClientCache) := do
  match cache.clients.get? t.cacheKey with
  | some c => return (.ok c, cache)
  | none =>
    match ← Client.build t with
    | .ok c => return (.ok c, ⟨cache.clients.put t.cacheKey c⟩)
    | .error e => return (.error e, cache)

/-- Forgets the client of a target. -/
def invalidate (cache : ClientCache) (t : Target) : ClientCache :=
  ⟨cache.clients.remove t.cacheKey⟩

end ClientCache

end ClusterJobs
