import ClusterJobs.Cluster.Object
import ClusterJobs.Fault
import ClusterJobs.Target
import ClusterJobs.Web.Address
import ClusterJobs.Wire.Yaml

/-!
# Credential files

A credential file names clusters, users, and contexts that pair them. The current context says which
cluster to talk to. What a user proves itself with is not looked into.
-/

namespace ClusterJobs

/-- An entry of one of the lists of a credential file. -/
structure Entry (α : Type) where
  name : String
  /-- An entry may name something without describing it. -/
  content : Option α

/-- A pairing of a cluster with a user. -/
structure CredentialContext where
  cluster : String
  user : Option String
deriving DecidableEq, Repr

/-- A credential file, as far as it says which cluster to talk to. -/
structure Kubeconfig where
  /-- The servers of the clusters. -/
  clusters : List (Entry (Option String))
  users : List (Entry Unit)
  contexts : List (Entry CredentialContext)
  currentContext : Option String

namespace Kubeconfig

/-- A file that says nothing. -/
def empty : Kubeconfig := ⟨[], [], [], none⟩

/-! ## Reading -/

/-- A member that is checked and not kept. -/
def ignored {α : Type} (ms : Members) (name : String) (d : Decoder α) : Option Unit :=
  (ms.optional name d).map fun _ => ()

def decodeExtension : Decoder Unit := fun w => do
  let ms ← Decode.members false ["name", "extension"] w
  let _ ← ms.required "name" Decode.text
  let _ ← ms.required "extension" Decode.json
  some ()

/-- An entry of a list, with its content under the name `label`. -/
def decodeEntry {α : Type} (label : String) (d : Decoder α) : Decoder (Entry α) := fun w => do
  let ms ← Decode.members false ["name", label] w
  some ⟨← ms.required "name" Decode.text, ← ms.optional label d⟩

/-- The server of a cluster. -/
def decodeCluster : Decoder (Option String) := fun w => do
  let ms ← Decode.members true
    ["server", "insecure-skip-tls-verify", "certificate-authority", "certificate-authority-data",
      "proxy-url", "disable-compression", "tls-server-name", "extensions"] w
  ignored ms "insecure-skip-tls-verify" Decode.bool
  ignored ms "certificate-authority" Decode.text
  ignored ms "certificate-authority-data" Decode.text
  ignored ms "proxy-url" Decode.text
  ignored ms "disable-compression" Decode.bool
  ignored ms "tls-server-name" Decode.text
  ignored ms "extensions" (Decode.list decodeExtension)
  ms.optional "server" Decode.text

/-- What a user proves itself with. -/
def decodeUser : Decoder Unit := fun w => do
  let ms ← Decode.members true
    ["username", "password", "token", "tokenFile", "client-certificate", "client-certificate-data",
      "client-key", "client-key-data", "as", "as-groups", "auth-provider", "exec"] w
  for name in ["username", "password", "token", "tokenFile", "client-certificate",
      "client-certificate-data", "client-key", "client-key-data", "as"] do
    ignored ms name Decode.text
  ignored ms "as-groups" (Decode.list Decode.text)

def decodeContext : Decoder CredentialContext := fun w => do
  let ms ← Decode.members false ["cluster", "user", "namespace", "extensions"] w
  ignored ms "namespace" Decode.text
  ignored ms "extensions" (Decode.list decodeExtension)
  some ⟨← ms.required "cluster" Decode.text, ← ms.optional "user" Decode.text⟩

/-- A list that may be missing or null. -/
def entries {α : Type} (ms : Members) (name : String) (d : Decoder α) : Option (List α) :=
  (ms.optional name (Decode.list d)).map fun l => l.getD []

def decode : Decoder Kubeconfig := fun w => do
  let ms ← Decode.members true
    ["preferences", "clusters", "users", "contexts", "current-context", "extensions", "kind",
      "apiVersion"] w
  ignored ms "kind" Decode.text
  ignored ms "apiVersion" Decode.text
  ignored ms "extensions" (Decode.list decodeExtension)
  some {
    clusters := ← entries ms "clusters" (decodeEntry "cluster" decodeCluster)
    users := ← entries ms "users" (decodeEntry "user" decodeUser)
    contexts := ← entries ms "contexts" (decodeEntry "context" decodeContext)
    currentContext := ← ms.optional "current-context" Decode.text }

/-- Reads a file. A text without a document is an empty file. -/
def ofText? (text : String) : Option Kubeconfig := do
  match ← Yaml.documents? Wire.fileDialect (← Wire.readable? text) with
  | [] => some empty
  | _ => (Wire.ofYaml? text).bind fun w => decode w.settle

/-! ## The current cluster -/

/-- The content of the first entry of a name. -/
def lookup {α : Type} (name : String) (entries : List (Entry α)) : Option α :=
  (entries.find? fun e => e.name == name).bind Entry.content

/-- The server that the current context leads to. -/
def server (k : Kubeconfig) : Except String String := do
  let some current := k.currentContext
    | .error "no current context"
  let some context := lookup current k.contexts
    | .error ("no context " ++ current)
  let some cluster := lookup context.cluster k.clusters
    | .error ("no cluster " ++ context.cluster)
  if let some user := context.user then
    if (lookup user k.users).isNone then .error ("no user " ++ user)
  match cluster with
  | none => .error ("no server for cluster " ++ context.cluster)
  | some url =>
    if Web.isAddress url then .ok url else .error ("invalid server " ++ url)

end Kubeconfig

end ClusterJobs
