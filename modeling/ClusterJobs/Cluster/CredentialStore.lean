import ClusterJobs.Cluster.ClientCache

/-!
# Stored credentials

Credential files are registered under the identifiers of their clusters.
-/

namespace ClusterJobs

/-- The credential files, and which of them were asked for. -/
structure CredentialStore where
  /-- What reading the file of each registered cluster yields. -/
  files : Fields (Except Fault String)
  /-- The clusters whose file was asked for, the last one first. -/
  asked : List String

namespace CredentialStore

/-- Answers calls. -/
def handler : Program.Handler CredentialCall CredentialAnswer CredentialStore
  | .credentials cluster, s =>
    let answer := (s.files.get? cluster).getD
      (.error (.cluster cluster "no kubeconfig registered"))
    (answer, { s with asked := cluster :: s.asked })

end CredentialStore

end ClusterJobs
