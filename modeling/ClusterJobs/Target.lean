/-!
# Cluster targets

A cluster is reached through the credentials stored for its identifier, or at a URL without
credentials.
-/

namespace ClusterJobs

/-- Which endpoint to talk to. -/
inductive Target where
  | stored (cluster : String)
  | masterUrl (url : String)
deriving DecidableEq, Repr

/-- The identifier or the URL. -/
def Target.display : Target → String
  | .stored c => c
  | .masterUrl u => u

/-- The key of a target's client in a cache. -/
def Target.cacheKey : Target → String
  | .stored c => "kubeconfig:" ++ c
  | .masterUrl u => "url:" ++ u

end ClusterJobs
