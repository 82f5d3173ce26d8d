import ClusterJobs.Cluster.Log
import ClusterJobs.Cluster.Watcher
import ClusterJobs.Decimal.Exact
import ClusterJobs.Main
import ClusterJobs.Proofs.Cluster.ClientSessions
import ClusterJobs.Proofs.Manifest.Applications
import ClusterJobs.Proofs.Manifest.ContainerResources
import ClusterJobs.Proofs.Manifest.Endpoints
import ClusterJobs.Proofs.Manifest.Envelopes
import ClusterJobs.Proofs.Manifest.GangSizes
import ClusterJobs.Proofs.Manifest.Labels
import ClusterJobs.Proofs.Manifest.Marks
import ClusterJobs.Proofs.Manifest.Obstructions
import ClusterJobs.Proofs.Queue.Ceilings
import ClusterJobs.Proofs.Queue.Contention
import ClusterJobs.Proofs.Queue.Creations
import ClusterJobs.Proofs.Queue.Failures
import ClusterJobs.Proofs.Queue.Pages
import ClusterJobs.Proofs.Queue.Rerecording
import ClusterJobs.Proofs.Queue.Updates
import ClusterJobs.Proofs.Queue.Usage
import ClusterJobs.Proofs.Retrying.Attempts
import ClusterJobs.Proofs.Retrying.Sleeps
import ClusterJobs.Proofs.Settings
import ClusterJobs.Proofs.Task.Cancelling
import ClusterJobs.Proofs.Task.Discarded
import ClusterJobs.Proofs.Task.DroppedClients
import ClusterJobs.Proofs.Task.FanOuts
import ClusterJobs.Proofs.Task.Items
import ClusterJobs.Proofs.Task.Occupancy
import ClusterJobs.Proofs.Task.Relaying
import ClusterJobs.Proofs.Task.Separation
import ClusterJobs.Proofs.Task.Uncompiled
import ClusterJobs.Proofs.Task.Vanishing
import ClusterJobs.Proofs.Task.Watching
import ClusterJobs.Proofs.Wire.GangQueues
import ClusterJobs.Proofs.Wire.Requests
import ClusterJobs.Proofs.Yaml.Lists
import ClusterJobs.Queue.Exchange
import ClusterJobs.Simulation.Directory
import ClusterJobs.Simulation.World
import ClusterJobs.Web.Target
