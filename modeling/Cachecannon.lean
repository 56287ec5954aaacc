import Cachecannon.Saturation.Proof.Converge
import Cachecannon.Saturation.Proof.Floor
import Cachecannon.Saturation.Proof.Terminate
import Cachecannon.Saturation.Proof.Confirm
import Cachecannon.Worker.Proof.Redirect
import Cachecannon.Worker.Proof.Tokens
import Cachecannon.Worker.Proof.Dispatcher
import Cachecannon.Worker.Proof.Routed
import Cachecannon.Worker.Proof.InFlight
import Cachecannon.Worker.Proof.Prefill
import Cachecannon.Worker.Proof.Append
import Cachecannon.Worker.Proof.Key
import Cachecannon.Worker.Proof.Partition
import Cachecannon.Worker.Proof.Connections
import Cachecannon.Worker.Proof.Seed
import Cachecannon.Worker.Proof.Allocation
import Cachecannon.Worker.Proof.Limiters
import Cachecannon.Worker.Proof.Recency
import Cachecannon.Worker.Proof.RoutedQueues
import Cachecannon.Worker.Proof.Deadline
import Cachecannon.Cluster.Proof.Topology
import Cachecannon.TraceReplay.Proof.Conserve
import Cachecannon.Search.Proof.Batch
import Cachecannon.TraceReplay.Proof.Order
import Cachecannon.TraceReplay.Proof.Reader
import Cachecannon.KvReplay.Proof.Conserve
import Cachecannon.KvReplay.Proof.Account
import Cachecannon.KvReplay.Proof.HandBack
import Cachecannon.KvReplay.Proof.Idle
import Cachecannon.Admin.Proof.Shutdown
import Cachecannon.Admin.Proof.Response
import Cachecannon.Dma.Proof.Advertisement
import Cachecannon.Dma.Proof.Progress
import Cachecannon.Dma.Proof.Session
import Cachecannon.Dma.Proof.Transfers
import Cachecannon.Search.Proof.Query
import Cachecannon.Worker.Proof.Reply
import Cachecannon.KvReplay.Proof.Keys
import Cachecannon.TraceReplay.Proof.Batch
import Cachecannon.Viewer.Proof.Stride
import Cachecannon.Worker.Proof.KeyDist
import Cachecannon.Discovery.Proof.Config
import Cachecannon.Discovery.Proof.Request
import Cachecannon.Metrics.Proof.Counter
import Cachecannon.Runner.Proof.Finish
import Cachecannon.Runner.Proof.Results
import Cachecannon.KvReplay.Proof.Recorded
import Cachecannon.Worker.Proof.Task
