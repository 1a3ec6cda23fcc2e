import Canbox.Kademlia.Utils
import Canbox.Kademlia.Node
import Canbox.Kademlia.KBucket
import Canbox.Kademlia.Depth
import Canbox.Kademlia.Routing
import Canbox.Kademlia.RoutingInvariants
import Canbox.Kademlia.Maintenance
import Canbox.Kademlia.Lookup
import Canbox.Kademlia.Traverser
import Canbox.Kademlia.Storage
import Canbox.Rpcudp.MsgPack
import Canbox.Rpcudp.RoundTrip
import Canbox.Rpcudp.Protocol
import Canbox.Rpcudp.Outstanding
import Canbox.Rpcudp.Framing
import Canbox.Rpcudp.SendFailure
import Canbox.Kademlia.Digest
import Canbox.Kademlia.Protocol
import Canbox.Kademlia.Refresh
import Canbox.Kademlia.ProtocolRuns
import Canbox.Kademlia.Growth
import Canbox.Kademlia.NodeHeap
import Canbox.Kademlia.Crawling
import Canbox.Kademlia.ValueCrawl
import Canbox.Kademlia.NodeCrawl
import Canbox.Kademlia.Network
import Canbox.Kademlia.Server
import Canbox.Kademlia.Wire
