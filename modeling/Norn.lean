import Norn.Session.NonceUse
import Norn.Session.Delivery
import Norn.Session.PeerKey
import Norn.Session.Pinning
import Norn.Session.RateBounds
import Norn.Session.Solicited
import Norn.Session.InitReplay
import Norn.Session.KemOverlap
import Norn.Session.Retransmission
import Norn.Session.Crossing
import Norn.Packet.Framing
import Norn.Packet.Separation
import Norn.Router.GreedyPaths
import Norn.Router.HintReach
import Norn.Router.Freshness
import Norn.Router.ReplyLoop
import Norn.Router.ForwardTasks
import Norn.Transport.Agreement
import Norn.Transport.Obfuscation
import Norn.Transport.Admission
import Norn.Tun.Unreachable
import Norn.Cuckoo.Union
import Norn.Cuckoo.Codec
import Norn.Onion.RoundTrip
import Norn.Onion.CellSize
import Norn.Onion.ReplayCache
import Norn.Onion.Replay
import Norn.Onion.HintOrigins
import Norn.Onion.Peeling
import Norn.Control.TreePointers
import Norn.Control.RootAgreement
import Norn.Control.FilterGenerations
import Norn.Control.LookupProgress
import Norn.Control.Keepalives
import Norn.Control.Depths
import Norn.Control.Broadcasts
import Norn.Control.ProbeSoundness
import Norn.Control.ReputationBound
import Norn.Control.Consensus
import Norn.Control.SelfAdvertisement
import Norn.Control.Restart
import Norn.Control.LookupFlood
import Norn.Codecs
