import Headscale.Policy.PeerMap
import Headscale.Policy.Coherence
import Headscale.Policy.Rejection
import Headscale.Policy.Check
import Headscale.Db.KeyDeletion
import Headscale.Node.SavedRows
import Headscale.Routes.Primary
import Headscale.Routes.Selection
import Headscale.Routes.AutoApproval
import Headscale.Serve.TrustedProxy
import Headscale.Control.Messages
import Headscale.Netmap.Pending
import Headscale.Netmap.Stream
import Headscale.NodeStore.EphemeralGc
import Headscale.Noise.Duplex
import Headscale.Auth.Eviction
import Headscale.Auth.SshApproval
import Headscale.Policy.Ssh
import Headscale.Policy.SshCheck
import Headscale.Ipam.Pool
import Headscale.Ipam.Registration
import Headscale.Names.Reload
import Headscale.Policy.SpanSets
import Headscale.Policy.Coalescing
import Headscale.Policy.TagOwners
import Headscale.Policy.Sweeps
import Headscale.Policy.LeastCover
import Headscale.Netip.Rfc6724
import Headscale.Policy.CanonicalValue
import Headscale.GoJson.RawValue
import Headscale.GoJson.Validators
import Headscale.Hujson.StandardText
