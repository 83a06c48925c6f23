import AeroNyx.Protocol.Types
import AeroNyx.Session.Loop
import AeroNyx.Server.Handshake
import AeroNyx.Server.Connection
import AeroNyx.Server.Lifecycle
import AeroNyx.Server.Engine
import AeroNyx.Server.Interleaving
import AeroNyx.Server.Leases
