import VgiRpc.Auth.Binding
import VgiRpc.Auth.Gates
import VgiRpc.Client.Resume
import VgiRpc.ErrorModel.RoundTrip
import VgiRpc.External.Fetching
import VgiRpc.Hooks.Pairing
import VgiRpc.Hooks.Records
import VgiRpc.Http.Binding
import VgiRpc.Http.Codings
import VgiRpc.Http.Flags
import VgiRpc.Http.SealedTurns
import VgiRpc.Identity.GrantSpellings
import VgiRpc.Identity.Issuing
import VgiRpc.Identity.Limits
import VgiRpc.Logging.Http
import VgiRpc.Login.Landing
import VgiRpc.Proxy.Readers
import VgiRpc.Reflection.ProtocolHash
import VgiRpc.Server.Accepting
import VgiRpc.Server.Connection
import VgiRpc.Server.Intermediary
import VgiRpc.Shm.Attach
import VgiRpc.Shm.Frame
import VgiRpc.Shm.Walk
import VgiRpc.Sticky.Agreement
import VgiRpc.Sticky.Isolation
import VgiRpc.Sticky.Opening
import VgiRpc.Sticky.Races
import VgiRpc.Wire.Truncation
