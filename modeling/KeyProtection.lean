import KeyProtection.Lib.Run
import KeyProtection.Lib.Table
import KeyProtection.Lib.TtlMap
import KeyProtection.Proto
import KeyProtection.Errors
import KeyProtection.Crypto
import KeyProtection.KeyTypes
import KeyProtection.RegistryTtl
import KeyProtection.Ffi
import KeyProtection.KpsCore
import KeyProtection.WsCore
import KeyProtection.Server
import KeyProtection.Heartbeat
import KeyProtection.System
import KeyProtection.Moves
import KeyProtection.Ownership
import KeyProtection.Agreement
import KeyProtection.Destroy
import KeyProtection.DestroyRace
import KeyProtection.Restart
import KeyProtection.Cleanup
import KeyProtection.Generate
import KeyProtection.Decaps
import KeyProtection.Isolation
import KeyProtection.Replay
import KeyProtection.Custody
import KeyProtection.Effects
import KeyProtection.Paging
import KeyProtection.Grpc
import KeyProtection.Remote
import KeyProtection.Lib.Pages
import KeyProtection.Listing
import KeyProtection.PageRace
import KeyProtection.Manageable
import KeyProtection.Shutdown
import KeyProtection.DestroyAnswers
import KeyProtection.Expiry
import KeyProtection.Backoff
import KeyProtection.Dhkem
import KeyProtection.Context
import KeyProtection.Lifespan
import KeyProtection.Outlives
import KeyProtection.Lib.Refine
import KeyProtection.Lib.Rank
import KeyProtection.Lib.Cells
import KeyProtection.Ideal
import KeyProtection.Progress
import KeyProtection.Refinement
import KeyProtection.Memory
import KeyProtection.Fence
import KeyProtection.Endorsement
import KeyProtection.Retention
import KeyProtection.Clients
import KeyProtection.Lifecycle
import KeyProtection.Telemetry
import KeyProtection.Drain
import KeyProtection.Deployments
