import PlexusTransport.Ws.Guard.Run
import PlexusTransport.Lib.Rfc6455
import PlexusTransport.Ws.Guard.Frames
import PlexusTransport.Ws.Guard.Messages
import PlexusTransport.Http.Headers
import PlexusTransport.Net.Addr
import PlexusTransport.Proxy
import PlexusTransport.Proxy.Chain
import PlexusTransport.Lib.Machine
import PlexusTransport.Lib.Tally
import PlexusTransport.Websocket.Quotas
import PlexusTransport.Websocket.Places
import PlexusTransport.Host
import PlexusTransport.Websocket.Decision
import PlexusTransport.Http.Bridge
import PlexusTransport.Ws.Conn.Writer
import PlexusTransport.Ws.Conn.Order
import PlexusTransport.Lib.Json
import PlexusTransport.Ws.Conn.Routing
import PlexusTransport.Ws.Conn.Answers
import PlexusTransport.Http.Admission
import PlexusTransport.Websocket.Liveness
import PlexusTransport.Ws.Guard.Chunks
import PlexusTransport.Ws.Guard.Visible
import PlexusTransport.Ws.Guard.Memory
import PlexusTransport.Ws.Conn.Batch
import PlexusTransport.Lib.Turns
import PlexusTransport.Ws.Conn.Fair
import PlexusTransport.Ws.Conn.Wake
import PlexusTransport.Ws.Conn.Parked
import PlexusTransport.Ws.Conn.Silence
import PlexusTransport.Ws.Conn.Backlog
import PlexusTransport.Http.Handler
import PlexusTransport.Http.Buffer
import PlexusTransport.Mcp.Bridge
import PlexusTransport.Mcp.Names
import PlexusTransport.Mcp.Agreement
import PlexusTransport.Mcp.Closed
import PlexusTransport.Lib.Framing
import PlexusTransport.Lib.JsonText
import PlexusTransport.Stdio.Written
import PlexusTransport.Stdio.Answered
import PlexusTransport.Lib.Tasks
import PlexusTransport.Tls.Peers
import PlexusTransport.Tls.Reload
import PlexusTransport.Tls.Fresh
import PlexusTransport.Stdio
import PlexusTransport.Ws.Conn.Idle
import PlexusTransport.Ws.Conn.Effects
import PlexusTransport.Ws.Conn.Ledger
import PlexusTransport.Ws.Conn.Accounts
import PlexusTransport.Ws.Conn.Dispatch
import PlexusTransport.Http.Timeout
import PlexusTransport.Ws.Conn.Busy
import PlexusTransport.Ws.Conn.Drops
import PlexusTransport.Websocket.Pending
import PlexusTransport.ProtectedResource
import PlexusTransport.Websocket.Metadata
import PlexusTransport.Mcp.Cleanup
import PlexusTransport.Mcp.Resumed
import PlexusTransport.Calls
import PlexusTransport.Ws.Guard.Account
import PlexusTransport.Ws.Guard.Progress
import PlexusTransport.Lib.WatchChannel
import PlexusTransport.Ws.Stop
import PlexusTransport.Ws.Stop.Bounded
import PlexusTransport.Http.Registry
import PlexusTransport.Http.Server
import PlexusTransport.Http.Sse
import PlexusTransport.Registration
import PlexusTransport.Registration.Serve
import PlexusTransport.Combined
import PlexusTransport.Server
import PlexusTransport.Server.Listeners
import PlexusTransport.Server.Build
import PlexusTransport.Lib.Mpsc
import PlexusTransport.Lib.Mpsc.Drains
import PlexusTransport.Mcp.Told
import PlexusTransport.Tls.Listener
import PlexusTransport.Ws.Conn.Ended
import PlexusTransport.Lib.Once
import PlexusTransport.Fields
