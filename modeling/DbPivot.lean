import DbPivot.Go.Bytes
import DbPivot.Go.Fault
import DbPivot.Go.Format
import DbPivot.Go.Map
import DbPivot.Go.Socket
import DbPivot.Go.SocketRules
import DbPivot.Go.Tls
import DbPivot.Go.Bufio
import DbPivot.System.Run
import DbPivot.System.Copy
import DbPivot.System.Program
import DbPivot.System.Processes
import DbPivot.System.Token
import DbPivot.Go.Control
import DbPivot.Go.Lockstep
import DbPivot.Go.Trace
import DbPivot.Text.Template
import DbPivot.Config.Variables
import DbPivot.Config.Scanners
import DbPivot.Config.Validate
import DbPivot.Proxy.Database
import DbPivot.Proxy.Activation
import DbPivot.Proxy.Server
import DbPivot.Proxy.Runs
import DbPivot.Proxy.Handover
import DbPivot.Proxy.ConcurrentSwitch
import DbPivot.Proxy.Registry
import DbPivot.Proxy.Lifecycle
import DbPivot.Mongo.Bson
import DbPivot.Mongo.BsonGrammar
import DbPivot.Mongo.BsonDecode
import DbPivot.Mongo.BsonRoundTrip
import DbPivot.Mongo.BsonSpec
import DbPivot.Mongo.Wire
import DbPivot.Mongo.OpMsg
import DbPivot.Mongo.Handshake
import DbPivot.Mongo.Auth
import DbPivot.Mongo.RoundTrip
import DbPivot.Mongo.Login
import DbPivot.Mongo.Dispatch
import DbPivot.Mongo.Commands
import DbPivot.Mongo.Session
import DbPivot.Mongo.Replies
import DbPivot.Mysql.Packet
import DbPivot.Mysql.Wire
import DbPivot.Mysql.Lenenc
import DbPivot.Mysql.LoginPacket
import DbPivot.Mysql.Greeting
import DbPivot.Mysql.Response
import DbPivot.Mysql.Auth
import DbPivot.Mysql.Secrecy
import DbPivot.Mysql.Sequence
import DbPivot.Mysql.Honest
import DbPivot.Mysql.Upgrade
import DbPivot.Postgres.Startup
import DbPivot.Postgres.Auth
import DbPivot.Postgres.Login
import DbPivot.Postgres.ErrorResponse
import DbPivot.Proxy.Handler
import DbPivot.Proxy.ClientLeg
import DbPivot.Proxy.Outcome
import DbPivot.Proxy.Probe
import DbPivot.Proxy.Net
import DbPivot.Proxy.MongoSession
import DbPivot.Proxy.Calls
import DbPivot.Proxy.Reports
import DbPivot.Proxy.Opened
import DbPivot.Proxy.Tunnel
import DbPivot.Proxy.Encryption
import DbPivot.Proxy.Negotiation
import DbPivot.Proxy.Agreement
import DbPivot.Proxy.Usable
import DbPivot.Go.Utf8
import DbPivot.Go.Json
import DbPivot.Control.Protocol
import DbPivot.Go.Line
import DbPivot.Control.Server
import DbPivot.Control.Client
import DbPivot.Control.History
import DbPivot.Control.Missing
import DbPivot.Control.Interleaved
import DbPivot.Control.Routing
import DbPivot.Proxy.MysqlTunnel
import DbPivot.Control.Takeover
import DbPivot.Go.Strings
import DbPivot.Cli.Use
import DbPivot.Control.Interleaved
