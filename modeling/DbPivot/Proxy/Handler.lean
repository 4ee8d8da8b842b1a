import DbPivot.Go.Control
import DbPivot.Mongo.Dispatch
import DbPivot.Mysql.Auth
import DbPivot.Postgres.Auth

/-!
# The handlers of client connections

A client connection is served by one goroutine: it finds out which database the client wants, reads
the current target of that database, dials the upstream, logs in there, tells the client how that
went and copies bytes in both directions until one side is gone. The three protocols differ in who
speaks first and in where the name of the database is.

The handlers and the probes are programs over one interface. Its calls are the operations of the
source on the two sockets of a connection, on the server and on the registry of connections; what a
call does is left to the world the program runs in. The variable that holds the upstream connection
is the layer it stands for, so a handler that went on with the wrong one would be seen to do so.
-/

namespace DbPivot.Proxy

open DbPivot.Go DbPivot.Config DbPivot.System
open DbPivot.Mongo (Env BSON MsgHeader Peer)
open DbPivot.Mysql (HandshakeResponse41)
open DbPivot.Postgres (KV ascii)

/-! ## The interface -/

/-- One of the two sockets of a connection; the upstream's is used directly or through TLS. -/
inductive Endpoint where
  | client
  | upstream (layer : Layer)
deriving DecidableEq

inductive Call where
  | lookupDatabase (adapter name : Bytes)
  | current (adapter name : Bytes)
  | connSeq
  | now
  | rand (n : ℕ)
  | readFull (n : ℕ)
  | peek
  | discard (n : ℕ)
  | write (conn : Endpoint) (bytes : Bytes)
  | readMessage (conn : Endpoint)
  | writeMessage (conn : Endpoint) (typ : UInt8) (body : Bytes)
  | readPacket (conn : Endpoint)
  | writePacket (conn : Endpoint) (seq : UInt8) (payload : Bytes)
  | readMongoMessage (conn : Endpoint)
  | writeMongoReply (conn : Endpoint) (reqOpCode responseTo : Int32) (doc : BSON)
  | writeMongoMessage (conn : Endpoint) (hdr : MsgHeader) (body : Bytes)
  | dial (host : Bytes) (port : ℤ)
  | negotiateTLS (serverName : Bytes)
  | authenticatePostgres (layer : Layer) (user password : Bytes)
  | authenticateMySQL (layer : Layer) (user password database : Bytes) (tlsConfig : Option Bytes)
  | authenticateMongo (layer : Layer) (user password authSource : Bytes)
  | register (layer : Layer) (rt : ResolvedTarget)
  | pipe (layer : Layer)
  | closeConn
  | close (conn : Endpoint)

/-- What a handler needs from its surroundings. -/
abbrev handlerInterface : Interface where
  Call := Call
  Reply
    | .lookupDatabase _ _ => Bool
    | .current _ _ => Option ResolvedTarget
    | .connSeq => UInt32
    | .now => Int64
    | .rand _ => GoM GoError Bytes
    | .readFull _ => GoM GoError Bytes
    | .peek => Bytes
    | .discard _ => Unit
    | .write _ _ => GoM GoError Unit
    | .readMessage _ => GoM GoError (UInt8 × Bytes)
    | .writeMessage _ _ _ => GoM GoError Unit
    | .readPacket _ => GoM GoError (UInt8 × Bytes)
    | .writePacket _ _ _ => GoM GoError Unit
    | .readMongoMessage _ => GoM GoError (MsgHeader × Bytes)
    | .writeMongoReply _ _ _ _ => GoM GoError Unit
    | .writeMongoMessage _ _ _ => GoM GoError Unit
    | .dial _ _ => GoM GoError Unit
    | .negotiateTLS _ => GoM GoError Unit
    | .authenticatePostgres _ _ _ => GoM GoError Unit
    | .authenticateMySQL _ _ _ _ _ => GoM GoError (Layer × UInt32)
    | .authenticateMongo _ _ _ _ => GoM GoError Unit
    | .register _ _ => Unit
    | .pipe _ => Unit
    | .closeConn => Unit
    | .close _ => Unit

abbrev HandlerM := Proc handlerInterface

namespace Handler

def lookupDatabase (adapter name : Bytes) : HandlerM Bool :=
  .call (.lookupDatabase adapter name) fun found ↦ .done (.ok found)

def current (adapter name : Bytes) : HandlerM (Option ResolvedTarget) :=
  .call (.current adapter name) fun target ↦ .done (.ok target)

def connSeq : HandlerM UInt32 := .call .connSeq fun n ↦ .done (.ok n)

def now : HandlerM Int64 := .call .now fun time ↦ .done (.ok time)

def rand (n : ℕ) : HandlerM Bytes := .call (.rand n) .done

def readFull (n : ℕ) : HandlerM Bytes := .call (.readFull n) .done

def peek : HandlerM Bytes := .call .peek fun buffered ↦ .done (.ok buffered)

def discard (n : ℕ) : HandlerM Unit := .call (.discard n) fun _ ↦ .done (.ok ())

def write (conn : Endpoint) (bytes : Bytes) : HandlerM Unit := .call (.write conn bytes) .done

def readMessage (conn : Endpoint) : HandlerM (UInt8 × Bytes) := .call (.readMessage conn) .done

def writeMessage (conn : Endpoint) (typ : UInt8) (body : Bytes) : HandlerM Unit :=
  .call (.writeMessage conn typ body) .done

def readPacket (conn : Endpoint) : HandlerM (UInt8 × Bytes) := .call (.readPacket conn) .done

def writePacket (conn : Endpoint) (seq : UInt8) (payload : Bytes) : HandlerM Unit :=
  .call (.writePacket conn seq payload) .done

def readMongoMessage (conn : Endpoint) : HandlerM (MsgHeader × Bytes) :=
  .call (.readMongoMessage conn) .done

def writeMongoReply (conn : Endpoint) (reqOpCode responseTo : Int32) (doc : BSON) : HandlerM Unit :=
  .call (.writeMongoReply conn reqOpCode responseTo doc) .done

def writeMongoMessage (conn : Endpoint) (hdr : MsgHeader) (body : Bytes) : HandlerM Unit :=
  .call (.writeMongoMessage conn hdr body) .done

def dial (host : Bytes) (port : ℤ) : HandlerM Unit := .call (.dial host port) .done

def negotiateTLS (serverName : Bytes) : HandlerM Unit := .call (.negotiateTLS serverName) .done

def authenticatePostgres (layer : Layer) (user password : Bytes) : HandlerM Unit :=
  .call (.authenticatePostgres layer user password) .done

/-- The connection to go on with and the capabilities; the handshake is not used. -/
def authenticateMySQL (layer : Layer) (user password database : Bytes) (tlsConfig : Option Bytes) :
    HandlerM (Layer × UInt32) :=
  .call (.authenticateMySQL layer user password database tlsConfig) .done

def authenticateMongo (layer : Layer) (user password authSource : Bytes) : HandlerM Unit :=
  .call (.authenticateMongo layer user password authSource) .done

def register (layer : Layer) (rt : ResolvedTarget) : HandlerM Unit :=
  .call (.register layer rt) fun _ ↦ .done (.ok ())

def pipe (layer : Layer) : HandlerM Unit := .call (.pipe layer) fun _ ↦ .done (.ok ())

def closeConn : HandlerM Unit := .call .closeConn fun _ ↦ .done (.ok ())

def close (conn : Endpoint) : HandlerM Unit := .call (.close conn) fun _ ↦ .done (.ok ())

end Handler

/-! ## The pipe -/

/-- `Register` and `pipeBidi`, with `Close` deferred. -/
def serveConn (layer : Layer) (rt : ResolvedTarget) : HandlerM Unit := do
  Handler.register layer rt
  deferring Handler.closeConn (Handler.pipe layer)

/-! ## PostgreSQL -/

/-- `WriteErrorResponse` to the client, with its error ignored. -/
def writeErrorResponse (sqlstate message : Bytes) : HandlerM Unit :=
  ignoring (Handler.writeMessage .client (ascii 'E')
    (Postgres.errorResponseBody (str "FATAL") sqlstate message))

/-- `WriteAuthenticationOk` to the client. -/
def writeAuthenticationOk : HandlerM Unit :=
  Handler.writeMessage .client (ascii 'R') Postgres.authenticationOkBody

/-- The database a client asks for: its parameter, or else its user. -/
def startupDatabase (params : List KV) : Bytes :=
  let dbname := Postgres.lookupParam params (str "database")
  if dbname = [] then Postgres.lookupParam params (str "user") else dbname

/-- The parameters of the upstream's StartupMessage: the target's user and database, and everything
else the client sent. -/
def upstreamParams (params : List KV) (rt : ResolvedTarget) : List KV :=
  let database : List KV :=
    if rt.database ≠ [] then [⟨str "database", rt.database⟩]
    else if Postgres.lookupParam params (str "database") ≠ [] then
      [⟨str "database", Postgres.lookupParam params (str "database")⟩]
    else []
  [⟨str "user", rt.user⟩] ++ database ++
    params.filter fun kv ↦ kv.k ≠ str "user" ∧ kv.k ≠ str "database"

/-- The connection to the upstream that `handleStartup` sends the StartupMessage on. -/
def dialPostgres (env : Env) (rt : ResolvedTarget) : HandlerM Layer := do
  orElse (Handler.dial rt.host rt.port) fun err ↦
    writeErrorResponse (str "08006") (env.render (wrapf "upstream dial failed: %v" [] err))
  if rt.sslMode = sslModeRequire then do
    orElse (Handler.negotiateTLS rt.host) fun err ↦ do
      writeErrorResponse (str "08006") (env.render (wrapf "upstream TLS failed: %v" [] err))
      Handler.close (.upstream .plain)
    pure .tls
  else pure .plain

/-- The login of `handleStartup`. -/
def loginPostgres (env : Env) (rt : ResolvedTarget) (layer : Layer) (upStartup : Bytes) :
    HandlerM Unit := do
  orElse (Handler.write (.upstream layer) upStartup) fun _ ↦ do
    writeErrorResponse (str "08006") (str "upstream write failed")
    Handler.close (.upstream layer)
  orElse (Handler.authenticatePostgres layer rt.user rt.password) fun err ↦ do
    writeErrorResponse (str "28P01") (env.render (wrapf "upstream auth failed: %v" [] err))
    Handler.close (.upstream layer)

/-- What the client sent beyond its StartupMessage goes to the upstream first. -/
def flushBuffered (layer : Layer) : HandlerM Unit := do
  let buffered ← Handler.peek
  if 0 < buffered.length then do
    orElse (Handler.write (.upstream layer) buffered) fun _ ↦ Handler.close (.upstream layer)
    Handler.discard buffered.length
  else pure ()

/-- `handleStartup`. -/
def handleStartup (env : Env) (msgLen : ℕ) : HandlerM Unit := do
  let body ← onError (wrapf "read startup body: %w" []) (Handler.readFull (msgLen - 8))
  let params ← .lift (Postgres.parseStartupBody body)
  let dbname := startupDatabase params
  let found ← Handler.lookupDatabase adapterPostgres dbname
  if found then do
    let target ← Handler.current adapterPostgres dbname
    match target with
    | none =>
      writeErrorResponse (str "57P03")
        (env.render (errorf "database %q has no active target" [.text dbname]))
    | some rt => do
      let upStartup ← .lift (Postgres.encodeStartup (upstreamParams params rt))
      let layer ← dialPostgres env rt
      loginPostgres env rt layer upStartup
      orElse (onError (wrapf "write AuthenticationOk to client: %w" []) writeAuthenticationOk)
        fun _ ↦ Handler.close (.upstream layer)
      flushBuffered layer
      serveConn layer rt
  else
    writeErrorResponse (str "3D000") (env.render (errorf "database %q not configured" [.text dbname]))

/-- `ReadUint32` from the client's reader. -/
def readUint32 : HandlerM UInt32 := do
  let word ← Handler.readFull 4
  pure (uint32BE word)

/-- The attempts of `dispatch` that are left. -/
def dispatchLoop (env : Env) : ℕ → HandlerM Unit
  | 0 => .lift (fail (errorf "client did not send StartupMessage after preamble" []))
  | attempts + 1 => do
    let msgLen ← onError (wrapf "read length: %w" []) readUint32
    .lift (refuse (msgLen.toNat < 8 ∨ Postgres.maxStartupLen < msgLen.toNat)
      (errorf "startup length out of range: %d" [.number msgLen.toNat]))
    let code ← onError (wrapf "read code: %w" []) readUint32
    if code = Postgres.sslRequestCode ∨ code = Postgres.gssencRequestCode then do
      onError (wrapf "write SSL/GSS rejection: %w" []) (Handler.write .client [ascii 'N'])
      dispatchLoop env attempts
    else if code = Postgres.cancelRequestCode then do
      let _ ← onError (fun _ ↦ eof) (Handler.readFull (msgLen.toNat - 8))
      pure ()
    else if code = Postgres.protocolV3 then handleStartup env msgLen.toNat
    else .lift (fail (errorf "unsupported pg protocol code 0x%08x" [.number code.toNat]))

/-- `dispatch`. -/
def dispatch (env : Env) : HandlerM Unit := dispatchLoop env 2

/-! ## MySQL -/

def mysqlServerVersion : Bytes := str "8.0.0-dbpivot"

def erAccessDenied : UInt16 := 1045

def erBadDBError : UInt16 := 1049

def erUnknownError : UInt16 := 1105

def serverStatusAutocommit : UInt16 := 0x0002

/-- The capabilities the proxy advertises to clients. -/
def mysqlProxyClientCaps : UInt32 :=
  Mysql.clientLongPassword ||| Mysql.clientLongFlag ||| Mysql.clientProtocol41 |||
    Mysql.clientTransactions ||| Mysql.clientSecureConnection ||| Mysql.clientPluginAuth |||
    Mysql.clientPluginAuthLenencClientData ||| Mysql.clientConnectWithDB ||| Mysql.clientDeprecateEOF

/-- `newMySQLSalt`. -/
def newMySQLSalt : HandlerM Bytes := do
  let salt ← onError (wrapf "generate salt: %w" []) (Handler.rand 20)
  pure (salt.map fun b ↦ if b = 0 then 1 else b)

/-- `ClientLogin`. -/
structure ClientLogin where
  response : HandshakeResponse41
  caps : UInt32
  nextSeq : UInt8

/-- The greeting of `GreetClientMySQL`. -/
def mysqlGreeting (serverVersion : Bytes) (connectionID : UInt32) (salt : Bytes) : Bytes :=
  Mysql.encodeHandshakeV10 serverVersion connectionID mysqlProxyClientCaps
    Mysql.defaultCharsetUTF8MB4 serverStatusAutocommit Mysql.mySQLNativePassword salt

/-- `GreetClientMySQL`. -/
def greetClientMySQL (serverVersion : Bytes) (connectionID : UInt32) : HandlerM ClientLogin := do
  let salt ← newMySQLSalt
  onError (wrapf "write handshake: %w" [])
    (Handler.writePacket .client 0 (mysqlGreeting serverVersion connectionID salt))
  let (seq, payload) ← onError (wrapf "read handshake response: %w" []) (Handler.readPacket .client)
  let resp ← .lift (Mysql.parseHandshakeResponse41 payload)
  pure { response := resp, caps := resp.capabilities &&& mysqlProxyClientCaps, nextSeq := seq + 1 }

/-- `writeMySQLErr` to the client, with its error ignored. -/
def writeMySQLErr (seq : UInt8) (code : UInt16) (sqlState msg : Bytes) : HandlerM Unit :=
  ignoring (Handler.writePacket .client seq (Mysql.encodeERRPacket code sqlState msg))

/-- The database a client asks for: the one it names, or else its user. -/
def loginDatabase (response : HandshakeResponse41) : Bytes :=
  if response.database = [] then response.username else response.database

/-- The TLS configuration of a MySQL login, given by its server name. -/
def mysqlTLSConfig (rt : ResolvedTarget) : Option Bytes :=
  if rt.sslMode = sslModeRequire then some rt.host else none

/-- The login of `dispatchMySQL`. -/
def loginMySQL (env : Env) (rt : ResolvedTarget) (login : ClientLogin) :
    HandlerM (Layer × UInt32) := do
  orElse (Handler.dial rt.host rt.port) fun err ↦
    writeMySQLErr login.nextSeq erUnknownError (str "HY000")
      (env.render (wrapf "upstream dial failed: %v" [] err))
  let upDatabase := if rt.database = [] then login.response.database else rt.database
  orElse (Handler.authenticateMySQL .plain rt.user rt.password upDatabase (mysqlTLSConfig rt))
    fun err ↦ do
      writeMySQLErr login.nextSeq erAccessDenied (str "28000")
        (env.render (wrapf "upstream auth failed: %v" [] err))
      Handler.close (.upstream .plain)

/-- The end of `dispatchMySQL`: the legs must agree on the framing of result sets. -/
def concludeMySQL (rt : ResolvedTarget) (login : ClientLogin) (layer : Layer) (upCaps : UInt32) :
    HandlerM Unit :=
  if login.caps &&& Mysql.clientDeprecateEOF ≠ upCaps &&& Mysql.clientDeprecateEOF then do
    writeMySQLErr login.nextSeq erUnknownError (str "HY000")
      (str "proxy/upstream capability mismatch (CLIENT_DEPRECATE_EOF)")
    Handler.close (.upstream layer)
    .lift (fail (errorf "mysql capability mismatch: client=0x%08x upstream=0x%08x"
      [.number login.caps.toNat, .number upCaps.toNat]))
  else do
    orElse (onError (wrapf "write OK to client: %w" [])
        (Handler.writePacket .client login.nextSeq
          (Mysql.encodeOKPacket 0 0 serverStatusAutocommit 0)))
      fun _ ↦ Handler.close (.upstream layer)
    serveConn layer rt

/-- `dispatchMySQL`. -/
def dispatchMySQL (env : Env) : HandlerM Unit := do
  let connID ← Handler.connSeq
  let login ← onError (wrapf "mysql client handshake: %w" [])
    (greetClientMySQL mysqlServerVersion connID)
  let dbname := loginDatabase login.response
  let found ← Handler.lookupDatabase adapterMySQL dbname
  if found then do
    let target ← Handler.current adapterMySQL dbname
    match target with
    | none =>
      writeMySQLErr login.nextSeq erUnknownError (str "HY000")
        (env.render (errorf "database %q has no active target" [.text dbname]))
    | some rt => do
      let (layer, upCaps) ← loginMySQL env rt login
      concludeMySQL rt login layer upCaps
  else
    writeMySQLErr login.nextSeq erBadDBError (str "42000")
      (env.render (errorf "Unknown database '%s'" [.text dbname]))

/-! ## MongoDB -/

/-- An error reply of `routeMongo`, with its error ignored. -/
def writeMongoError (env : Env) (hdr : MsgHeader) (message : GoError) (code : Int32) :
    HandlerM Unit :=
  ignoring (Handler.writeMongoReply .client hdr.opCode hdr.requestID
    (Mongo.mongoErrorReply (env.render message) code))

/-- The login of `routeMongo`. -/
def loginMongo (env : Env) (rt : ResolvedTarget) (hdr : MsgHeader) : HandlerM Unit := do
  orElse (Handler.dial rt.host rt.port) fun err ↦
    writeMongoError env hdr (wrapf "upstream dial failed: %v" [] err) Mongo.mongoErrHostUnreachable
  orElse (Handler.authenticateMongo .plain rt.user rt.password rt.authSource) fun err ↦ do
    writeMongoError env hdr (wrapf "upstream auth failed: %v" [] err) Mongo.mongoErrHostUnreachable
    Handler.close (.upstream .plain)

/-- `routeMongo`. -/
def routeMongo (env : Env) (db : Bytes) (hdr : MsgHeader) (body : Bytes) : HandlerM Unit := do
  let target ← Handler.current adapterMongo db
  match target with
  | none =>
    writeMongoError env hdr (errorf "database %q has no active target" [.text db])
      Mongo.mongoErrInternalError
  | some rt => do
    loginMongo env rt hdr
    orElse (onError (wrapf "mongo forward first command: %w" [])
        (Handler.writeMongoMessage (.upstream .plain) hdr body))
      fun _ ↦ Handler.close (.upstream .plain)
    serveConn .plain rt

/-- The loop of `dispatchMongo`. -/
def dispatchMongoLoop (env : Env) (peer : Peer) : ℕ → HandlerM Unit
  | 0 => .lift (.error .outOfFuel)
  | fuel + 1 => do
    let (hdr, body) ← onError (wrapf "mongo read command: %w" []) (Handler.readMongoMessage .client)
    let cmd ← .lift (Mongo.decodeMongoCommand hdr body)
    let found ← Handler.lookupDatabase adapterMongo cmd.db
    if found then routeMongo env cmd.db hdr body
    else do
      let time ← Handler.now
      let (context, reply) := Mongo.localReply env peer time cmd
      onError (wrapf context []) (Handler.writeMongoReply .client hdr.opCode hdr.requestID reply)
      dispatchMongoLoop env peer fuel

/-- `dispatchMongo`. -/
def dispatchMongo (env : Env) (remoteAddr : Bytes) (fuel : ℕ) : HandlerM Unit := do
  let connID ← Handler.connSeq
  dispatchMongoLoop env ⟨connID.toInt32, remoteAddr⟩ fuel

/-! ## Any client -/

/-- The handler of an adapter. -/
def dispatchAdapter (env : Env) (remoteAddr : Bytes) (fuel : ℕ) (adapter : Bytes) : HandlerM Unit :=
  if adapter = adapterMySQL then dispatchMySQL env
  else if adapter = adapterMongo then dispatchMongo env remoteAddr fuel
  else dispatch env

/-- `handleConn`. The error of the handler is logged. -/
def handleConn (env : Env) (remoteAddr : Bytes) (fuel : ℕ) (adapter : Bytes) : HandlerM Unit :=
  ignoring (deferring (Handler.close .client) (dispatchAdapter env remoteAddr fuel adapter))

end DbPivot.Proxy
