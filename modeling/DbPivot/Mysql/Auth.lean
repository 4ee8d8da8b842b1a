import DbPivot.Go.Tls
import DbPivot.Mysql.Packet
import DbPivot.Mysql.Wire
import DbPivot.System.Program

/-!
# Logging in to the upstream

The server drives the login: after the first response it may switch the plugin any number of times,
each time with a new nonce, and a server with `caching_sha2_password` may ask for the password
itself. The login is a program that reads and writes packets on a connection value it holds; the
value changes when the link is upgraded to TLS.

The hashes, the decoding of a public key and RSA encryption are parameters. Encryption takes its
randomness from the world.
-/

namespace DbPivot.Mysql

open DbPivot.Go DbPivot.System

/-! ## Scrambles -/

/-- The cryptography a login uses. -/
structure Crypto (Key : Type) where
  sha1 : Bytes → Bytes
  sha256 : Bytes → Bytes
  length_sha1 : ∀ data, (sha1 data).length = 20
  length_sha256 : ∀ data, (sha256 data).length = 32
  pemDecode : Bytes → Option Bytes
  parsePKIXPublicKey : Bytes → Except GoError (Option Key)
  encryptOAEP : Bytes → Key → Bytes → Except GoError Bytes

-- The lengths of the digests that are zero whatever the data.
theorem length_zeroSHA1 (_data : Bytes) : (List.replicate 20 (0 : UInt8)).length = 20 :=
  List.length_replicate

theorem length_zeroSHA256 (_data : Bytes) : (List.replicate 32 (0 : UInt8)).length = 32 :=
  List.length_replicate

/-- The exclusive or of two strings of one length. -/
def xorBytes (a b : Bytes) : Bytes := List.zipWith (· ^^^ ·) a b

variable {Key : Type}

/-- `ScrambleNativePassword`. -/
def scrambleNativePassword (crypto : Crypto Key) (password salt : Bytes) : Bytes :=
  if password = [] then []
  else
    let salt := if 20 < salt.length then salt.take 20 else salt
    let h1 := crypto.sha1 password
    let h2 := crypto.sha1 h1
    let h3 := crypto.sha1 (salt ++ h2)
    xorBytes h1 h3

/-- `ScrambleCachingSHA2Password`. -/
def scrambleCachingSHA2Password (crypto : Crypto Key) (password salt : Bytes) : Bytes :=
  if password = [] then []
  else
    let salt := if 20 < salt.length then salt.take 20 else salt
    let h1 := crypto.sha256 password
    let h2 := crypto.sha256 h1
    let h3 := crypto.sha256 (h2 ++ salt)
    xorBytes h1 h3

/-- The exclusive or of a string with a repeated nonce. -/
def maskWith (salt plain : Bytes) : Bytes :=
  plain.mapIdx fun i byte ↦ byte ^^^ salt.getD (i % salt.length) 0

/-- `encryptCachingSHA2Password` with the randomness it draws. -/
def encryptCachingSHA2Password (crypto : Crypto Key) (seed password salt : Bytes) (pub : Key) :
    GoM GoError Bytes :=
  if salt.length = 0 then fail (errorf "caching_sha2 RSA: empty nonce" [])
  else
    match crypto.encryptOAEP seed pub (maskWith salt (password ++ [0])) with
    | .ok enc => .ok enc
    | .error error => fail error

/-- `parseRSAPublicKey`. -/
def parseRSAPublicKey (crypto : Crypto Key) (pemData : Bytes) : GoM GoError Key :=
  match crypto.pemDecode (trimNuls pemData) with
  | none => fail (errorf "caching_sha2 RSA: invalid PEM public key" [])
  | some block =>
    match crypto.parsePKIXPublicKey block with
    | .error error => fail (wrapf "caching_sha2 RSA: parse public key: %w" [] error)
    | .ok none => fail (errorf "caching_sha2 RSA: not an RSA public key" [])
    | .ok (some key) => .ok key

/-- `mysqlAuthResponse`. -/
def mysqlAuthResponse (crypto : Crypto Key) (plugin password salt : Bytes) : GoM GoError Bytes :=
  if plugin = mySQLNativePassword ∨ plugin = [] then
    .ok (scrambleNativePassword crypto password salt)
  else if plugin = cachingSHA2Password then .ok (scrambleCachingSHA2Password crypto password salt)
  else fail (errorf "unsupported auth plugin %q" [.text plugin])

/-! ## Capabilities -/

/-- `mysqlUpstreamCaps`. -/
def mysqlUpstreamCaps (serverCaps : UInt32) (withDB : Bool) : UInt32 :=
  let desired := clientLongPassword ||| clientLongFlag ||| clientProtocol41 ||| clientTransactions |||
    clientSecureConnection ||| clientPluginAuth ||| clientPluginAuthLenencClientData |||
    clientDeprecateEOF
  let caps := desired &&& serverCaps
  let caps := caps ||| (clientProtocol41 ||| clientSecureConnection ||| clientPluginAuth)
  if withDB then caps ||| clientConnectWithDB else caps

/-! ## The calls of a login -/

inductive LoginCall where
  | readPacket (conn : Layer)
  | writePacket (conn : Layer) (seq : UInt8) (payload : Bytes)
  | handshake (serverName : Bytes)
  | entropy

/-- What a login needs from its surroundings. -/
def loginInterface : Interface where
  Call := LoginCall
  Reply
    | .readPacket _ => GoM GoError (UInt8 × Bytes)
    | .writePacket _ _ _ => GoM GoError Unit
    | .handshake _ => GoM GoError Unit
    | .entropy => Bytes

abbrev LoginM := Program loginInterface (Fault GoError)

namespace Login

/-- `ReadPacket` on the connection, with `fmt.Errorf` around its error. -/
def readPacket (conn : Layer) (context : String) : LoginM (UInt8 × Bytes) :=
  .call (.readPacket conn) fun (reply : GoM GoError (UInt8 × Bytes)) ↦
    .done (mapErr (wrapf context []) reply)

/-- `WritePacket` on the connection, with the next sequence id as its value. -/
def writePacket (conn : Layer) (seq : UInt8) (payload : Bytes) (change : GoError → GoError) :
    LoginM UInt8 :=
  .call (.writePacket conn seq payload) fun (reply : GoM GoError Unit) ↦
    .done (mapErr change (reply.map fun _ ↦ nextSeq seq payload))

def handshake (serverName : Bytes) : LoginM Unit :=
  .call (.handshake serverName) fun (reply : GoM GoError Unit) ↦
    .done (mapErr (wrapf "upstream TLS handshake: %w" []) reply)

def entropy : LoginM Bytes := .call .entropy fun (seed : Bytes) ↦ .done (.ok seed)

end Login

/-! ## The login -/

def authMoreDataHeader : UInt8 := 0x01

def authSwitchRequestEOF : UInt8 := 0xFE

def cachingSHA2FastSuccess : UInt8 := 0x03

def cachingSHA2FullAuth : UInt8 := 0x04

def cachingSHA2RequestKey : UInt8 := 0x02

/-- `firstByte`. -/
def firstByte (b : Bytes) : UInt8 := b.headD 0

/-- `mysqlCachingSHA2RSA`: the next sequence id. -/
def mysqlCachingSHA2RSA (crypto : Crypto Key) (conn : Layer) (seq : UInt8) (password salt : Bytes) :
    LoginM UInt8 := do
  let _ ← Login.writePacket conn seq [cachingSHA2RequestKey] (wrapf "request public key: %w" [])
  let (rseq, payload) ← Login.readPacket conn "read public key: %w"
  let seq := rseq + 1
  .lift (refuse (payload.head? ≠ some authMoreDataHeader)
    (errorf "expected public key AuthMoreData, got 0x%02x" [.number (firstByte payload).toNat]))
  let pub ← .lift (parseRSAPublicKey crypto payload.tail)
  let seed ← Login.entropy
  let enc ← .lift (encryptCachingSHA2Password crypto seed password salt pub)
  Login.writePacket conn seq enc (wrapf "write encrypted password: %w" [])

/-- `mysqlCachingSHA2More`: the next sequence id. -/
def mysqlCachingSHA2More (crypto : Crypto Key) (conn : Layer) (seq : UInt8)
    (payload password salt : Bytes) (secure : Bool) : LoginM UInt8 :=
  match payload with
  | _ :: marker :: _ =>
    if marker = cachingSHA2FastSuccess then pure seq
    else if marker = cachingSHA2FullAuth then
      if password = [] then Login.writePacket conn seq [0] id
      else if secure then Login.writePacket conn seq (password ++ [0]) id
      else mysqlCachingSHA2RSA crypto conn seq password salt
    else .lift (fail (errorf "unexpected caching_sha2 marker 0x%02x" [.number marker.toNat]))
  | _ => .lift (fail (errorf "short caching_sha2 AuthMoreData" []))

/-- `mysqlFinishAuth`. The sequence id it is given is overwritten by the first read. -/
def mysqlFinishAuth (crypto : Crypto Key) (conn : Layer) (password : Bytes) (secure : Bool) :
    ℕ → UInt8 → Bytes → Bytes → LoginM Unit
  | 0, _, _, _ => .lift (.error .outOfFuel)
  | fuel + 1, _, plugin, salt => do
    let (rseq, payload) ← Login.readPacket conn "read auth result: %w"
    let seq := rseq + 1
    match payload with
    | [] => .lift (fail (errorf "empty auth packet" []))
    | header :: _ =>
      if header = okPacketHeader then pure ()
      else if header = errPacketHeader then
        .lift (fail (errorf "upstream auth failed: %s" [.text (parseERRPacket payload)]))
      else if header = authSwitchRequestEOF then do
        let (newPlugin, np) ←
          .lift (mapErr (wrapf "auth switch: %w" []) (readNulString payload 1))
        let newSalt := trimNuls (payload.drop np)
        let authResp ← .lift (mysqlAuthResponse crypto newPlugin password newSalt)
        let seq ← Login.writePacket conn seq authResp (wrapf "write auth switch response: %w" [])
        mysqlFinishAuth crypto conn password secure fuel seq newPlugin newSalt
      else if header = authMoreDataHeader then do
        .lift (refuse (plugin ≠ cachingSHA2Password)
          (errorf "unexpected AuthMoreData for plugin %q" [.text plugin]))
        let seq ← mysqlCachingSHA2More crypto conn seq payload password salt secure
        mysqlFinishAuth crypto conn password secure fuel seq plugin salt
      else .lift (fail (errorf "unexpected auth packet header 0x%02x" [.number header.toNat]))

/-- The in-band upgrade of `AuthenticateUpstreamMySQL`: the connection to go on with, its
capabilities, the next sequence id, and whether the link is encrypted. -/
def upgrade (conn : Layer) (hs : HandshakeV10) (caps : UInt32) (seq : UInt8) (secure : Bool) :
    Option Bytes → LoginM (Layer × UInt32 × UInt8 × Bool)
  | none => pure (conn, caps, seq + 1, secure)
  | some serverName => do
    .lift (refuse (hs.capabilities &&& clientSSL = 0)
      (errorf "upstream does not support TLS but sslmode=require" []))
    let caps := caps ||| clientSSL
    let seq ← Login.writePacket conn (seq + 1) (encodeSSLRequest caps defaultCharsetUTF8MB4)
      (wrapf "write SSLRequest: %w" [])
    Login.handshake serverName
    pure (.tls, caps, seq, true)

/-- `AuthenticateUpstreamMySQL`. The TLS configuration is the server name it holds. -/
def authenticateUpstreamMySQL (crypto : Crypto Key) (fuel : ℕ) (conn : Layer)
    (user password database : Bytes) (secure : Bool) (tlsConfig : Option Bytes) :
    LoginM (Layer × HandshakeV10 × UInt32) := do
  let (seq, payload) ← Login.readPacket conn "read handshake: %w"
  .lift (refuse (isErrPacket payload)
    (errorf "upstream rejected connection: %s" [.text (parseERRPacket payload)]))
  let hs ← .lift (parseHandshakeV10 payload)
  let plugin := if hs.authPluginName = [] then mySQLNativePassword else hs.authPluginName
  let caps := mysqlUpstreamCaps hs.capabilities (database ≠ [])
  let (conn, caps, seq, secure) ← upgrade conn hs caps seq secure tlsConfig
  let authResp ← .lift (mysqlAuthResponse crypto plugin password hs.authPluginData)
  let resp := encodeHandshakeResponse41 caps defaultCharsetUTF8MB4 user authResp database plugin
  let seq ← Login.writePacket conn seq resp (wrapf "write handshake response: %w" [])
  mysqlFinishAuth crypto conn password secure fuel seq plugin hs.authPluginData
  pure (conn, hs, caps)

/-! ## The login on a connection -/

/-- A dialled connection and the random numbers to come. -/
structure Upstream where
  link : Link
  seeds : List Bytes

/-- The calls of a login on a dialled connection. -/
def Upstream.handler : Handler loginInterface Upstream
  | .readPacket conn, u => ((u.link.on conn readPacket).1, { u with link := (u.link.on conn readPacket).2 })
  | .writePacket conn seq payload, u =>
    ((u.link.on conn (writePacket seq payload)).1.map fun _ ↦ (),
      { u with link := (u.link.on conn (writePacket seq payload)).2 })
  | .handshake _, u => (u.link.startTLS.1, { u with link := u.link.startTLS.2 })
  | .entropy, u => (u.seeds.headD [], { u with seeds := u.seeds.tail })

end DbPivot.Mysql
