import DbPivot.Mysql.Greeting
import DbPivot.Mysql.Response

/-!
# Logging in to an honest server

A server that knows the password of an account follows the protocol: it greets with a plugin and a
nonce, switches to another plugin and nonce as often as it likes, checks every response against the
nonce it sent last, and under `caching_sha2_password` may ask for the password itself, in the clear
over TLS and under its public key otherwise. It counts the packets of the link, and it gives up on
the first thing it does not expect.

The server is a machine of its own that reacts to what it is sent. Against every such server the
login ends with success, so every check the server makes is passed.
-/

namespace DbPivot.Mysql

open DbPivot.Go DbPivot.System

/-! ## The server -/

inductive Plugin where
  | native
  | cachingSHA2

def Plugin.name : Plugin → Bytes
  | .native => mySQLNativePassword
  | .cachingSHA2 => cachingSHA2Password

/-- A nonce as servers draw it. -/
structure Nonce where
  bytes : Bytes
  length_eq : bytes.length = 20
  zero_notMem : 0 ∉ bytes

/-- How the link is encrypted: not at all, by an upgrade during the login, or before it. -/
inductive Setup where
  | plaintext
  | upgrade (serverName : Bytes)
  | encrypted

def Setup.conn : Setup → Layer
  | .encrypted => .tls
  | _ => .plain

def Setup.tlsConfig : Setup → Option Bytes
  | .upgrade serverName => some serverName
  | _ => none

/-- The account and the key of a server, and how it leads a client through a login. -/
structure Server (Key : Type) where
  crypto : Crypto Key
  user : Bytes
  zero_notMem_user : 0 ∉ user
  password : Bytes
  password_ne_nil : password ≠ []
  key : Key
  pem : Bytes
  parse_pem : parseRSAPublicKey crypto pem = .ok key
  decrypt : Bytes → Option Bytes
  decrypt_encrypt : ∀ seed plain, ∃ enc,
    crypto.encryptOAEP seed key plain = .ok enc ∧ decrypt enc = some plain
  serverVersion : Bytes
  zero_notMem_serverVersion : 0 ∉ serverVersion
  connectionID : UInt32
  capabilities : UInt32
  protocol41 : capabilities &&& clientProtocol41 ≠ 0
  secureConnection : capabilities &&& clientSecureConnection ≠ 0
  pluginAuth : capabilities &&& clientPluginAuth ≠ 0
  charset : UInt8
  statusFlags : UInt16
  reserved : Bytes
  length_reserved : reserved.length = 10
  setup : Setup
  ssl : setup.tlsConfig.isSome → capabilities &&& clientSSL ≠ 0
  plugin : Plugin
  nonce : Nonce
  switches : List (Plugin × Nonce)
  fullAuth : Bool
  okTail : Bytes

namespace Server

variable {Key : Type} (server : Server Key)

/-- The check of a response against a nonce, with the digest a server stores. -/
def verify (plugin : Plugin) (nonce : Nonce) (response : Bytes) : Bool :=
  match plugin with
  | .native =>
    let stored := server.crypto.sha1 (server.crypto.sha1 server.password)
    let candidate := xorBytes response (server.crypto.sha1 (nonce.bytes ++ stored))
    response.length = 20 ∧ server.crypto.sha1 candidate = stored
  | .cachingSHA2 =>
    let stored := server.crypto.sha256 (server.crypto.sha256 server.password)
    let candidate := xorBytes response (server.crypto.sha256 (stored ++ nonce.bytes))
    response.length = 32 ∧ server.crypto.sha256 candidate = stored

/-- The user and the authentication response of a login packet, for a client with the 4.1 protocol,
secure connections and plugins. -/
def readLogin (payload : Bytes) : Option (Bytes × Bytes) :=
  let caps := uint32LE (payload.take 4)
  let body := payload.drop 32
  if caps &&& clientProtocol41 = 0 ∨ caps &&& clientSecureConnection = 0 ∨
      caps &&& clientPluginAuth = 0 then none
  else
    match indexByte body 0 with
    | none => none
    | some n =>
      match body.drop (n + 1) with
      | [] => none
      | size :: rest =>
        if size.toNat < 251 ∧ size.toNat ≤ rest.length then
          some (body.take n, rest.take size.toNat)
        else none

inductive Phase where
  | greeting
  | sslRequest
  | handshake
  | response
  | sendSwitch (plugin : Plugin) (nonce : Nonce) (rest : List (Plugin × Nonce))
  | switchResponse (plugin : Plugin) (nonce : Nonce) (rest : List (Plugin × Nonce))
  | sendFast
  | sendFull (nonce : Nonce)
  | password (nonce : Nonce)
  | sendKey (nonce : Nonce)
  | ciphertext (nonce : Nonce)
  | sendOk
  | accepted
  | rejected

/-- What the server does after a response that passed its check. -/
def afterResponse (plugin : Plugin) (nonce : Nonce) : List (Plugin × Nonce) → Phase
  | (plugin', nonce') :: rest => .sendSwitch plugin' nonce' rest
  | [] =>
    match plugin with
    | .native => .sendOk
    | .cachingSHA2 => if server.fullAuth then .sendFull nonce else .sendFast

/-- The greeting behind the version of the server. -/
def greetingTail : Bytes :=
  le32 server.connectionID ++ (server.nonce.bytes.take 8 ++ (0 : UInt8) ::
    (le16 server.capabilities.toUInt16 ++ server.charset :: (le16 server.statusFlags ++
      (le16 (server.capabilities >>> 16).toUInt16 ++ 21 :: (server.reserved ++
        ((server.nonce.bytes.drop 8 ++ [0]) ++ (server.plugin.name ++ [0])))))))

/-- The greeting: a protocol version 10 handshake. -/
def greeting : Bytes := protocolVersion10 :: (server.serverVersion ++ 0 :: server.greetingTail)

/-- The packet the server sends in a phase, and the phase after it. -/
def send : Phase → Option (Bytes × Phase)
  | .greeting => some (server.greeting,
      if server.setup.tlsConfig.isSome then .sslRequest else .response)
  | .sendSwitch plugin nonce rest =>
    some (authSwitchRequestEOF :: (plugin.name ++ 0 :: (nonce.bytes ++ [0])),
      .switchResponse plugin nonce rest)
  | .sendFast => some ([authMoreDataHeader, cachingSHA2FastSuccess], .sendOk)
  | .sendFull nonce => some ([authMoreDataHeader, cachingSHA2FullAuth], .password nonce)
  | .sendKey nonce => some (authMoreDataHeader :: server.pem, .ciphertext nonce)
  | .sendOk => some (okPacketHeader :: server.okTail, .accepted)
  | .rejected => some ([errPacketHeader], .rejected)
  | _ => none

/-- The phase after a packet from the client on a connection. -/
def receive (conn : Layer) (payload : Bytes) : Phase → Phase
  | .sslRequest =>
    if payload.length = 32 ∧ uint32LE (payload.take 4) &&& clientSSL ≠ 0 then .handshake
    else .rejected
  | .response =>
    match readLogin payload with
    | some (user, response) =>
      if user = server.user ∧ server.verify server.plugin server.nonce response then
        server.afterResponse server.plugin server.nonce server.switches
      else .rejected
    | none => .rejected
  | .switchResponse plugin nonce rest =>
    if server.verify plugin nonce payload then server.afterResponse plugin nonce rest else .rejected
  | .password nonce =>
    match conn with
    | .tls => if payload = server.password ++ [0] then .sendOk else .rejected
    | .plain => if payload = [cachingSHA2RequestKey] then .sendKey nonce else .rejected
  | .ciphertext nonce =>
    match server.decrypt payload with
    | some plain => if maskWith nonce.bytes plain = server.password ++ [0] then .sendOk else .rejected
    | none => .rejected
  | _ => .rejected

/-- A login in progress, as the server sees it. -/
structure Session where
  phase : Phase
  seq : UInt8
  conn : Layer
  seeds : List Bytes

/-- The server at the other end of a login. -/
def handler : Handler loginInterface Session
  | .readPacket conn, s =>
    match server.send s.phase with
    | some (payload, phase) =>
      if conn = s.conn then
        (.ok (lastSeq s.seq payload, payload), { s with phase, seq := nextSeq s.seq payload })
      else (fail eof, s)
    | none => (fail eof, s)
  | .writePacket conn seq payload, s =>
    (.ok (), { s with
      phase := if conn = s.conn ∧ seq = s.seq then server.receive conn payload s.phase else .rejected
      seq := nextSeq seq payload })
  | .handshake _, s =>
    match s.phase with
    | .handshake => (.ok (), { s with phase := .response, conn := .tls })
    | _ => (fail eof, s)
  | .entropy, s => (s.seeds.headD [], { s with seeds := s.seeds.tail })

/-- A link before its first packet. -/
def start (seq : UInt8) (seeds : List Bytes) : Session := ⟨.greeting, seq, server.setup.conn, seeds⟩

end Server

/-! ## The checks pass -/

theorem xorBytes_cancel {a b : Bytes} (h : a.length = b.length) : xorBytes (xorBytes a b) b = a := by
  induction a generalizing b with
  | nil => rfl
  | cons byte a ih =>
    match b with
    | other :: b =>
      have hbyte : byte ^^^ other ^^^ other = byte := by
        rw [UInt8.xor_assoc, UInt8.xor_self, UInt8.xor_zero]
      change (byte ^^^ other ^^^ other) :: xorBytes (xorBytes a b) b = byte :: a
      rw [hbyte, ih (Nat.succ.inj h)]

theorem maskWith_maskWith (salt plain : Bytes) : maskWith salt (maskWith salt plain) = plain := by
  rw [maskWith, maskWith, List.mapIdx_mapIdx]
  have hbyte : (fun i byte ↦ (byte ^^^ salt.getD (i % salt.length) 0) ^^^
      salt.getD (i % salt.length) 0) = fun (_ : ℕ) (byte : UInt8) ↦ byte := by
    funext i byte
    rw [UInt8.xor_assoc, UInt8.xor_self, UInt8.xor_zero]
  change plain.mapIdx (fun i byte ↦ (byte ^^^ salt.getD (i % salt.length) 0) ^^^
      salt.getD (i % salt.length) 0) = plain
  rw [hbyte, List.mapIdx_eq_iff]
  intro i
  cases plain[i]? <;> rfl

variable {Key : Type} {server : Server Key}

/-- The response of the login for a plugin and a nonce. -/
def response (server : Server Key) (plugin : Plugin) (nonce : Nonce) : Bytes :=
  match plugin with
  | .native => scrambleNativePassword server.crypto server.password nonce.bytes
  | .cachingSHA2 => scrambleCachingSHA2Password server.crypto server.password nonce.bytes

theorem mysqlAuthResponse_name (plugin : Plugin) (nonce : Nonce) :
    mysqlAuthResponse server.crypto plugin.name server.password nonce.bytes =
      .ok (response server plugin nonce) := by
  cases plugin with
  | native => rfl
  | cachingSHA2 => rfl

theorem scrambleNativePassword_nonce (nonce : Nonce) :
    scrambleNativePassword server.crypto server.password nonce.bytes =
      xorBytes (server.crypto.sha1 server.password) (server.crypto.sha1
        (nonce.bytes ++ server.crypto.sha1 (server.crypto.sha1 server.password))) := by
  have hlength : ¬ 20 < nonce.bytes.length := by
    rw [nonce.length_eq]
    exact lt_irrefl 20
  simp only [scrambleNativePassword, server.password_ne_nil, if_false, hlength]

theorem scrambleCachingSHA2Password_nonce (nonce : Nonce) :
    scrambleCachingSHA2Password server.crypto server.password nonce.bytes =
      xorBytes (server.crypto.sha256 server.password) (server.crypto.sha256
        (server.crypto.sha256 (server.crypto.sha256 server.password) ++ nonce.bytes)) := by
  have hlength : ¬ 20 < nonce.bytes.length := by
    rw [nonce.length_eq]
    exact lt_irrefl 20
  simp only [scrambleCachingSHA2Password, server.password_ne_nil, if_false, hlength]

/-- The server accepts the response of the login. -/
theorem verify_response (plugin : Plugin) (nonce : Nonce) :
    server.verify plugin nonce (response server plugin nonce) = true := by
  cases plugin with
  | native =>
    have hlength (a b : Bytes) : (server.crypto.sha1 a).length = (server.crypto.sha1 b).length := by
      rw [server.crypto.length_sha1, server.crypto.length_sha1]
    simp only [Server.verify, response, scrambleNativePassword_nonce, xorBytes_cancel (hlength _ _),
      length_xorBytes (hlength _ _), server.crypto.length_sha1, true_and, decide_true]
  | cachingSHA2 =>
    have hlength (a b : Bytes) :
        (server.crypto.sha256 a).length = (server.crypto.sha256 b).length := by
      rw [server.crypto.length_sha256, server.crypto.length_sha256]
    simp only [Server.verify, response, scrambleCachingSHA2Password_nonce,
      xorBytes_cancel (hlength _ _), length_xorBytes (hlength _ _), server.crypto.length_sha256,
      true_and, decide_true]

theorem length_response (plugin : Plugin) (nonce : Nonce) :
    (response server plugin nonce).length < 251 := by
  cases plugin with
  | native =>
    rw [response, scrambleNativePassword_nonce, length_xorBytes, server.crypto.length_sha1]
    · decide
    · rw [server.crypto.length_sha1, server.crypto.length_sha1]
  | cachingSHA2 =>
    rw [response, scrambleCachingSHA2Password_nonce, length_xorBytes, server.crypto.length_sha256]
    · decide
    · rw [server.crypto.length_sha256, server.crypto.length_sha256]

/-! ## The greeting is understood -/

theorem zero_notMem_name (plugin : Plugin) : 0 ∉ plugin.name := by
  cases plugin <;> decide

/-- What the login takes from the greeting. -/
def handshakeOf (server : Server Key) : HandshakeV10 where
  protocolVersion := protocolVersion10
  serverVersion := server.serverVersion
  connectionID := server.connectionID
  authPluginData := server.nonce.bytes
  capabilities := server.capabilities
  characterSet := server.charset
  statusFlags := server.statusFlags
  authPluginName := server.plugin.name

/-- The greeting has all its fields. -/
def layoutOf (server : Server Key) : Layout where
  serverVersion := server.serverVersion
  zero_notMem_serverVersion := server.zero_notMem_serverVersion
  connectionID := server.connectionID
  part1 := server.nonce.bytes.take 8
  length_part1 := by rw [List.length_take, server.nonce.length_eq]; rfl
  capabilities := server.capabilities
  charset := server.charset
  statusFlags := server.statusFlags
  authDataLen := 21
  reserved := server.reserved
  length_reserved := server.length_reserved
  rest := (server.nonce.bytes.drop 8 ++ [0]) ++ (server.plugin.name ++ [0])

theorem parseHandshakeV10_greeting :
    parseHandshakeV10 server.greeting = .ok (handshakeOf server) := by
  have hpart2 : (server.nonce.bytes.drop 8).length = 12 := by
    rw [List.length_drop, server.nonce.length_eq]
  have htrim : trimNuls (server.nonce.bytes.drop 8) = server.nonce.bytes.drop 8 :=
    trimNuls_of_notMem fun hmem ↦ server.nonce.zero_notMem (List.mem_of_mem_drop hmem)
  have hrest := (layoutOf server).at_rest
  have hname := hrest.advance
  rw [List.length_append, hpart2] at hname
  have hwhole : server.nonce.bytes.take 8 ++ server.nonce.bytes.drop 8 = server.nonce.bytes :=
    List.take_append_drop 8 _
  change parseHandshakeV10 (layoutOf server).bytes = _
  have hplugin : authPluginName (layoutOf server).bytes ((layoutOf server).restPos + 13)
      (layoutOf server).capabilities = server.plugin.name :=
    authPluginName_of_at server.pluginAuth (zero_notMem_name server.plugin) hname
  rw [(layoutOf server).parseHandshakeV10_bytes
    (authDataPart2_of_at server.secureConnection le_rfl hpart2 htrim hrest), hplugin]
  simp only [Layout.handshake, layoutOf, hwhole, handshakeOf]

/-! ## The login packet is understood -/

theorem take_loginHeader (caps : UInt32) (charset : UInt8) (rest : Bytes) :
    uint32LE ((loginHeader caps charset ++ rest).take 4) = caps := by
  rw [loginHeader, List.append_assoc, List.append_assoc, List.append_assoc,
    List.take_left' (length_le32 caps), uint32LE_le32]

theorem readLogin_encode {caps : UInt32} (hcaps : Modern caps) (charset : UInt8)
    {user auth : Bytes} (huser : 0 ∉ user) (hauth : auth.length < 251) (database plugin : Bytes) :
    Server.readLogin (encodeHandshakeResponse41 caps charset user auth database plugin) =
      some (user, auth) := by
  let tail : Bytes := (if caps &&& clientConnectWithDB ≠ 0 then database ++ [0] else []) ++
    (if caps &&& clientPluginAuth ≠ 0 then plugin ++ [0] else [])
  have hsplit : encodeHandshakeResponse41 caps charset user auth database plugin =
      loginHeader caps charset ++ (user ++ 0 :: (UInt8.ofNat auth.length :: (auth ++ tail))) := by
    simp only [encodeHandshakeResponse41, tail, List.append_assoc, List.cons_append, List.nil_append]
  have hsize : (UInt8.ofNat auth.length).toNat = auth.length := by
    rw [UInt8.toNat_ofNat']
    omega
  have hcapsNot : ¬ (caps &&& clientProtocol41 = 0 ∨ caps &&& clientSecureConnection = 0 ∨
      caps &&& clientPluginAuth = 0) := by
    rintro (h | h | h)
    · exact hcaps.1 h
    · exact hcaps.2.1 h
    · exact hcaps.2.2 h
  have hrest : (user ++ 0 :: (UInt8.ofNat auth.length :: (auth ++ tail))).drop (user.length + 1) =
      UInt8.ofNat auth.length :: (auth ++ tail) := by
    rw [List.drop_length_add_append]
    rfl
  have hfits : auth.length < 251 ∧ auth.length ≤ (auth ++ tail).length := by
    rw [List.length_append]
    omega
  simp only [Server.readLogin, hsplit, take_loginHeader, hcapsNot, if_false,
    List.drop_left' (length_loginHeader caps charset), indexByte_append huser, hrest, hsize, hfits,
    and_self, if_true, List.take_left]

/-! ## The packets of a login against the server -/

variable {s : Server.Session}

theorem exec_readPacket {payload : Bytes} {phase : Server.Phase}
    (hsend : server.send s.phase = some (payload, phase)) (context : String) :
    (Login.readPacket s.conn context).exec server.handler s =
      (.ok (lastSeq s.seq payload, payload), { s with phase, seq := nextSeq s.seq payload }) := by
  have hreply : server.handler (.readPacket s.conn) s =
      (.ok (lastSeq s.seq payload, payload), { s with phase, seq := nextSeq s.seq payload }) := by
    simp only [Server.handler, hsend, if_true]
  change (mapErr (wrapf context []) (server.handler (.readPacket s.conn) s).1,
    (server.handler (.readPacket s.conn) s).2) = _
  rw [hreply]
  rfl

theorem exec_writePacket (payload : Bytes) (change : GoError → GoError) :
    (Login.writePacket s.conn s.seq payload change).exec server.handler s =
      (.ok (nextSeq s.seq payload), { s with
        phase := server.receive s.conn payload s.phase
        seq := nextSeq s.seq payload }) := by
  have hreply : server.handler (.writePacket s.conn s.seq payload) s =
      (.ok (), { s with
        phase := server.receive s.conn payload s.phase
        seq := nextSeq s.seq payload }) := by
    simp only [Server.handler, and_self, if_true]
  change (mapErr change ((server.handler (.writePacket s.conn s.seq payload) s).1.map _),
    (server.handler (.writePacket s.conn s.seq payload) s).2) = _
  rw [hreply]
  rfl

theorem exec_entropy : Login.entropy.exec server.handler s =
    (.ok (s.seeds.headD []), { s with seeds := s.seeds.tail }) := rfl

theorem exec_lift_bind {α β : Type} {result : GoM GoError α} {value : α} (h : result = .ok value)
    (next : α → LoginM β) :
    (Program.lift result >>= next).exec server.handler s = (next value).exec server.handler s := by
  rw [h]
  rfl

/-! ## The full authentication -/

/-- The server decrypts what the login encrypts and takes the nonce off. -/
theorem exists_encrypt (seed : Bytes) (nonce : Nonce) :
    ∃ enc, encryptCachingSHA2Password server.crypto seed server.password nonce.bytes server.key =
        .ok enc ∧ server.receive .plain enc (.ciphertext nonce) = .sendOk := by
  have hlength : nonce.bytes.length ≠ 0 := by
    rw [nonce.length_eq]
    decide
  obtain ⟨enc, henc, hdec⟩ :=
    server.decrypt_encrypt seed (maskWith nonce.bytes (server.password ++ [0]))
  refine ⟨enc, ?_, ?_⟩
  · simp only [encryptCachingSHA2Password, hlength, if_false, henc]
  · simp only [Server.receive, hdec, maskWith_maskWith, if_true]

theorem exec_mysqlCachingSHA2RSA {nonce : Nonce} (hphase : s.phase = .password nonce)
    (hconn : s.conn = .plain) :
    ∃ seeds seq, (mysqlCachingSHA2RSA server.crypto s.conn s.seq server.password nonce.bytes).exec
        server.handler s =
      (.ok seq, { s with phase := .sendOk, seq, seeds }) := by
  obtain ⟨enc, henc, hreceive⟩ : ∃ enc, encryptCachingSHA2Password server.crypto
      (s.seeds.headD []) server.password nonce.bytes server.key = .ok enc ∧
      server.receive .plain enc (.ciphertext nonce) = .sendOk := exists_encrypt _ nonce
  let asked : Server.Session :=
    { s with phase := .sendKey nonce, seq := nextSeq s.seq [cachingSHA2RequestKey] }
  let payload : Bytes := authMoreDataHeader :: server.pem
  let got : Server.Session :=
    { asked with phase := .ciphertext nonce, seq := nextSeq asked.seq payload }
  let drawn : Server.Session := { got with seeds := got.seeds.tail }
  have hask (change : GoError → GoError) :
      (Login.writePacket s.conn s.seq [cachingSHA2RequestKey] change).exec server.handler s =
        (.ok asked.seq, asked) := by
    have hphase' : server.receive s.conn [cachingSHA2RequestKey] s.phase = .sendKey nonce := by
      rw [hphase, hconn]
      rfl
    rw [exec_writePacket, hphase']
  have hget (context : String) : (Login.readPacket asked.conn context).exec server.handler asked =
      (.ok (lastSeq asked.seq payload, payload), got) :=
    exec_readPacket (s := asked) rfl context
  have hseq : lastSeq asked.seq payload + 1 = drawn.seq := lastSeq_add_one _ _
  have hput (change : GoError → GoError) :
      (Login.writePacket drawn.conn drawn.seq enc change).exec server.handler drawn =
        (.ok (nextSeq drawn.seq enc),
          { drawn with phase := .sendOk, seq := nextSeq drawn.seq enc }) := by
    have hphase' : server.receive drawn.conn enc drawn.phase = .sendOk := by
      change server.receive s.conn enc (.ciphertext nonce) = .sendOk
      rw [hconn, hreceive]
    rw [exec_writePacket, hphase']
  have hhead (error : GoError) : refuse (payload.head? ≠ some authMoreDataHeader) error = .ok () := by
    have hsome : payload.head? = some authMoreDataHeader := rfl
    rw [refuse, if_neg (not_not_intro hsome)]
    rfl
  have hpem : parseRSAPublicKey server.crypto payload.tail = .ok server.key := server.parse_pem
  refine ⟨drawn.seeds, nextSeq drawn.seq enc, ?_⟩
  rw [mysqlCachingSHA2RSA, Program.exec_bind_of_ok (hask _), Program.exec_bind_of_ok (hget _)]
  dsimp only
  rw [exec_lift_bind (hhead _), exec_lift_bind hpem,
    Program.exec_bind_of_ok (exec_entropy (s := got)), exec_lift_bind henc, hseq]
  exact hput _

/-- Over TLS the server gets the password itself, otherwise the password under its key. -/
theorem exec_mysqlCachingSHA2More {nonce : Nonce} (hphase : s.phase = .password nonce) :
    ∃ seeds seq, (mysqlCachingSHA2More server.crypto s.conn s.seq
        [authMoreDataHeader, cachingSHA2FullAuth] server.password nonce.bytes
        (s.conn = .tls)).exec server.handler s =
      (.ok seq, { s with phase := .sendOk, seq, seeds }) := by
  have hmarker : cachingSHA2FullAuth ≠ cachingSHA2FastSuccess := by decide
  simp only [mysqlCachingSHA2More, hmarker, if_false, if_true, server.password_ne_nil,
    decide_eq_true_eq]
  by_cases hconn : s.conn = .tls
  · have hphase' : server.receive s.conn (server.password ++ [0]) s.phase = .sendOk := by
      rw [hphase, hconn]
      exact if_pos rfl
    rw [if_pos hconn, exec_writePacket, hphase']
    exact ⟨s.seeds, _, rfl⟩
  · have hplain : s.conn = .plain := by
      cases hlayer : s.conn with
      | plain => rfl
      | tls => exact absurd hlayer hconn
    rw [if_neg hconn]
    exact exec_mysqlCachingSHA2RSA hphase hplain

/-! ## The loop -/

theorem exec_sendOk {s : Server.Session} (hphase : s.phase = .sendOk) (secure : Bool) (fuel : ℕ)
    (seq : UInt8) (plugin salt : Bytes) :
    ∃ s', (mysqlFinishAuth server.crypto s.conn server.password secure (fuel + 1) seq plugin
        salt).exec server.handler s = (.ok (), s') ∧ s'.phase = .accepted := by
  have hsend : server.send s.phase = some (okPacketHeader :: server.okTail, .accepted) := by
    rw [hphase]
    rfl
  rw [mysqlFinishAuth, Program.exec_bind_of_ok (exec_readPacket hsend _)]
  exact ⟨_, rfl, rfl⟩

/-- A round of the loop on a follow-up of `caching_sha2_password`. -/
theorem exec_authMoreData {s : Server.Session} {marker : UInt8} {phase : Server.Phase}
    (hsend : server.send s.phase = some ([authMoreDataHeader, marker], phase)) (secure : Bool)
    (fuel : ℕ) (seq : UInt8) (salt : Bytes) :
    (mysqlFinishAuth server.crypto s.conn server.password secure (fuel + 1) seq cachingSHA2Password
        salt).exec server.handler s =
      (mysqlCachingSHA2More server.crypto s.conn (nextSeq s.seq [authMoreDataHeader, marker])
          [authMoreDataHeader, marker] server.password salt secure >>= fun next ↦
        mysqlFinishAuth server.crypto s.conn server.password secure fuel next cachingSHA2Password
          salt).exec server.handler
        { s with phase, seq := nextSeq s.seq [authMoreDataHeader, marker] } := by
  have hok : authMoreDataHeader ≠ okPacketHeader := by decide
  have herr : authMoreDataHeader ≠ errPacketHeader := by decide
  have hswitch : authMoreDataHeader ≠ authSwitchRequestEOF := by decide
  have hplugin (error : GoError) :
      refuse (cachingSHA2Password ≠ cachingSHA2Password) error = .ok () := by
    rw [refuse, if_neg (not_not_intro rfl)]
    rfl
  rw [mysqlFinishAuth, Program.exec_bind_of_ok (exec_readPacket hsend _)]
  simp only [hok, herr, hswitch, if_false, if_true, lastSeq_add_one]
  rw [exec_lift_bind (hplugin _)]

/-- What the client reads from a request to switch. -/
theorem readNulString_switch (plugin : Plugin) (nonce : Nonce) :
    readNulString (authSwitchRequestEOF :: (plugin.name ++ 0 :: (nonce.bytes ++ [0]))) 1 =
        .ok (plugin.name, 1 + plugin.name.length + 1) ∧
      trimNuls ((authSwitchRequestEOF :: (plugin.name ++ 0 :: (nonce.bytes ++ [0]))).drop
        (1 + plugin.name.length + 1)) = nonce.bytes := by
  have hat : At (authSwitchRequestEOF :: (plugin.name ++ 0 :: (nonce.bytes ++ [0]))) 1
      (plugin.name ++ 0 :: (nonce.bytes ++ [0])) := ⟨Nat.succ_pos _, rfl⟩
  refine ⟨readNulString_of_at (zero_notMem_name plugin) hat, ?_⟩
  rw [hat.advance.cons.2, trimNuls_append_zero, trimNuls_of_notMem nonce.zero_notMem]

/-- From a response that passed its check the loop leads to success, whatever is left of the
script. -/
theorem exec_mysqlFinishAuth (rest : List (Plugin × Nonce)) (plugin : Plugin) (nonce : Nonce)
    {s : Server.Session} (hphase : s.phase = server.afterResponse plugin nonce rest) (fuel : ℕ)
    (seq : UInt8) :
    ∃ s', (mysqlFinishAuth server.crypto s.conn server.password (s.conn = .tls)
        (rest.length + 2 + fuel) seq plugin.name nonce.bytes).exec server.handler s = (.ok (), s') ∧
      s'.phase = .accepted := by
  induction rest generalizing plugin nonce s seq with
  | nil =>
    have hfuel : ([] : List (Plugin × Nonce)).length + 2 + fuel = fuel + 1 + 1 := by
      rw [List.length_nil]
      omega
    rw [hfuel]
    cases plugin with
    | native => exact exec_sendOk hphase _ _ _ _ _
    | cachingSHA2 =>
      rw [Server.afterResponse] at hphase
      split at hphase
      · have hsend : server.send s.phase =
            some ([authMoreDataHeader, cachingSHA2FullAuth], .password nonce) := by
          rw [hphase]
          rfl
        let asked : Server.Session := { s with
          phase := .password nonce
          seq := nextSeq s.seq [authMoreDataHeader, cachingSHA2FullAuth] }
        obtain ⟨seeds, next, hmore⟩ := exec_mysqlCachingSHA2More (s := asked) rfl
        rw [Plugin.name, exec_authMoreData hsend, Program.exec_bind_of_ok hmore]
        exact exec_sendOk (s := { asked with phase := .sendOk, seq := next, seeds }) rfl _ _ _ _ _
      · have hsend : server.send s.phase =
            some ([authMoreDataHeader, cachingSHA2FastSuccess], .sendOk) := by
          rw [hphase]
          rfl
        rw [Plugin.name, exec_authMoreData hsend]
        exact exec_sendOk (s := { s with
          phase := .sendOk
          seq := nextSeq s.seq [authMoreDataHeader, cachingSHA2FastSuccess] }) rfl _ _
          (nextSeq s.seq [authMoreDataHeader, cachingSHA2FastSuccess]) _ _
  | cons switch rest ih =>
    obtain ⟨plugin', nonce'⟩ := switch
    let payload : Bytes := authSwitchRequestEOF :: (plugin'.name ++ 0 :: (nonce'.bytes ++ [0]))
    have hsend : server.send s.phase = some (payload, .switchResponse plugin' nonce' rest) := by
      rw [hphase]
      rfl
    let asked : Server.Session := { s with
      phase := .switchResponse plugin' nonce' rest
      seq := nextSeq s.seq payload }
    have hok : authSwitchRequestEOF ≠ okPacketHeader := by decide
    have herr : authSwitchRequestEOF ≠ errPacketHeader := by decide
    have hname : mapErr (wrapf "auth switch: %w" []) (readNulString payload 1) =
        .ok (plugin'.name, 1 + plugin'.name.length + 1) := by
      rw [(readNulString_switch plugin' nonce').1]
      rfl
    have hphase' : server.receive asked.conn (response server plugin' nonce') asked.phase =
        server.afterResponse plugin' nonce' rest := by
      exact if_pos (verify_response plugin' nonce')
    have hfuel : ((plugin', nonce') :: rest).length + 2 + fuel = rest.length + 2 + fuel + 1 := by
      rw [List.length_cons]
      omega
    rw [hfuel, mysqlFinishAuth, Program.exec_bind_of_ok (exec_readPacket hsend _)]
    simp only [payload, hok, herr, if_false, if_true, lastSeq_add_one]
    rw [exec_lift_bind hname]
    simp only [(readNulString_switch plugin' nonce').2]
    rw [exec_lift_bind (mysqlAuthResponse_name plugin' nonce'),
      Program.exec_bind_of_ok (exec_writePacket (s := asked) _ _)]
    exact ih plugin' nonce' (s := { asked with
      phase := server.receive asked.conn (response server plugin' nonce') asked.phase
      seq := nextSeq asked.seq (response server plugin' nonce') }) hphase' _

/-! ## The whole login -/

/-- The upgrade of the link, when TLS is asked for, leaves the server waiting for the login. -/
theorem exec_upgrade {s : Server.Session}
    (hphase : s.phase = if server.setup.tlsConfig.isSome then .sslRequest else .response)
    {caps : UInt32} (hcaps : Modern caps) {seq : UInt8} (hseq : seq + 1 = s.seq) :
    ∃ caps' s', (upgrade s.conn (handshakeOf server) caps seq (s.conn = .tls)
        server.setup.tlsConfig).exec server.handler s =
      (.ok (s'.conn, caps', s'.seq, s'.conn = .tls), s') ∧ s'.phase = .response ∧ Modern caps' := by
  cases hsetup : server.setup.tlsConfig with
  | none =>
    refine ⟨caps, s, ?_, ?_, hcaps⟩
    · rw [← hseq]
      rfl
    · rw [hphase, hsetup]
      rfl
  | some serverName =>
    have hwaiting : s.phase = .sslRequest := by
      rw [hphase, hsetup]
      rfl
    have hssl : (handshakeOf server).capabilities &&& clientSSL ≠ 0 := by
      apply server.ssl
      rw [hsetup]
      rfl
    have hguard (error : GoError) :
        refuse ((handshakeOf server).capabilities &&& clientSSL = 0) error = .ok () := by
      rw [refuse, if_neg hssl]
      rfl
    let request := encodeSSLRequest (caps ||| clientSSL) defaultCharsetUTF8MB4
    have hreceive : server.receive s.conn request s.phase = .handshake := by
      have hflag : uint32LE (request.take 4) &&& clientSSL ≠ 0 := by
        have hcaps' := take_loginHeader (caps ||| clientSSL) defaultCharsetUTF8MB4 []
        rw [List.append_nil] at hcaps'
        change uint32LE ((loginHeader (caps ||| clientSSL) defaultCharsetUTF8MB4).take 4) &&&
          clientSSL ≠ 0
        rw [hcaps']
        exact or_and_ne_zero (.inr (by decide))
      rw [hwaiting]
      exact if_pos ⟨length_loginHeader _ _, hflag⟩
    have hwrite (change : GoError → GoError) :
        (Login.writePacket s.conn s.seq request change).exec server.handler s =
          (.ok (nextSeq s.seq request),
            { s with phase := .handshake, seq := nextSeq s.seq request }) := by
      rw [exec_writePacket, hreceive]
    let secured : Server.Session :=
      { s with phase := .response, seq := nextSeq s.seq request, conn := .tls }
    refine ⟨caps ||| clientSSL, secured, ?_, rfl, hcaps.or clientSSL⟩
    rw [upgrade, exec_lift_bind (hguard _), hseq, Program.exec_bind_of_ok (hwrite _)]
    rfl

/-- **The login is complete.** Against every honest server and with enough fuel for its script the
login returns, with success, and the server has accepted it. -/
theorem honest_login_succeeds (server : Server Key) (database : Bytes) (seq : UInt8)
    (seeds : List Bytes) (fuel : ℕ) :
    ∃ conn caps s', (authenticateUpstreamMySQL server.crypto (server.switches.length + 2 + fuel)
        server.setup.conn server.user server.password database (server.setup.conn = .tls)
        server.setup.tlsConfig).exec server.handler (server.start seq seeds) =
      (.ok (conn, handshakeOf server, caps), s') ∧ s'.phase = .accepted := by
  let phase : Server.Phase := if server.setup.tlsConfig.isSome then .sslRequest else .response
  let greeted : Server.Session :=
    { server.start seq seeds with phase, seq := nextSeq seq server.greeting }
  have hgreet (context : String) :
      (Login.readPacket server.setup.conn context).exec server.handler (server.start seq seeds) =
        (.ok (lastSeq seq server.greeting, server.greeting), greeted) :=
    exec_readPacket (s := server.start seq seeds) rfl context
  have herr (error : GoError) : refuse (isErrPacket server.greeting) error = .ok () := by
    rw [refuse, if_neg (by simp [isErrPacket, Server.greeting, protocolVersion10, errPacketHeader])]
    rfl
  have hname : server.plugin.name ≠ [] := by
    cases server.plugin <;> decide
  obtain ⟨caps, s, hupgrade, hphase, hmodern⟩ : ∃ caps s,
      (upgrade server.setup.conn (handshakeOf server)
        (mysqlUpstreamCaps (handshakeOf server).capabilities (database ≠ []))
        (lastSeq seq server.greeting) (server.setup.conn = .tls) server.setup.tlsConfig).exec
        server.handler greeted = (.ok (s.conn, caps, s.seq, s.conn = .tls), s) ∧
      s.phase = .response ∧ Modern caps :=
    exec_upgrade (s := greeted) rfl (modern_mysqlUpstreamCaps _ _)
      (lastSeq_add_one seq server.greeting)
  let packet := encodeHandshakeResponse41 caps defaultCharsetUTF8MB4 server.user
    (response server server.plugin server.nonce) database server.plugin.name
  have hreceive : server.receive s.conn packet s.phase =
      server.afterResponse server.plugin server.nonce server.switches := by
    rw [hphase, Server.receive, readLogin_encode hmodern _ server.zero_notMem_user
      (length_response _ _)]
    exact if_pos ⟨rfl, verify_response _ _⟩
  let sent : Server.Session :=
    { s with phase := server.receive s.conn packet s.phase, seq := nextSeq s.seq packet }
  have hsent (change : GoError → GoError) :
      (Login.writePacket s.conn s.seq (encodeHandshakeResponse41 caps defaultCharsetUTF8MB4
          server.user (response server server.plugin server.nonce) database
          (handshakeOf server).authPluginName) change).exec server.handler s =
        (.ok (nextSeq s.seq packet), sent) :=
    exec_writePacket packet change
  obtain ⟨s', hfinish, haccepted⟩ : ∃ s', (mysqlFinishAuth server.crypto s.conn server.password
        (s.conn = .tls) (server.switches.length + 2 + fuel) (nextSeq s.seq packet)
        (handshakeOf server).authPluginName (handshakeOf server).authPluginData).exec
        server.handler sent = (.ok (), s') ∧ s'.phase = .accepted :=
    exec_mysqlFinishAuth server.switches server.plugin server.nonce (s := sent) hreceive fuel
      (nextSeq s.seq packet)
  refine ⟨s.conn, caps, s', ?_, haccepted⟩
  have hauth : mysqlAuthResponse server.crypto (handshakeOf server).authPluginName server.password
      (handshakeOf server).authPluginData =
      .ok (response server server.plugin server.nonce) := mysqlAuthResponse_name _ _
  have hplugin : (handshakeOf server).authPluginName ≠ [] := hname
  rw [authenticateUpstreamMySQL, Program.exec_bind_of_ok (hgreet _)]
  dsimp only
  rw [exec_lift_bind (herr _), exec_lift_bind parseHandshakeV10_greeting]
  simp only [hplugin, if_false]
  rw [Program.exec_bind_of_ok hupgrade]
  dsimp only
  rw [exec_lift_bind hauth, Program.exec_bind_of_ok (hsent _), Program.exec_bind_of_ok hfinish]
  rfl

/-- A server that switches from `mysql_native_password` to `caching_sha2_password` and then asks for
the password under its key. -/
def switchingServer : Server Unit where
  crypto :=
    { sha1 := fun _ ↦ List.replicate 20 0
      sha256 := fun _ ↦ List.replicate 32 0
      length_sha1 := length_zeroSHA1
      length_sha256 := length_zeroSHA256
      pemDecode := some
      parsePKIXPublicKey := fun _ ↦ .ok (some ())
      encryptOAEP := fun _ _ plain ↦ .ok plain }
  user := str "app"
  zero_notMem_user := by decide
  password := str "secret"
  password_ne_nil := by decide
  key := ()
  pem := str "key"
  parse_pem := rfl
  decrypt := some
  decrypt_encrypt _ plain := ⟨plain, rfl, rfl⟩
  serverVersion := str "8.0.36"
  zero_notMem_serverVersion := by decide
  connectionID := 7
  capabilities := clientProtocol41 ||| clientSecureConnection ||| clientPluginAuth
  protocol41 := by decide
  secureConnection := by decide
  pluginAuth := by decide
  charset := 45
  statusFlags := 2
  reserved := List.replicate 10 0
  length_reserved := List.length_replicate
  setup := .plaintext
  ssl h := absurd h (by decide)
  plugin := .native
  nonce := ⟨List.replicate 20 1, List.length_replicate, by decide⟩
  switches := [(.cachingSHA2, ⟨List.replicate 20 2, List.length_replicate, by decide⟩)]
  fullAuth := true
  okTail := [0, 0]

theorem honest_login_succeeds_switchingServer :
    ∃ conn caps s', (authenticateUpstreamMySQL switchingServer.crypto 3 .plain (str "app")
        (str "secret") (str "app") false none).exec switchingServer.handler
        (switchingServer.start 0 [str "seed"]) =
      (.ok (conn, handshakeOf switchingServer, caps), s') ∧ s'.phase = .accepted :=
  honest_login_succeeds switchingServer (str "app") 0 [str "seed"] 0

end DbPivot.Mysql
