import DbPivot.Go.Bufio
import DbPivot.Proxy.Probe
import DbPivot.System.Copy

/-!
# Handlers on connections

Here the calls of a handler or a probe act on connections: what the client and the upstream are
going to send, what has been written to them, and the TLS connection once there is one. The pipe is
a call that takes time: it starts to copy where the two connections stand and goes on copying until
it is over.

A database can be switched at any moment, so what a lookup finds and which target is current are
left open, except for what is assumed of all targets.
-/

namespace DbPivot.Proxy

open DbPivot.Go DbPivot.Config DbPivot.System
open DbPivot.Mongo (Env)
open DbPivot.Mysql (Crypto)

/-- The surroundings of one client connection, or of one probe. What a dial is going to give is a
part of it, and so are the numbers, the time and the random bytes that calls are going to return.
`login` is the upstream connection at the moment its login was accepted, and `pipe` the copying
between client and upstream, where each direction goes on with what was written before. -/
structure Net where
  server : Server
  client : Bufio
  dialled : Except GoError Link
  up : Option Link
  login : Option (Layer × Link)
  pipe : Option (Layer × Pipe UInt8)
  connID : UInt32
  time : Int64
  random : Except GoError Bytes
  seeds : List Bytes

namespace Net

variable {α Key : Type}

/-! ## The calls -/

/-- A result of the standard library. -/
def returned : Except GoError α → GoM GoError α
  | .ok value => .ok value
  | .error err => fail err

/-- A program on the upstream connection. -/
def onUp (s : Net) (layer : Layer) (program : SocketM α) : GoM GoError α × Net :=
  match s.up with
  | none => (.error .panic, s)
  | some link => ((link.on layer program).1, { s with up := some (link.on layer program).2 })

theorem onUp_of_socket {s : Net} {layer : Layer} {link : Link} {up : Socket} (hlink : s.up = some link)
    (hup : link.socket layer = some up) (program : SocketM α) :
    ∃ link', s.onUp layer program = ((program.run up).1, { s with up := some link' }) ∧
      link'.socket layer = some (program.run up).2 := by
  obtain ⟨hresult, hsocket⟩ := Link.on_of_socket hup program
  refine ⟨(link.on layer program).2, ?_, hsocket⟩
  rw [onUp, hlink, ← hresult]

/-- A program on one of the two connections. -/
def onConn (s : Net) (program : SocketM α) : Endpoint → GoM GoError α × Net
  | .client => ((program.run s.client.conn).1,
      { s with client := { s.client with conn := (program.run s.client.conn).2 } })
  | .upstream layer => s.onUp layer program

/-- A login over a layer of the upstream connection, with a note when it is accepted. -/
def logIn (s : Net) (layer : Layer) (program : SocketM Unit) : GoM GoError Unit × Net :=
  match s.onUp layer program with
  | (.ok (), s) => (.ok (), { s with login := s.up.map fun link ↦ (layer, link) })
  | (.error fault, s) => (.error fault, s)

/-- The two ways a login over a connection that is there can end. -/
theorem logIn_of_socket {s : Net} {layer : Layer} {link : Link} {up : Socket}
    (hlink : s.up = some link) (hup : link.socket layer = some up) (program : SocketM Unit) :
    ∃ link', link'.socket layer = some (program.run up).2 ∧
      ((program.run up).1 = .ok () ∧ s.logIn layer program =
          (.ok (), { s with up := some link', login := some (layer, link') }) ∨
        ∃ fault, (program.run up).1 = .error fault ∧
          s.logIn layer program = (.error fault, { s with up := some link' })) := by
  obtain ⟨link', hrun, hsocket⟩ := onUp_of_socket hlink hup program
  refine ⟨link', hsocket, ?_⟩
  rw [logIn, hrun]
  cases (program.run up).1 with
  | ok result => exact .inl ⟨rfl, rfl⟩
  | error fault => exact .inr ⟨fault, rfl, rfl⟩

/-- `AuthenticateUpstreamMySQL` on the upstream connection, with a note when the login is
accepted. -/
def logInMySQL (crypto : Crypto Key) (fuel : ℕ) (s : Net) (layer : Layer)
    (user password database : Bytes) (tlsConfig : Option Bytes) :
    GoM GoError (Layer × UInt32) × Net :=
  match s.up with
  | none => (.error .panic, s)
  | some link =>
    match (Mysql.authenticateUpstreamMySQL crypto fuel layer user password database false
        tlsConfig).exec Mysql.Upstream.handler ⟨link, s.seeds⟩ with
    | (.ok (conn, _, caps), u) =>
      (.ok (conn, caps), { s with up := some u.link, login := some (conn, u.link), seeds := u.seeds })
    | (.error fault, u) => (.error fault, { s with up := some u.link, seeds := u.seeds })

/-- What each call does and returns; of the targets it sees those that are current now. -/
def handler (crypto : Crypto Key) (env : Env) (fuel : ℕ) : Handler handlerInterface Net
  | .lookupDatabase adapter name, s => ((s.server.lookupDatabase adapter name).isSome, s)
  | .current adapter name, s => ((s.server.lookupDatabase adapter name).bind Database.current, s)
  | .connSeq, s => (s.connID + 1, { s with connID := s.connID + 1 })
  | .now, s => (s.time, s)
  | .rand _, s => (returned s.random, s)
  | .readFull n, s => ((s.client.readFull n).1, { s with client := (s.client.readFull n).2 })
  | .peek, s => (s.client.buffer, s)
  | .discard n, s => ((), { s with client := s.client.discard n })
  | .write conn bytes, s => s.onConn (write bytes) conn
  | .readMessage conn, s => s.onConn Postgres.readMessage conn
  | .writeMessage conn typ body, s => s.onConn (Postgres.writeMessage typ body) conn
  | .readPacket conn, s => s.onConn Mysql.readPacket conn
  | .writePacket conn seq payload, s =>
    s.onConn (do let _ ← Mysql.writePacket seq payload; pure ()) conn
  | .readMongoMessage conn, s => s.onConn Mongo.readMongoMessage conn
  | .writeMongoReply conn reqOpCode responseTo doc, s =>
    s.onConn (Mongo.writeMongoReply reqOpCode responseTo doc) conn
  | .writeMongoMessage conn hdr body, s =>
    s.onConn (Mongo.writeMongoMessage hdr.requestID hdr.responseTo hdr.opCode body) conn
  | .dial _ _, s =>
    match s.dialled with
    | .ok link => (.ok (), { s with up := some link })
    | .error err => (fail err, s)
  | .negotiateTLS _, s =>
    match s.up with
    | none => (.error .panic, s)
    | some link =>
      ((Postgres.negotiateUpstreamTLS link).1,
        { s with up := some (Postgres.negotiateUpstreamTLS link).2 })
  | .authenticatePostgres layer user password, s =>
    s.logIn layer (Postgres.authenticateUpstream env user password)
  | .authenticateMySQL layer user password database tlsConfig, s =>
    s.logInMySQL crypto fuel layer user password database tlsConfig
  | .authenticateMongo layer user password authSource, s =>
    s.logIn layer (Mongo.authenticateUpstreamMongo env user password authSource)
  | .register _ _, s => ((), s)
  | .pipe _, s => ((), s)
  | .closeConn, s => ((), s)
  | .close _, s => ((), s)

/-! ## The world -/

/-- A pipe over the connections as they are. -/
def startPipe (client up : Socket) : Pipe UInt8 where
  toUp := { System.Copy.start client.input with written := up.output }
  toClient := { System.Copy.start up.input with written := client.output }
  closed := false

/-- What happens while a call is in progress: the pipe starts and copies. -/
inductive Progress (s : Net) : Call → Net → Prop where
  | start {layer : Layer} {link : Link} {up : Socket} (hnone : s.pipe = none)
      (hlink : s.up = some link) (hup : link.socket layer = some up) :
      Progress s (.pipe layer) { s with pipe := some (layer, startPipe s.client.conn up) }
  | step {layer : Layer} {pipe pipe' : Pipe UInt8} {event : Pipe.Event}
      (hpipe : s.pipe = some (layer, pipe)) (hstep : pipe.Step event pipe') :
      Progress s (.pipe layer) { s with pipe := some (layer, pipe') }

/-- The reply to a call, where the databases may have any current targets that are allowed. -/
def Reply (crypto : Crypto Key) (env : Env) (fuel : ℕ) (allowed : ResolvedTarget → Prop) (s : Net) :
    (c : Call) → handlerInterface.Reply c → Net → Prop
  | .lookupDatabase _ _, _, s' => s' = s
  | .current _ _, target, s' => s' = s ∧ ∀ rt, target = some rt → allowed rt
  | c, reply, s' => handler crypto env fuel c s = (reply, s')

def world (crypto : Crypto Key) (env : Env) (fuel : ℕ) (allowed : ResolvedTarget → Prop) :
    World handlerInterface Net where
  progress := Progress
  reply := Reply crypto env fuel allowed

/-! ## One call -/

/-- The call has one reply and takes no time. -/
def Direct : Call → Prop
  | .lookupDatabase _ _ => False
  | .current _ _ => False
  | .pipe _ => False
  | _ => True

section Rules

variable {crypto : Crypto Key} {env : Env} {fuel : ℕ} {allowed : ResolvedTarget → Prop}
  {always : Net → Prop} {s s' : Net} {c : Call}

theorem during_of_ne_pipe (h : (world crypto env fuel allowed).During c s s')
    (hc : ∀ layer, c ≠ .pipe layer) : s' = s := by
  induction h with
  | refl => rfl
  | tail _ hstep ih =>
    cases hstep with
    | start _ _ _ => exact absurd rfl (hc _)
    | step _ _ => exact absurd rfl (hc _)

theorem reply_of_direct (hc : Direct c) {reply : handlerInterface.Reply c}
    (h : Reply crypto env fuel allowed s c reply s') : handler crypto env fuel c s = (reply, s') := by
  cases c with
  | lookupDatabase adapter name => exact hc.elim
  | current adapter name => exact hc.elim
  | _ => exact h

/-- The state after a call does not depend on the databases. -/
theorem eq_of_reply {reply : handlerInterface.Reply c}
    (h : Reply crypto env fuel allowed s c reply s') : s' = (handler crypto env fuel c s).2 := by
  cases c with
  | lookupDatabase adapter name => exact h
  | current adapter name => exact h.1
  | _ => exact (congrArg Prod.snd h).symm

/-- A program whose calls all keep a property keeps it. -/
theorem ensures_of_calls {P : Call → Prop} {K : Net → Prop} {program : HandlerM α}
    (halways : ∀ s, K s → always s)
    (hhandler : ∀ s c, P c → K s → K (handler crypto env fuel c s).2)
    (hprogress : ∀ s c s', P c → K s → Progress s c s' → K s') (hcalls : program.Calls P)
    (hs : K s) :
    Ensures (world crypto env fuel allowed) always (fun _ ↦ K) program s := by
  apply Ensures.of_calls halways hprogress _ hcalls hs
  intro s c reply s' hc hs hreply
  rw [eq_of_reply hreply]
  exact hhandler s c hc hs

/-- The rule for a call with one reply. -/
theorem ensures_direct (hc : Direct c) (halways : always s)
    {next : handlerInterface.Reply c → HandlerM α} {post : GoM GoError α → Net → Prop}
    (hnext : Ensures (world crypto env fuel allowed) always post
      (next (handler crypto env fuel c s).1) (handler crypto env fuel c s).2) :
    Ensures (world crypto env fuel allowed) always post (Program.call c next : HandlerM α) s := by
  have hpipe (layer : Layer) : c ≠ .pipe layer := by
    rintro rfl
    exact hc
  intro s' hduring
  obtain rfl := during_of_ne_pipe hduring hpipe
  refine ⟨halways, fun reply s'' hreply ↦ ?_⟩
  have hhandler := reply_of_direct hc hreply
  rw [hhandler] at hnext
  exact hnext

/-- The rule for a lookup. -/
theorem ensures_lookupDatabase (halways : always s) {adapter name : Bytes} {next : Bool → HandlerM α}
    {post : GoM GoError α → Net → Prop}
    (hnext : ∀ found, Ensures (world crypto env fuel allowed) always post (next found) s) :
    Ensures (world crypto env fuel allowed) always post
      (Handler.lookupDatabase adapter name >>= next) s := by
  intro s' hduring
  obtain rfl := during_of_ne_pipe hduring nofun
  refine ⟨halways, fun found s'' hreply ↦ ?_⟩
  obtain rfl : s'' = s' := hreply
  exact hnext found

/-- The rule for the current target of a database. -/
theorem ensures_current (halways : always s) {adapter name : Bytes}
    {next : Option ResolvedTarget → HandlerM α} {post : GoM GoError α → Net → Prop}
    (hnext : ∀ target, (∀ rt, target = some rt → allowed rt) →
      Ensures (world crypto env fuel allowed) always post (next target) s) :
    Ensures (world crypto env fuel allowed) always post (Handler.current adapter name >>= next)
      s := by
  intro s' hduring
  obtain rfl := during_of_ne_pipe hduring nofun
  refine ⟨halways, fun target s'' hreply ↦ ?_⟩
  obtain ⟨rfl, hallowed⟩ : s'' = s' ∧ ∀ rt, target = some rt → allowed rt := hreply
  exact hnext target hallowed

end Rules

/-- The calls when every database is found and is on one target. -/
def answering (crypto : Crypto Key) (env : Env) (fuel : ℕ) (rt : ResolvedTarget) :
    Handler handlerInterface Net
  | .lookupDatabase _ _, s => (true, s)
  | .current _ _, s => (some rt, s)
  | c, s => handler crypto env fuel c s

theorem reply_answering (crypto : Crypto Key) (env : Env) (fuel : ℕ)
    {allowed : ResolvedTarget → Prop} {rt : ResolvedTarget} (hrt : allowed rt) (s : Net) (c : Call) :
    (world crypto env fuel allowed).reply s c (answering crypto env fuel rt c s).1
      (answering crypto env fuel rt c s).2 := by
  cases c with
  | lookupDatabase adapter name => rfl
  | current adapter name => exact ⟨rfl, fun _ htarget ↦ Option.some.inj htarget ▸ hrt⟩
  | _ => rfl

/-- A client connection that was just accepted, with what the client is going to send. -/
def accept (s : Net) (input : Bytes) (room : Option ℕ) (chunks : List ℕ) : Net :=
  { s with
    client := Bufio.newReader ⟨input, [], room⟩ chunks
    up := none
    login := none
    pipe := none }

/-- Hashes of zeros and keys that hide nothing, to run the model with. -/
def openCrypto : Crypto Unit where
  sha1 _ := List.replicate 20 0
  sha256 _ := List.replicate 32 0
  length_sha1 := Mysql.length_zeroSHA1
  length_sha256 := Mysql.length_zeroSHA256
  pemDecode := some
  parsePKIXPublicKey _ := .ok (some ())
  encryptOAEP _ _ plain := .ok plain

/-- The surroundings of a connection before anything happens, with what a dial is going to give. -/
def reaching (dialled : Except GoError Link) : Net where
  server := { listenAddrs := ∅, databases := ∅, currentTarget := [], currentVars := ∅ }
  client := Bufio.newReader ⟨[], [], none⟩ []
  dialled := dialled
  up := none
  login := none
  pipe := none
  connID := 0
  time := 0
  random := .ok (List.replicate 20 1)
  seeds := []

/-! ## What was written and read -/

/-- What has been written to the upstream so far. -/
def upWritten (s : Net) (layer : Layer) : Bytes :=
  match s.pipe with
  | some (held, pipe) =>
    if held = layer then pipe.toUp.written
    else ((s.up.bind (·.socket layer)).map Socket.output).getD []
  | none => ((s.up.bind (·.socket layer)).map Socket.output).getD []

/-- What has been written to the client so far. -/
def clientWritten (s : Net) : Bytes :=
  match s.pipe with
  | some (_, pipe) => pipe.toClient.written
  | none => s.client.conn.output

/-- What was read from the client and is still in hand. -/
def clientPending (s : Net) : Bytes :=
  match s.pipe with
  | some (_, pipe) => s.client.buffer ++ pipe.toUp.pending
  | none => s.client.buffer

/-- What the client has sent and nobody has read. -/
def clientUnread (s : Net) : Bytes :=
  match s.pipe with
  | some (_, pipe) => pipe.toUp.unread
  | none => s.client.conn.input

/-- What was read from the upstream and is still in hand. -/
def upPending (s : Net) : Bytes :=
  match s.pipe with
  | some (_, pipe) => pipe.toClient.pending
  | none => []

/-- What the upstream has sent and nobody has read. -/
def upUnread (s : Net) (layer : Layer) : Bytes :=
  match s.pipe with
  | some (_, pipe) => pipe.toClient.unread
  | none => ((s.up.bind (·.socket layer)).map Socket.input).getD []

end Net

end DbPivot.Proxy
