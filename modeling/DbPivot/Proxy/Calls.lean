import DbPivot.Proxy.Net

/-!
# The calls of a handler

Most of a handler keeps to one side. Until it dials, it only deals with the client; what it reports
to the client after an error leaves the upstream alone; a login uses the upstream alone; and after
the login it never logs in again and keeps to the connection it was given. What follows for the
state is said here once for each kind of call, and each part of a handler or a probe is a program of
calls of one kind.
-/

namespace DbPivot.Proxy.Net

open DbPivot.Go DbPivot.Config DbPivot.System
open DbPivot.Mongo (Env)
open DbPivot.Mysql (Crypto HandshakeResponse41)
open DbPivot.Postgres (ascii)

variable {Key α : Type}

/-! ## Kinds of calls -/

/-- The connection that a call reads from or writes to. -/
def connOf : Call → Option Endpoint
  | .readFull _ => some .client
  | .write conn _ => some conn
  | .readMessage conn => some conn
  | .writeMessage conn _ _ => some conn
  | .readPacket conn => some conn
  | .writePacket conn _ _ => some conn
  | .readMongoMessage conn => some conn
  | .writeMongoReply conn _ _ _ => some conn
  | .writeMongoMessage conn _ _ => some conn
  | .dial _ _ => some (.upstream .plain)
  | .negotiateTLS _ => some (.upstream .plain)
  | .authenticatePostgres layer _ _ => some (.upstream layer)
  | .authenticateMySQL _ _ _ _ _ => some (.upstream .plain)
  | .authenticateMongo layer _ _ _ => some (.upstream layer)
  | .pipe layer => some (.upstream layer)
  | _ => none

/-- The call has nothing to do with the upstream. -/
def ClientSide (c : Call) : Prop := ∀ layer, connOf c ≠ some (.upstream layer)

/-- The calls of a login. -/
def LoginCall : Call → Prop
  | .write conn _ => ∃ layer, conn = .upstream layer
  | .dial _ _ => True
  | .negotiateTLS _ => True
  | .authenticatePostgres _ _ _ => True
  | .authenticateMySQL _ _ _ _ _ => True
  | .authenticateMongo _ _ _ _ => True
  | _ => False

/-- The call is not a login. -/
def NoLogin : Call → Prop
  | .authenticatePostgres _ _ _ => False
  | .authenticateMySQL _ _ _ _ _ => False
  | .authenticateMongo _ _ _ _ => False
  | _ => True

/-- The call is not a login and uses no other connection to the upstream than the one given. -/
def Serves (layer : Layer) (c : Call) : Prop :=
  NoLogin c ∧ ∀ held, connOf c = some (.upstream held) → held = layer

theorem noLogin_of_clientSide {c : Call} (hc : ClientSide c) : NoLogin c := by
  cases c with
  | authenticatePostgres layer user password => exact absurd rfl (hc layer)
  | authenticateMySQL layer user password database tlsConfig => exact absurd rfl (hc .plain)
  | authenticateMongo layer user password authSource => exact absurd rfl (hc layer)
  | _ => trivial

theorem serves_of_clientSide {layer : Layer} {c : Call} (hc : ClientSide c) : Serves layer c :=
  ⟨noLogin_of_clientSide hc, fun held h ↦ absurd h (hc held)⟩

theorem serves_of_connOf {layer : Layer} {c : Call} (hc : NoLogin c)
    (h : connOf c = some (.upstream layer)) : Serves layer c := by
  refine ⟨hc, fun held hheld ↦ ?_⟩
  cases hheld.symm.trans h
  rfl

/-! ## What they leave alone -/

/-- The states differ in nothing but what belongs to the client. -/
def SameUpstream (before s : Net) : Prop := ∃ client connID, s = { before with client, connID }

theorem SameUpstream.refl (s : Net) : SameUpstream s s := ⟨s.client, s.connID, rfl⟩

theorem SameUpstream.symm {s s' : Net} (h : SameUpstream s s') : SameUpstream s' s := by
  obtain ⟨_, _, rfl⟩ := h
  exact ⟨s.client, s.connID, rfl⟩

theorem SameUpstream.trans {s s' s'' : Net} (h : SameUpstream s s') (h' : SameUpstream s' s'') :
    SameUpstream s s'' := by
  obtain ⟨_, _, rfl⟩ := h
  obtain ⟨client, connID, rfl⟩ := h'
  exact ⟨client, connID, rfl⟩

variable {crypto : Crypto Key} {env : Env} {fuel : ℕ}

theorem sameUpstream_onConn {conn : Endpoint} (hconn : ∀ layer, some conn ≠ some (.upstream layer))
    (program : SocketM α) (s : Net) : SameUpstream s (s.onConn program conn).2 := by
  cases conn with
  | client => exact ⟨_, _, rfl⟩
  | upstream layer => exact absurd rfl (hconn layer)

/-- A call on the client's side leaves the upstream as it is. -/
theorem sameUpstream_handler {c : Call} (hc : ClientSide c) (s : Net) :
    SameUpstream s (handler crypto env fuel c s).2 := by
  cases c with
  | write conn bytes => exact sameUpstream_onConn hc _ s
  | readMessage conn => exact sameUpstream_onConn hc _ s
  | writeMessage conn typ body => exact sameUpstream_onConn hc _ s
  | readPacket conn => exact sameUpstream_onConn hc _ s
  | writePacket conn seq payload => exact sameUpstream_onConn hc _ s
  | readMongoMessage conn => exact sameUpstream_onConn hc _ s
  | writeMongoReply conn reqOpCode responseTo doc => exact sameUpstream_onConn hc _ s
  | writeMongoMessage conn hdr body => exact sameUpstream_onConn hc _ s
  | dial host port => exact absurd rfl (hc .plain)
  | negotiateTLS serverName => exact absurd rfl (hc .plain)
  | authenticatePostgres layer user password => exact absurd rfl (hc layer)
  | authenticateMySQL layer user password database tlsConfig => exact absurd rfl (hc .plain)
  | authenticateMongo layer user password authSource => exact absurd rfl (hc layer)
  | pipe layer => exact absurd rfl (hc layer)
  | _ => exact ⟨_, _, rfl⟩

theorem onConn_of_same {s s' : Net} (h : SameUpstream s s') (program : SocketM α) (layer : Layer) :
    (s.onConn program (.upstream layer)).1 = (s'.onConn program (.upstream layer)).1 ∧
      SameUpstream (s.onConn program (.upstream layer)).2 (s'.onConn program (.upstream layer)).2 := by
  obtain ⟨client, connID, rfl⟩ := h
  rcases s with ⟨_, _, _, up, _, _, _, _, _, _⟩
  cases up <;> exact ⟨rfl, client, connID, rfl⟩

theorem logIn_of_same {s s' : Net} (h : SameUpstream s s') (layer : Layer) (program : SocketM Unit) :
    (s.logIn layer program).1 = (s'.logIn layer program).1 ∧
      SameUpstream (s.logIn layer program).2 (s'.logIn layer program).2 := by
  obtain ⟨client, connID, rfl⟩ := h
  rcases s with ⟨_, _, _, up, _, _, _, _, _, _⟩
  cases up with
  | none => exact ⟨rfl, client, connID, rfl⟩
  | some link =>
    simp only [logIn, onUp]
    cases (link.on layer program).1 <;> exact ⟨rfl, client, connID, rfl⟩

theorem logInMySQL_of_same {s s' : Net} (h : SameUpstream s s') (layer : Layer)
    (user password database : Bytes) (tlsConfig : Option Bytes) :
    (s.logInMySQL crypto fuel layer user password database tlsConfig).1 =
        (s'.logInMySQL crypto fuel layer user password database tlsConfig).1 ∧
      SameUpstream (s.logInMySQL crypto fuel layer user password database tlsConfig).2
        (s'.logInMySQL crypto fuel layer user password database tlsConfig).2 := by
  obtain ⟨client, connID, rfl⟩ := h
  rcases s with ⟨_, _, _, up, _, _, _, _, _, seeds⟩
  cases up with
  | none => exact ⟨rfl, client, connID, rfl⟩
  | some link =>
    simp only [logInMySQL]
    rcases (Mysql.authenticateUpstreamMySQL crypto fuel layer user password database false
      tlsConfig).exec Mysql.Upstream.handler ⟨link, seeds⟩ with ⟨fault | value, u⟩
    · exact ⟨rfl, client, connID, rfl⟩
    · exact ⟨rfl, client, connID, rfl⟩

/-- What a call of a login does does not depend on the client. -/
theorem login_of_same {s s' : Net} (h : SameUpstream s s') {c : Call} (hc : LoginCall c) :
    (handler crypto env fuel c s).1 = (handler crypto env fuel c s').1 ∧
      SameUpstream (handler crypto env fuel c s).2 (handler crypto env fuel c s').2 := by
  cases c with
  | write conn bytes =>
    obtain ⟨layer, rfl⟩ := hc
    exact onConn_of_same h _ layer
  | dial host port =>
    obtain ⟨client, connID, rfl⟩ := h
    rcases s with ⟨_, _, dialled, _, _, _, _, _, _, _⟩
    cases dialled <;> exact ⟨rfl, client, connID, rfl⟩
  | negotiateTLS serverName =>
    obtain ⟨client, connID, rfl⟩ := h
    rcases s with ⟨_, _, _, up, _, _, _, _, _, _⟩
    cases up <;> exact ⟨rfl, client, connID, rfl⟩
  | authenticatePostgres layer user password => exact logIn_of_same h layer _
  | authenticateMySQL layer user password database tlsConfig =>
    exact logInMySQL_of_same h layer user password database tlsConfig
  | authenticateMongo layer user password authSource => exact logIn_of_same h layer _
  | _ => exact hc.elim

theorem login_onConn (s : Net) (program : SocketM α) (conn : Endpoint) :
    (s.onConn program conn).2.login = s.login := by
  cases conn with
  | client => rfl
  | upstream layer =>
    rw [onConn, onUp]
    cases s.up <;> rfl

theorem login_handler {c : Call} (hc : NoLogin c) (s : Net) :
    (handler crypto env fuel c s).2.login = s.login := by
  cases c with
  | authenticatePostgres => exact hc.elim
  | authenticateMySQL => exact hc.elim
  | authenticateMongo => exact hc.elim
  | dial host port =>
    simp only [handler]
    cases s.dialled <;> rfl
  | negotiateTLS serverName =>
    simp only [handler]
    cases s.up <;> rfl
  | write conn bytes => exact login_onConn s _ conn
  | readMessage conn => exact login_onConn s _ conn
  | writeMessage conn typ body => exact login_onConn s _ conn
  | readPacket conn => exact login_onConn s _ conn
  | writePacket conn seq payload => exact login_onConn s _ conn
  | readMongoMessage conn => exact login_onConn s _ conn
  | writeMongoReply conn reqOpCode responseTo doc => exact login_onConn s _ conn
  | writeMongoMessage conn hdr body => exact login_onConn s _ conn
  | _ => rfl

/-! ## Until the upstream is dialled -/

theorem calls_writeErrorResponse (sqlstate message : Bytes) :
    (writeErrorResponse sqlstate message).Calls ClientSide := by
  apply calls_ignoring
  exact ⟨nofun, fun _ ↦ trivial⟩

theorem calls_writeErrorResponse_close (sqlstate message : Bytes) (layer : Layer) :
    (do writeErrorResponse sqlstate message; Handler.close (.upstream layer)).Calls ClientSide :=
  (calls_writeErrorResponse sqlstate message).bind fun _ ↦ ⟨nofun, fun _ ↦ trivial⟩

theorem calls_readUint32 : readUint32.Calls ClientSide := ⟨nofun, fun reply ↦ by cases reply <;> trivial⟩

theorem calls_writeMySQLErr (seq : UInt8) (code : UInt16) (sqlState msg : Bytes) :
    (writeMySQLErr seq code sqlState msg).Calls ClientSide := by
  apply calls_ignoring
  exact ⟨nofun, fun _ ↦ trivial⟩

theorem calls_greetClientMySQL (serverVersion : Bytes) (connectionID : UInt32) :
    (greetClientMySQL serverVersion connectionID).Calls ClientSide := by
  have hrand : (Handler.rand 20).Calls ClientSide := ⟨nofun, fun _ ↦ trivial⟩
  have hsalt : newMySQLSalt.Calls ClientSide := (calls_onError hrand).bind fun _ ↦ trivial
  have hread : (Handler.readPacket .client).Calls ClientSide := ⟨nofun, fun _ ↦ trivial⟩
  apply hsalt.bind
  intro salt
  have hwrite : (Handler.writePacket .client 0
      (mysqlGreeting serverVersion connectionID salt)).Calls ClientSide := ⟨nofun, fun _ ↦ trivial⟩
  apply (calls_onError hwrite).bind
  intro _
  apply (calls_onError hread).bind
  rintro ⟨seq, payload⟩
  have hparse : (Program.lift (Mysql.parseHandshakeResponse41 payload) :
      HandlerM HandshakeResponse41).Calls ClientSide := trivial
  exact hparse.bind fun _ ↦ trivial

/-! ## After the login -/

section Serving

variable (layer : Layer) (rt : ResolvedTarget)

theorem calls_close : (Handler.close (.upstream layer)).Calls (Serves layer) :=
  ⟨serves_of_clientSide nofun, fun _ ↦ trivial⟩

theorem calls_serveConn : (serveConn layer rt).Calls (Serves layer) := by
  have hregister : (Handler.register layer rt).Calls (Serves layer) :=
    ⟨serves_of_clientSide nofun, fun _ ↦ trivial⟩
  have hpipe : (Handler.pipe layer).Calls (Serves layer) :=
    ⟨serves_of_connOf trivial rfl, fun _ ↦ trivial⟩
  have hclose : Handler.closeConn.Calls (Serves layer) :=
    ⟨serves_of_clientSide nofun, fun _ ↦ trivial⟩
  exact hregister.bind fun _ ↦ calls_deferring hpipe hclose

theorem calls_flushBuffered : (flushBuffered layer).Calls (Serves layer) := by
  have hpeek : Handler.peek.Calls (Serves layer) := ⟨serves_of_clientSide nofun, fun _ ↦ trivial⟩
  apply hpeek.bind
  intro buffered
  split
  · have hwrite : (Handler.write (.upstream layer) buffered).Calls (Serves layer) :=
      ⟨serves_of_connOf trivial rfl, fun _ ↦ trivial⟩
    apply (calls_orElse hwrite fun _ ↦ calls_close layer).bind
    exact fun _ ↦ ⟨serves_of_clientSide nofun, fun _ ↦ trivial⟩
  · trivial

/-- The rest of `handleStartup` after the login. -/
theorem calls_tunnel : (do
    orElse (onError (wrapf "write AuthenticationOk to client: %w" []) writeAuthenticationOk)
      fun _ ↦ Handler.close (.upstream layer)
    flushBuffered layer
    serveConn layer rt : HandlerM Unit).Calls (Serves layer) := by
  have hok : writeAuthenticationOk.Calls (Serves layer) :=
    ⟨serves_of_clientSide nofun, fun _ ↦ trivial⟩
  apply (calls_orElse (calls_onError hok) fun _ ↦ calls_close layer).bind
  intro _
  apply (calls_flushBuffered layer).bind
  exact fun _ ↦ calls_serveConn layer rt

theorem calls_pgWaitReady (fuel : ℕ) : (pgWaitReady layer fuel).Calls (Serves layer) := by
  have hread : (Handler.readMessage (.upstream layer)).Calls (Serves layer) :=
    ⟨serves_of_connOf trivial rfl, fun _ ↦ trivial⟩
  induction fuel with
  | zero => trivial
  | succ fuel ih =>
    apply (calls_onError hread).bind
    rintro ⟨typ, body⟩
    dsimp only
    split
    · trivial
    split
    · trivial
    · exact ih

theorem calls_probeQueryPostgres (fuel : ℕ) :
    (probeQueryPostgres layer fuel).Calls (Serves layer) := by
  have hwrite : (Handler.writeMessage (.upstream layer) (ascii 'Q') (str "select 1" ++ [0])).Calls
      (Serves layer) := ⟨serves_of_connOf trivial rfl, fun _ ↦ trivial⟩
  apply (calls_onError (calls_pgWaitReady layer fuel)).bind
  intro _
  apply (calls_onError hwrite).bind
  exact fun _ ↦ calls_onError (calls_pgWaitReady layer fuel)

theorem calls_concludeMySQL (login : ClientLogin) (upCaps : UInt32) :
    (concludeMySQL rt login layer upCaps).Calls (Serves layer) := by
  rw [concludeMySQL]
  split
  · apply ((calls_writeMySQLErr _ _ _ _).mono fun _ hc ↦ serves_of_clientSide hc).bind
    intro _
    exact (calls_close layer).bind fun _ ↦ trivial
  · have hwrite : (Handler.writePacket .client login.nextSeq
        (Mysql.encodeOKPacket 0 0 serverStatusAutocommit 0)).Calls (Serves layer) :=
      ⟨serves_of_clientSide nofun, fun _ ↦ trivial⟩
    apply (calls_orElse (calls_onError hwrite) fun _ ↦ calls_close layer).bind
    exact fun _ ↦ calls_serveConn layer rt

theorem calls_probeQueryMySQL : (probeQueryMySQL layer).Calls (Serves layer) := by
  have hwrite : (Handler.writePacket (.upstream layer) 0 (comQuery :: str "select 1")).Calls
      (Serves layer) := ⟨serves_of_connOf trivial rfl, fun _ ↦ trivial⟩
  have hread : (Handler.readPacket (.upstream layer)).Calls (Serves layer) :=
    ⟨serves_of_connOf trivial rfl, fun _ ↦ trivial⟩
  apply (calls_onError hwrite).bind
  intro _
  exact (calls_onError hread).bind fun _ ↦ trivial

end Serving

end DbPivot.Proxy.Net
