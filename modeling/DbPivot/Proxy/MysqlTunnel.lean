import DbPivot.Mysql.Auth
import DbPivot.Proxy.Tunnel

/-!
# The tunnel of a MySQL client

The proxy greets a MySQL client itself and reads one packet from it, straight from the connection
and not a byte more. It logs in upstream on its own account, with packets that the client never
sees, and then tells the client that it is logged in. So there is nothing in hand when the copying
starts: what the client sends behind its login packet goes to the upstream from there on, and what
the upstream sends behind its own OK goes to the client behind the proxy's.

At every moment of every run, what was carried in either direction is a beginning of that. A login
whose two legs do not agree on the framing of result sets carries nothing at all.
-/

namespace DbPivot.Proxy.MysqlTunnel

open DbPivot.Go DbPivot.Config DbPivot.System
open DbPivot.Mongo (Env)
open DbPivot.Mysql (Crypto IsPacket packetBytes lastSeq okPacketHeader)
open Net (ClientSide NoLogin)
open Tunnel (Carried carried_of_total Final fresh)

/-- The packet with which a client logs in, however long it is. -/
structure LoginPacket where
  seq : UInt8
  payload : Bytes

namespace LoginPacket

def bytes (packet : LoginPacket) : Bytes := packetBytes packet.seq packet.payload

/-- The packet that tells the client that it is logged in. -/
def accepted (packet : LoginPacket) : Bytes :=
  packetBytes (lastSeq packet.seq packet.payload + 1)
    (Mysql.encodeOKPacket 0 0 serverStatusAutocommit 0)

/-- The packet that tells the client that the legs do not match. -/
def mismatched (packet : LoginPacket) : Bytes :=
  packetBytes (lastSeq packet.seq packet.payload + 1)
    (Mysql.encodeERRPacket erUnknownError (str "HY000")
      (str "proxy/upstream capability mismatch (CLIENT_DEPRECATE_EOF)"))

end LoginPacket

/-- The salt that `newMySQLSalt` makes of random bytes. -/
def saltOf (random : Except GoError Bytes) : Bytes :=
  (random.toOption.getD []).map fun b ↦ if b = 0 then 1 else b

/-- The greeting of a connection. -/
def greetingOf (net : Net) : Bytes :=
  packetBytes 0 (mysqlGreeting mysqlServerVersion (net.connID + 1) (saltOf net.random))

/-- What was received ends with an OK packet. -/
def EndsWithOk (received : Bytes) : Prop :=
  ∃ before packet payload, received = before ++ packet ∧ IsPacket packet payload ∧
    payload.head? = some okPacketHeader

/-- The login: what was received over the layer ends with the upstream's OK packet, and nothing
behind that was read. -/
def LoggedIn (dialled : Except GoError Link) (layer : Layer) (up : Socket) : Prop :=
  ∃ link initial received, dialled = .ok link ∧ fresh link layer = some initial ∧
    initial.input = received ++ up.input ∧ EndsWithOk received

/-- After a login, both directions carry what they should. -/
def Tunnelled (greeting : Bytes) (packet : LoginPacket) (rest : Bytes) (s : Net) : Prop :=
  ∀ layer link, s.login = some (layer, link) → ∃ up forwarded told,
    link.socket layer = some up ∧ LoggedIn s.dialled layer up ∧
    s.upWritten layer = up.output ++ forwarded ∧
    Carried rest forwarded s.clientPending s.clientUnread ∧
    s.clientWritten = greeting ++ told ∧
    (told <+: packet.accepted ∧ forwarded = [] ∨ told <+: packet.mismatched ∧ forwarded = [] ∨
      ∃ relayed, told = packet.accepted ++ relayed ∧
        Carried up.input relayed s.upPending (s.upUnread layer))

/-! ## What a login reads -/

section Login

variable {Key : Type} {crypto : Crypto Key} {conn : Layer} {u u' : Mysql.Upstream}

/-- These bytes were taken from the connection. -/
def Took (conn : Layer) (u u' : Mysql.Upstream) (received : Bytes) : Prop :=
  ∃ before after, u.link.socket conn = some before ∧ u'.link.socket conn = some after ∧
    before.input = received ++ after.input

theorem Took.trans {u₁ u₂ u₃ : Mysql.Upstream} {received received' : Bytes}
    (h : Took conn u₁ u₂ received) (h' : Took conn u₂ u₃ received') :
    Took conn u₁ u₃ (received ++ received') := by
  obtain ⟨before, middle, hbefore, hmiddle, hinput⟩ := h
  obtain ⟨middle', after, hmiddle', hafter, hinput'⟩ := h'
  obtain rfl := Option.some.inj (hmiddle.symm.trans hmiddle')
  exact ⟨before, after, hbefore, hafter, by rw [hinput, hinput', List.append_assoc]⟩

/-- The connection is still there, with nothing read. -/
theorem Took.refl {u₀ : Mysql.Upstream} {received : Bytes} (h : Took conn u₀ u received) :
    Took conn u u [] := by
  obtain ⟨before, after, -, hafter, -⟩ := h
  exact ⟨after, after, hafter, hafter, rfl⟩

/-- Only a connection that is there takes part in a call that succeeds. -/
theorem exists_socket_of_on {α : Type} {link : Link} {program : SocketM α} {value : α}
    (h : (link.on conn program).1 = .ok value) : ∃ before, link.socket conn = some before := by
  obtain ⟨plain, tls, handshake⟩ := link
  cases conn with
  | plain => exact ⟨plain, rfl⟩
  | tls =>
    cases tls with
    | some inner => exact ⟨inner, rfl⟩
    | none => cases h

theorem took_readPacket {context : String} {value : UInt8 × Bytes}
    (h : (Mysql.Login.readPacket conn context).exec Mysql.Upstream.handler u = (.ok value, u')) :
    ∃ packet, IsPacket packet value.2 ∧ Took conn u u' packet := by
  obtain ⟨hvalue, rfl⟩ := Prod.mk.inj h
  have hok := mapErr_eq_ok.mp hvalue
  obtain ⟨before, hbefore⟩ := exists_socket_of_on hok
  obtain ⟨hresult, hafter⟩ := Link.on_of_socket hbefore Mysql.readPacket
  have hread : Mysql.readPacket.run before = (.ok value, (Mysql.readPacket.run before).2) :=
    Prod.ext (hresult.symm.trans hok) rfl
  obtain ⟨packet, hpacket, hinput⟩ := Mysql.isPacket_of_readPacket hread
  exact ⟨packet, hpacket, before, _, hbefore, hafter, congrArg Socket.input hinput⟩

/-- A step of a login that computes leaves the connections as they are. -/
theorem of_lift_bind {α β : Type} {first : GoM GoError α} {next : α → Mysql.LoginM β} {result : β}
    (h : ((Program.lift first : Mysql.LoginM α) >>= next).exec Mysql.Upstream.handler u =
      (.ok result, u')) :
    ∃ value, first = .ok value ∧ (next value).exec Mysql.Upstream.handler u = (.ok result, u') := by
  obtain ⟨value, middle, hfirst, hnext⟩ := Program.exec_bind_eq_ok.mp h
  obtain ⟨hvalue, rfl⟩ := Prod.mk.inj hfirst
  exact ⟨value, hvalue, hnext⟩

theorem took_writePacket {seq next : UInt8} {payload : Bytes} {change : GoError → GoError}
    (h : (Mysql.Login.writePacket conn seq payload change).exec Mysql.Upstream.handler u =
      (.ok next, u')) : Took conn u u' [] := by
  obtain ⟨hvalue, rfl⟩ := Prod.mk.inj h
  have hok : ∃ value, (u.link.on conn (Mysql.writePacket seq payload)).1 = .ok value := by
    cases hwrite : (u.link.on conn (Mysql.writePacket seq payload)).1 with
    | ok value => exact ⟨value, rfl⟩
    | error fault =>
      simp only [Mysql.Upstream.handler, hwrite] at hvalue
      exact absurd (mapErr_eq_ok.mp hvalue) (by simp [Except.map])
  obtain ⟨value, hok⟩ := hok
  obtain ⟨before, hbefore⟩ := exists_socket_of_on hok
  obtain ⟨-, hafter⟩ := Link.on_of_socket hbefore (Mysql.writePacket seq payload)
  refine ⟨before, _, hbefore, hafter, ?_⟩
  rw [Mysql.writePacket_eq, SocketM.run_bind]
  obtain ⟨-, -, -, hinput, -⟩ := run_write (packetBytes seq payload) before
  rcases hrun : (write (packetBytes seq payload)).run before with ⟨fault | _, after⟩
  · rw [hrun] at hinput
    exact hinput.symm
  · rw [hrun] at hinput
    exact hinput.symm

theorem took_mysqlCachingSHA2RSA {seq next : UInt8} {password salt : Bytes}
    (h : (Mysql.mysqlCachingSHA2RSA crypto conn seq password salt).exec Mysql.Upstream.handler u =
      (.ok next, u')) : ∃ received, Took conn u u' received := by
  obtain ⟨_, u₁, hrequest, h⟩ := Program.exec_bind_eq_ok.mp h
  obtain ⟨⟨rseq, payload⟩, u₂, hread, h⟩ := Program.exec_bind_eq_ok.mp h
  obtain ⟨_, -, h⟩ := of_lift_bind h
  obtain ⟨pub, -, h⟩ := of_lift_bind h
  obtain ⟨seed, u₃, hseed, h⟩ := Program.exec_bind_eq_ok.mp h
  obtain ⟨enc, -, hwrite⟩ := of_lift_bind h
  obtain ⟨packet, -, hpacket⟩ := took_readPacket hread
  -- The seed is drawn from the world and not from the connection.
  have hdrawn : Took conn u₂ u₃ [] := by
    obtain ⟨-, rfl⟩ := Prod.mk.inj hseed
    exact hpacket.refl
  exact ⟨_, (((took_writePacket hrequest).trans hpacket).trans hdrawn).trans
    (took_writePacket hwrite)⟩

theorem took_mysqlCachingSHA2More {u₀ : Mysql.Upstream} {earlier : Bytes} {seq next : UInt8}
    {payload password salt : Bytes} {secure : Bool} (hconn : Took conn u₀ u earlier)
    (h : (Mysql.mysqlCachingSHA2More crypto conn seq payload password salt secure).exec
      Mysql.Upstream.handler u = (.ok next, u')) : ∃ received, Took conn u u' received := by
  unfold Mysql.mysqlCachingSHA2More at h
  split at h
  · split_ifs at h
    · obtain ⟨-, rfl⟩ := Prod.mk.inj h
      exact ⟨[], hconn.refl⟩
    · exact ⟨[], took_writePacket h⟩
    · exact ⟨[], took_writePacket h⟩
    · exact took_mysqlCachingSHA2RSA h
    · exact absurd (Prod.mk.inj h).1 (fail_ne_ok _ _)
  · exact absurd (Prod.mk.inj h).1 (fail_ne_ok _ _)

/-- What came before does not matter to how it ends. -/
theorem EndsWithOk.append {received : Bytes} (h : EndsWithOk received) (earlier : Bytes) :
    EndsWithOk (earlier ++ received) := by
  obtain ⟨before, packet, payload, rfl, hpacket, hok⟩ := h
  exact ⟨earlier ++ before, packet, payload, (List.append_assoc _ _ _).symm, hpacket, hok⟩

/-- `mysqlFinishAuth` returns when it has read the OK packet. -/
theorem took_mysqlFinishAuth {password : Bytes} {secure : Bool} {fuel : ℕ} {seq : UInt8}
    {plugin salt : Bytes}
    (h : (Mysql.mysqlFinishAuth crypto conn password secure fuel seq plugin salt).exec
      Mysql.Upstream.handler u = (.ok (), u')) :
    ∃ received, Took conn u u' received ∧ EndsWithOk received := by
  -- The rounds with the upstream, one packet read in each.
  induction fuel generalizing u seq plugin salt with
  | zero => cases (Prod.mk.inj h).1
  | succ fuel ih =>
    obtain ⟨⟨rseq, payload⟩, u₁, hread, h⟩ := Program.exec_bind_eq_ok.mp h
    obtain ⟨packet, hpacket, htook⟩ := took_readPacket hread
    cases payload with
    | nil => exact absurd (Prod.mk.inj h).1 (fail_ne_ok _ _)
    | cons header tail =>
      dsimp only at h
      split_ifs at h with hok herr hswitch hmore
      · obtain ⟨-, rfl⟩ := Prod.mk.inj h
        exact ⟨packet, htook, [], packet, header :: tail, rfl, hpacket, congrArg some hok⟩
      · exact absurd (Prod.mk.inj h).1 (fail_ne_ok _ _)
      · obtain ⟨⟨newPlugin, np⟩, -, h⟩ := of_lift_bind h
        obtain ⟨authResp, -, h⟩ := of_lift_bind h
        obtain ⟨seq, u₂, hwrite, h⟩ := Program.exec_bind_eq_ok.mp h
        obtain ⟨received, hreceived, hends⟩ := ih h
        exact ⟨_, (htook.trans (took_writePacket hwrite)).trans hreceived, hends.append _⟩
      · obtain ⟨_, -, h⟩ := of_lift_bind h
        obtain ⟨seq, u₂, hmoreData, h⟩ := Program.exec_bind_eq_ok.mp h
        obtain ⟨middle, hmiddle⟩ := took_mysqlCachingSHA2More htook hmoreData
        obtain ⟨received, hreceived, hends⟩ := ih h
        exact ⟨_, (htook.trans hmiddle).trans hreceived, hends.append _⟩
      · exact absurd (Prod.mk.inj h).1 (fail_ne_ok _ _)

/-- Reading and writing do not touch the handshake to come. -/
theorem handshake_exec {α : Type} {program : Mysql.LoginM α} {result : GoM GoError α}
    (h : program.exec Mysql.Upstream.handler u = (result, u')) :
    u'.link.handshake = u.link.handshake := by
  induction program generalizing u with
  | done _ =>
    obtain ⟨-, rfl⟩ := Prod.mk.inj h
    rfl
  | call c next ih =>
    refine (ih _ h).trans ?_
    obtain ⟨⟨plain, tls, handshake⟩, seeds⟩ := u
    cases c with
    | readPacket layer => cases layer <;> cases tls <;> rfl
    | writePacket layer seq payload => cases layer <;> cases tls <;> rfl
    | handshake serverName => cases handshake <;> rfl
    | entropy => rfl

/-- The connection to go on with after the upgrade: the one there was, after what was read from it,
or a new one. -/
theorem fresh_of_upgrade {link : Link} {hs : Mysql.HandshakeV10} {caps : UInt32} {seq : UInt8}
    {secure : Bool} {tlsConfig : Option Bytes} {value : Layer × UInt32 × UInt8 × Bool}
    {seeds : List Bytes} {received : Bytes} (htook : Took .plain ⟨link, seeds⟩ u received)
    (hlink : u.link.handshake = link.handshake)
    (h : (Mysql.upgrade .plain hs caps seq secure tlsConfig).exec Mysql.Upstream.handler u =
      (.ok value, u')) :
    ∃ initial after before, fresh link value.1 = some initial ∧
      u'.link.socket value.1 = some after ∧ initial.input = before ++ after.input := by
  cases tlsConfig with
  | none =>
    obtain ⟨hvalue, rfl⟩ := Prod.mk.inj h
    obtain rfl := Except.ok.inj hvalue
    obtain ⟨initial, after, hinitial, hafter, hinput⟩ := htook
    exact ⟨initial, after, received, hinitial, hafter, hinput⟩
  | some serverName =>
    obtain ⟨_, -, h⟩ := of_lift_bind h
    obtain ⟨seq, u₁, hwrite, h⟩ := Program.exec_bind_eq_ok.mp h
    obtain ⟨_, u₂, hhandshake, h⟩ := Program.exec_bind_eq_ok.mp h
    obtain ⟨hvalue, rfl⟩ := Prod.mk.inj h
    obtain rfl := Except.ok.inj hvalue
    obtain ⟨hok, rfl⟩ := Prod.mk.inj hhandshake
    have hsame : u₁.link.handshake = link.handshake := (handshake_exec hwrite).trans hlink
    obtain ⟨⟨plain, tls, handshake⟩, seeds'⟩ := u₁
    cases handshake with
    | error err => exact absurd (mapErr_eq_ok.mp hok) (fail_ne_ok _ _)
    | ok inner =>
      refine ⟨inner, inner, [], ?_, rfl, rfl⟩
      change link.handshake.toOption = some inner
      rw [← hsame]
      rfl

/-- What a login that succeeds has read from the connection it goes on with. -/
theorem loggedIn_of_login {link : Link} {seeds : List Bytes} {user password database : Bytes}
    {secure : Bool} {tlsConfig : Option Bytes} {fuel : ℕ}
    {value : Layer × Mysql.HandshakeV10 × UInt32}
    (h : (Mysql.authenticateUpstreamMySQL crypto fuel .plain user password database secure
      tlsConfig).exec Mysql.Upstream.handler ⟨link, seeds⟩ = (.ok value, u')) :
    ∃ up, u'.link.socket value.1 = some up ∧ LoggedIn (.ok link) value.1 up := by
  obtain ⟨⟨seq, payload⟩, u₁, hread, h⟩ := Program.exec_bind_eq_ok.mp h
  obtain ⟨_, -, h⟩ := of_lift_bind h
  obtain ⟨hs, -, h⟩ := of_lift_bind h
  obtain ⟨⟨layer, caps, seq, secure⟩, u₂, hupgrade, h⟩ := Program.exec_bind_eq_ok.mp h
  obtain ⟨authResp, -, h⟩ := of_lift_bind h
  obtain ⟨seq, u₃, hwrite, h⟩ := Program.exec_bind_eq_ok.mp h
  obtain ⟨_, u₄, hfinish, h⟩ := Program.exec_bind_eq_ok.mp h
  obtain ⟨hvalue, rfl⟩ := Prod.mk.inj h
  obtain rfl := Except.ok.inj hvalue
  obtain ⟨packet, -, hgreeting⟩ := took_readPacket hread
  obtain ⟨initial, middle, before, hinitial, hmiddle, hinput⟩ :=
    fresh_of_upgrade hgreeting (handshake_exec hread) hupgrade
  obtain ⟨received, hreceived, hends⟩ := took_mysqlFinishAuth hfinish
  obtain ⟨middle', up, hmiddle', hup, hinput'⟩ := (took_writePacket hwrite).trans hreceived
  obtain rfl := Option.some.inj (hmiddle.symm.trans hmiddle')
  refine ⟨up, hup, link, initial, before ++ received, rfl, hinitial, ?_, hends.append before⟩
  rw [hinput, hinput', List.nil_append, List.append_assoc]

end Login

/-! ## Before the login -/

variable {Key α : Type} {crypto : Crypto Key} {env : Env} {fuel : ℕ} {greeting : Bytes}
  {packet : LoginPacket} {rest written stream : Bytes} {s : Net}

/-- A part of the handler under which the tunnel stays in order, and what it leads to. -/
abbrev Tunnels (crypto : Crypto Key) (env : Env) (fuel : ℕ) (greeting : Bytes)
    (packet : LoginPacket) (rest : Bytes) (value : α → Net → Prop) (program : HandlerM α)
    (s : Net) : Prop :=
  Ensures (Net.world crypto env fuel fun _ ↦ True) (Tunnelled greeting packet rest)
    (OnReturn value fun _ ↦ True) program s

theorem tunnelled_of_login (h : s.login = none) : Tunnelled greeting packet rest s := by
  intro layer link hlogin
  rw [h] at hlogin
  cases hlogin

/-- The handler has written this to the client, which is going to send this; nothing is in hand. -/
structure Waiting (written stream : Bytes) (s : Net) : Prop where
  login : s.login = none
  pipe : s.pipe = none
  buffer : s.client.buffer = []
  written : s.client.conn.output = written
  stream : s.client.conn.input = stream

theorem Waiting.tunnelled (h : Waiting written stream s) : Tunnelled greeting packet rest s :=
  tunnelled_of_login h.login

/-- Without a login the tunnel is in order. -/
theorem tunnels_clientSide {program : HandlerM α} (hcalls : program.Calls ClientSide)
    (hs : s.login = none) :
    Tunnels crypto env fuel greeting packet rest (fun _ _ ↦ True) program s := by
  have hkeeps : Ensures (Net.world crypto env fuel fun _ ↦ True) (Tunnelled greeting packet rest)
      (fun _ s ↦ s.login = none) program s := by
    apply Net.ensures_of_calls fun s hs ↦ tunnelled_of_login hs
    · intro s c hc hs
      exact (Net.login_handler (Net.noLogin_of_clientSide hc) s).trans hs
    · intro s c s' _ hs hprogress
      cases hprogress with
      | start _ _ _ => exact hs
      | step _ _ => exact hs
    · exact hcalls
    · exact hs
  exact hkeeps.mono fun result _ _ ↦
    onReturn_of_forall result (fun _ _ ↦ trivial) fun _ _ ↦ trivial

/-- A packet for the client, on its connection. -/
theorem run_writePacket (seq : UInt8) (payload : Bytes) (c : Socket) :
    ∃ part, part <+: packetBytes seq payload ∧
      ((do let _ ← Mysql.writePacket seq payload; pure () : SocketM Unit).run c).2.output =
        c.output ++ part ∧
      ((do let _ ← Mysql.writePacket seq payload; pure () : SocketM Unit).run c).2.input = c.input ∧
      (((do let _ ← Mysql.writePacket seq payload; pure () : SocketM Unit).run c).1 = .ok () →
        part = packetBytes seq payload) := by
  have hsame : (do let _ ← Mysql.writePacket seq payload; pure () : SocketM Unit) =
      write (packetBytes seq payload) := by
    rw [Mysql.writePacket_eq, bind_assoc]
    exact bind_pure _
  rw [hsame]
  exact run_write (packetBytes seq payload) c

theorem tunnels_greet (seq : UInt8) (payload : Bytes) (hs : Waiting written stream s) :
    Tunnels crypto env fuel greeting packet rest
      (fun _ ↦ Waiting (written ++ packetBytes seq payload) stream)
      (Handler.writePacket .client seq payload) s := by
  obtain ⟨part, -, houtput, hinput, hok⟩ := run_writePacket seq payload s.client.conn
  apply Net.ensures_direct (c := .writePacket .client seq payload) trivial hs.tunnelled
  refine ⟨tunnelled_of_login hs.login, onReturn_of_forall _ ?_ fun _ _ ↦ trivial⟩
  intro _ hresult
  refine ⟨hs.login, hs.pipe, hs.buffer, ?_, hinput.trans hs.stream⟩
  rw [← hs.written, ← hok hresult]
  exact houtput

/-- The login packet is read, and nothing behind it. -/
theorem tunnels_readPacket (hs : Waiting written (packet.bytes ++ rest) s) :
    Tunnels crypto env fuel greeting packet rest
      (fun value s' ↦ value = (lastSeq packet.seq packet.payload, packet.payload) ∧
        Waiting written rest s')
      (Handler.readPacket .client) s := by
  have hconn : s.client.conn = { s.client.conn with input := packet.bytes ++ rest } := by
    rw [← hs.stream]
  have hread : Mysql.readPacket.run s.client.conn =
      (.ok (lastSeq packet.seq packet.payload, packet.payload),
        { s.client.conn with input := rest }) := by
    rw [hconn]
    exact Mysql.readPacket_packetBytes packet.seq packet.payload { s.client.conn with input := rest }
  have hafter : Waiting written rest
      { s with client := { s.client with conn := { s.client.conn with input := rest } } } :=
    ⟨hs.login, hs.pipe, hs.buffer, hs.written, rfl⟩
  apply Net.ensures_direct (c := .readPacket .client) trivial hs.tunnelled
  simp only [Net.handler, Net.onConn, hread]
  exact ⟨hafter.tunnelled, rfl, hafter⟩

theorem tunnels_newMySQLSalt (hs : Waiting written stream s) :
    Tunnels crypto env fuel greeting packet rest
      (fun salt s' ↦ salt = saltOf s.random ∧ s' = s) newMySQLSalt s := by
  have hrand : Tunnels crypto env fuel greeting packet rest
      (fun bytes s' ↦ s.random = .ok bytes ∧ s' = s) (Handler.rand 20) s := by
    apply Net.ensures_direct (c := .rand 20) trivial hs.tunnelled
    refine ⟨hs.tunnelled, onReturn_of_forall _ (fun bytes hbytes ↦ ⟨?_, rfl⟩) fun _ _ ↦ trivial⟩
    simp only [Net.handler] at hbytes
    cases hrandom : s.random with
    | ok random =>
      rw [hrandom] at hbytes
      rw [Except.ok.inj hbytes]
    | error err =>
      rw [hrandom] at hbytes
      exact absurd hbytes (fail_ne_ok _ _)
  apply ensures_bind (ensures_onError hrand)
  rintro bytes s' htunnelled ⟨hrandom, rfl⟩
  refine ⟨htunnelled, ?_, rfl⟩
  rw [saltOf, hrandom]
  rfl

/-- The client was greeted and has sent its login packet. -/
theorem tunnels_greetClientMySQL (connectionID : UInt32)
    (hs : Waiting [] (packet.bytes ++ rest) s)
    (hgreeting : greeting =
      packetBytes 0 (mysqlGreeting mysqlServerVersion connectionID (saltOf s.random))) :
    Tunnels crypto env fuel greeting packet rest
      (fun login s' ↦ login.nextSeq = lastSeq packet.seq packet.payload + 1 ∧
        Waiting greeting rest s')
      (greetClientMySQL mysqlServerVersion connectionID) s := by
  apply ensures_bind (tunnels_newMySQLSalt hs)
  rintro _ s _ ⟨rfl, rfl⟩
  apply ensures_bind (ensures_onError (tunnels_greet 0 _ hs))
  intro _ s _ hs
  rw [List.nil_append, ← hgreeting] at hs
  apply ensures_bind (ensures_onError (tunnels_readPacket hs))
  rintro _ s htunnelled ⟨rfl, hs⟩
  apply ensures_liftBind htunnelled trivial
  intro response _
  exact ⟨htunnelled, rfl, hs⟩

/-! ## The login -/

variable {layer : Layer} {told : Bytes}

/-- The handler after the login, and what the client was told. -/
structure Accepted (greeting rest told : Bytes) (layer : Layer) (s : Net) : Prop where
  pipe : s.pipe = none
  buffer : s.client.buffer = []
  told : s.client.conn.output = greeting ++ told
  stream : s.client.conn.input = rest
  login : ∃ link up, s.login = some (layer, link) ∧ s.up = some link ∧
    link.socket layer = some up ∧ LoggedIn s.dialled layer up

theorem Accepted.tunnelled (h : Accepted greeting rest told layer s)
    (hpart : told <+: packet.accepted ∨ told <+: packet.mismatched) :
    Tunnelled greeting packet rest s := by
  obtain ⟨link, up, hlogin, hup, hsocket, hloggedIn⟩ := h.login
  intro layer' link' hlogin'
  rw [hlogin] at hlogin'
  obtain ⟨rfl, rfl⟩ := Prod.mk.inj (Option.some.inj hlogin')
  refine ⟨up, [], told, hsocket, hloggedIn, ?_, ?_, ?_, ?_⟩
  · simp only [Net.upWritten, h.pipe, hup, Option.bind_some, hsocket, Option.map_some,
      Option.getD_some, List.append_nil]
  · refine ⟨List.nil_prefix, fun _ ↦ ?_⟩
    simp only [Net.clientUnread, h.pipe, h.stream, List.nil_append]
  · simp only [Net.clientWritten, h.pipe, h.told]
  · rcases hpart with hpart | hpart
    · exact .inl ⟨hpart, rfl⟩
    · exact .inr (.inl ⟨hpart, rfl⟩)

theorem tunnels_dial (hs : Waiting written stream s) (host : Bytes) (port : ℤ) :
    Ensures (Net.world crypto env fuel fun _ ↦ True) (Tunnelled greeting packet rest)
      (OnReturn (fun _ s' ↦ Waiting written stream s' ∧
        ∃ link, s'.dialled = .ok link ∧ s'.up = some link)
        fun s' ↦ s'.login = none) (Handler.dial host port) s := by
  apply Net.ensures_direct (c := .dial host port) trivial hs.tunnelled
  simp only [Net.handler]
  cases hdialled : s.dialled with
  | error err => exact ⟨hs.tunnelled, hs.login⟩
  | ok link =>
    exact ⟨tunnelled_of_login hs.login,
      ⟨hs.login, hs.pipe, hs.buffer, hs.written, hs.stream⟩, link, rfl, rfl⟩

theorem tunnels_authenticateMySQL {link : Link} (hs : Waiting greeting rest s)
    (hdialled : s.dialled = .ok link) (hup : s.up = some link) (user password database : Bytes)
    (tlsConfig : Option Bytes) :
    Ensures (Net.world crypto env fuel fun _ ↦ True) (Tunnelled greeting packet rest)
      (OnReturn (fun value ↦ Accepted greeting rest [] value.1) fun s' ↦ s'.login = none)
      (Handler.authenticateMySQL .plain user password database tlsConfig) s := by
  apply Net.ensures_direct (c := .authenticateMySQL .plain _ _ _ _) trivial hs.tunnelled
  simp only [Net.handler, Net.logInMySQL, hup]
  rcases hexec : (Mysql.authenticateUpstreamMySQL crypto fuel .plain user password database false
    tlsConfig).exec Mysql.Upstream.handler ⟨link, s.seeds⟩ with ⟨fault | ⟨conn, hs', caps⟩, u⟩
  · exact ⟨tunnelled_of_login hs.login, onReturn_of_forall _ (fun _ h ↦ absurd h (by simp))
      fun _ _ ↦ hs.login⟩
  · obtain ⟨up, hsocket, hloggedIn⟩ := loggedIn_of_login hexec
    have hafter : Accepted greeting rest [] conn
        { s with up := some u.link, login := some (conn, u.link), seeds := u.seeds } := by
      refine ⟨hs.pipe, hs.buffer, ?_, hs.stream, u.link, up, rfl, rfl, hsocket, ?_⟩
      · rw [List.append_nil]
        exact hs.written
      · exact hdialled.symm ▸ hloggedIn
    exact ⟨hafter.tunnelled (.inl List.nil_prefix), hafter⟩

theorem tunnels_loginMySQL (hs : Waiting greeting rest s) (rt : ResolvedTarget)
    (login : ClientLogin) :
    Tunnels crypto env fuel greeting packet rest (fun value ↦ Accepted greeting rest [] value.1)
      (loginMySQL env rt login) s := by
  apply ensures_bind (ensures_orElse (tunnels_dial hs rt.host rt.port) fun _ _ _ hlogin ↦
    tunnels_clientSide (Net.calls_writeMySQLErr _ _ _ _) hlogin)
  rintro _ s _ ⟨hs, link, hdialled, hup⟩
  have hclose : (Handler.close (.upstream .plain)).Calls ClientSide := by
    refine ⟨?_, fun _ ↦ trivial⟩
    intro layer h
    cases h
  exact ensures_orElse (tunnels_authenticateMySQL hs hdialled hup _ _ _ _) fun _ _ _ hlogin ↦
    tunnels_clientSide ((Net.calls_writeMySQLErr _ _ _ _).bind fun _ ↦ hclose) hlogin

/-! ## What the client is told -/

/-- A packet for the client after the login, of which a part may be out. -/
theorem Accepted.tell (crypto : Crypto Key) (env : Env) (fuel : ℕ)
    (h : Accepted greeting rest [] layer s) (seq : UInt8) (payload : Bytes) :
    ∃ part, part <+: packetBytes seq payload ∧
      Accepted greeting rest part layer
        (Net.handler crypto env fuel (.writePacket .client seq payload) s).2 ∧
      ((Net.handler crypto env fuel (.writePacket .client seq payload) s).1 = .ok () →
        part = packetBytes seq payload) := by
  obtain ⟨part, hpart, houtput, hinput, hok⟩ := run_writePacket seq payload s.client.conn
  refine ⟨part, hpart, ⟨h.pipe, h.buffer, ?_, hinput.trans h.stream, h.login⟩, hok⟩
  refine houtput.trans ?_
  rw [h.told, List.append_nil]

theorem tunnels_accept {seq : UInt8} (hseq : seq = lastSeq packet.seq packet.payload + 1)
    (hs : Accepted greeting rest [] layer s) :
    Tunnels crypto env fuel greeting packet rest
      (fun _ ↦ Accepted greeting rest packet.accepted layer)
      (Handler.writePacket .client seq (Mysql.encodeOKPacket 0 0 serverStatusAutocommit 0)) s := by
  subst hseq
  obtain ⟨part, hpart, hafter, hok⟩ := hs.tell crypto env fuel
    (lastSeq packet.seq packet.payload + 1) (Mysql.encodeOKPacket 0 0 serverStatusAutocommit 0)
  have htunnelled : Tunnelled greeting packet rest s := hs.tunnelled (.inl List.nil_prefix)
  apply Net.ensures_direct (c := .writePacket .client _ _) trivial htunnelled
  refine ⟨hafter.tunnelled (.inl hpart), onReturn_of_forall _ ?_ fun _ _ ↦ trivial⟩
  intro _ hresult
  rw [LoginPacket.accepted, ← hok hresult]
  exact hafter

/-- `Close` changes nothing about what was carried. -/
theorem tunnels_close (hs : Tunnelled greeting packet rest s) (conn : Endpoint) :
    Tunnels crypto env fuel greeting packet rest (fun _ _ ↦ True) (Handler.close conn) s := by
  apply Net.ensures_direct (c := .close conn) trivial hs
  exact ⟨hs, trivial⟩

theorem tunnels_mismatch {seq : UInt8} (hseq : seq = lastSeq packet.seq packet.payload + 1)
    (hs : Accepted greeting rest [] layer s) :
    Tunnels crypto env fuel greeting packet rest (fun _ _ ↦ True)
      (writeMySQLErr seq erUnknownError (str "HY000")
        (str "proxy/upstream capability mismatch (CLIENT_DEPRECATE_EOF)")) s := by
  subst hseq
  obtain ⟨part, hpart, hafter, -⟩ := hs.tell crypto env fuel
    (lastSeq packet.seq packet.payload + 1) (Mysql.encodeERRPacket erUnknownError (str "HY000")
      (str "proxy/upstream capability mismatch (CLIENT_DEPRECATE_EOF)"))
  apply ensures_ignoring
  have htunnelled : Tunnelled greeting packet rest s := hs.tunnelled (.inl List.nil_prefix)
  apply Net.ensures_direct (c := .writePacket .client _ _) trivial htunnelled
  exact ⟨hafter.tunnelled (.inr hpart),
    onReturn_of_forall _ (fun _ _ ↦ trivial) fun _ _ ↦ trivial⟩

/-! ## The pipe -/

/-- The pipe carries what is left, both ways, after what was written before it. -/
structure Piping (greeting : Bytes) (packet : LoginPacket) (rest : Bytes) (layer : Layer)
    (s : Net) : Prop where
  buffer : s.client.buffer = []
  pipe : ∃ link up pipe, s.login = some (layer, link) ∧ link.socket layer = some up ∧
    LoggedIn s.dialled layer up ∧ s.pipe = some (layer, pipe) ∧
    up.output <+: pipe.toUp.written ∧ pipe.toUp.total = up.output ++ rest ∧
    greeting ++ packet.accepted <+: pipe.toClient.written ∧
    pipe.toClient.total = greeting ++ packet.accepted ++ up.input

theorem Piping.tunnelled (h : Piping greeting packet rest layer s) :
    Tunnelled greeting packet rest s := by
  obtain ⟨link, up, pipe, hlogin, hsocket, hloggedIn, hpipe, hup, htotalUp, hclient,
    htotalClient⟩ := h.pipe
  obtain ⟨forwarded, hforwarded, hcarried⟩ := carried_of_total hup htotalUp
  obtain ⟨relayed, hrelayed, hcarriedBack⟩ := carried_of_total hclient htotalClient
  intro layer' link' hlogin'
  rw [hlogin] at hlogin'
  obtain ⟨rfl, rfl⟩ := Prod.mk.inj (Option.some.inj hlogin')
  refine ⟨up, forwarded, packet.accepted ++ relayed, hsocket, hloggedIn, ?_, ?_, ?_,
    .inr (.inr ⟨relayed, rfl, ?_⟩)⟩
  · simp only [Net.upWritten, hpipe, if_true]
    exact hforwarded
  · simp only [Net.clientPending, Net.clientUnread, hpipe, h.buffer, List.nil_append]
    exact hcarried
  · simp only [Net.clientWritten, hpipe]
    rw [hrelayed, List.append_assoc]
  · simp only [Net.upPending, Net.upUnread, hpipe]
    exact hcarriedBack

/-- The pipe starts where the connections stand. -/
theorem Accepted.startPipe (h : Accepted greeting rest packet.accepted layer s) {link : Link}
    {up : Socket} (hlink : s.up = some link) (hup : link.socket layer = some up) :
    Piping greeting packet rest layer
      { s with pipe := some (layer, Net.startPipe s.client.conn up) } := by
  obtain ⟨link', up', hlogin, hlink', hup', hloggedIn⟩ := h.login
  obtain rfl := Option.some.inj (hlink'.symm.trans hlink)
  obtain rfl := Option.some.inj (hup'.symm.trans hup)
  refine ⟨h.buffer, link', up', _, hlogin, hup, hloggedIn, rfl, List.prefix_rfl, ?_, ?_, ?_⟩
  · change up'.output ++ [] ++ s.client.conn.input = up'.output ++ rest
    rw [List.append_nil, h.stream]
  · exact h.told.symm ▸ List.prefix_rfl
  · change s.client.conn.output ++ [] ++ up'.input = _
    rw [List.append_nil, h.told]

theorem Piping.step (h : Piping greeting packet rest layer s) {held : Layer}
    {pipe pipe' : Pipe UInt8} {event : Pipe.Event} (hpipe : s.pipe = some (held, pipe))
    (hstep : pipe.Step event pipe') :
    Piping greeting packet rest layer { s with pipe := some (held, pipe') } := by
  obtain ⟨link, up, pipe'', hlogin, hsocket, hloggedIn, hpipe', hup, htotalUp, hclient,
    htotalClient⟩ := h.pipe
  rw [hpipe] at hpipe'
  obtain ⟨rfl, rfl⟩ := Prod.mk.inj (Option.some.inj hpipe')
  obtain ⟨hwrittenUp, hwrittenClient⟩ := Pipe.written_step hstep
  obtain ⟨hsameUp, hsameClient⟩ := Pipe.total_step hstep
  exact ⟨h.buffer, link, up, pipe', hlogin, hsocket, hloggedIn, rfl, hup.trans hwrittenUp,
    hsameUp.trans htotalUp, hclient.trans hwrittenClient, hsameClient.trans htotalClient⟩

/-- The pipe is about to start, or it has. -/
def Serving (greeting : Bytes) (packet : LoginPacket) (rest : Bytes) (layer : Layer) (s : Net) :
    Prop :=
  Accepted greeting rest packet.accepted layer s ∨ Piping greeting packet rest layer s

theorem Serving.tunnelled (h : Serving greeting packet rest layer s) :
    Tunnelled greeting packet rest s := by
  rcases h with haccepted | hpiping
  · exact haccepted.tunnelled (.inl List.prefix_rfl)
  · exact hpiping.tunnelled

theorem Serving.progress {s' : Net} (h : Serving greeting packet rest layer s) {c : Call}
    (hc : Final layer c) (hprogress : Net.Progress s c s') :
    Serving greeting packet rest layer s' := by
  cases hprogress with
  | start hnone hlink hup =>
    obtain rfl : _ = layer := hc
    rcases h with haccepted | hpiping
    · exact .inr (haccepted.startPipe hlink hup)
    · obtain ⟨_, _, _, _, _, _, hpipe, _⟩ := hpiping.pipe
      rw [hnone] at hpipe
      cases hpipe
  | step hpipe hstep =>
    rcases h with haccepted | hpiping
    · rw [haccepted.pipe] at hpipe
      cases hpipe
    · exact .inr (hpiping.step hpipe hstep)

theorem tunnels_serveConn (hs : Serving greeting packet rest layer s) (rt : ResolvedTarget) :
    Tunnels crypto env fuel greeting packet rest (fun _ _ ↦ True) (serveConn layer rt) s := by
  have hcalls : (serveConn layer rt).Calls (Final layer) :=
    ⟨trivial, fun _ ↦ ⟨rfl, fun _ ↦ ⟨trivial, fun _ ↦ trivial⟩⟩⟩
  have hkeeps : Ensures (Net.world crypto env fuel fun _ ↦ True) (Tunnelled greeting packet rest)
      (fun _ ↦ Serving greeting packet rest layer) (serveConn layer rt) s := by
    apply Net.ensures_of_calls (P := Final layer) fun _ hs ↦ hs.tunnelled
    · intro s c hc hs
      cases c with
      | register held rt => exact hs
      | pipe held => exact hs
      | closeConn => exact hs
      | _ => exact hc.elim
    · exact fun s c s' hc hs hprogress ↦ hs.progress hc hprogress
    · exact hcalls
    · exact hs
  exact hkeeps.mono fun result _ _ ↦
    onReturn_of_forall result (fun _ _ ↦ trivial) fun _ _ ↦ trivial

/-! ## The handler -/

theorem tunnels_concludeMySQL (rt : ResolvedTarget) {login : ClientLogin}
    (hseq : login.nextSeq = lastSeq packet.seq packet.payload + 1) (upCaps : UInt32)
    (hs : Accepted greeting rest [] layer s) :
    Tunnels crypto env fuel greeting packet rest (fun _ _ ↦ True)
      (concludeMySQL rt login layer upCaps) s := by
  rw [concludeMySQL]
  split
  · apply ensures_bind (tunnels_mismatch hseq hs)
    intro _ s htunnelled _
    apply ensures_bind (tunnels_close htunnelled _)
    intro _ s htunnelled _
    exact ⟨htunnelled, trivial⟩
  · apply ensures_bind (ensures_orElse (ensures_onError (tunnels_accept hseq hs))
      fun _ _ htunnelled _ ↦ tunnels_close htunnelled _)
    intro _ s _ hs
    exact tunnels_serveConn (.inl hs) rt

theorem tunnels_dispatchMySQL (hs : Waiting [] (packet.bytes ++ rest) s)
    (hgreeting : greeting = greetingOf s) :
    Tunnels crypto env fuel greeting packet rest (fun _ _ ↦ True) (dispatchMySQL env) s := by
  apply Net.ensures_direct (c := .connSeq) trivial hs.tunnelled
  have hnext : Waiting [] (packet.bytes ++ rest) { s with connID := s.connID + 1 } :=
    ⟨hs.login, hs.pipe, hs.buffer, hs.written, hs.stream⟩
  apply ensures_bind (ensures_onError (tunnels_greetClientMySQL _ hnext hgreeting))
  rintro login s htunnelled ⟨hseq, hs⟩
  apply Net.ensures_lookupDatabase htunnelled
  intro found
  cases found with
  | false => exact tunnels_clientSide (Net.calls_writeMySQLErr _ _ _ _) hs.login
  | true =>
    apply Net.ensures_current htunnelled
    intro target _
    cases target with
    | none => exact tunnels_clientSide (Net.calls_writeMySQLErr _ _ _ _) hs.login
    | some rt =>
      apply ensures_bind (tunnels_loginMySQL hs rt login)
      rintro ⟨layer, upCaps⟩ s _ hs
      exact tunnels_concludeMySQL rt hseq upCaps hs

/-- At every moment of every run of the handler, whatever the client, the upstream and the switches
of the database do, a MySQL client that is logged in has lost no byte. -/
theorem mysql_tunnel_loses_no_byte (crypto : Crypto Key) (env : Env) (fuel : ℕ)
    (packet : LoginPacket) (rest : Bytes) (net : Net) (room : Option ℕ) (chunks : List ℕ)
    {state : HandlerM Unit × Net}
    (hrun : Run (Net.world crypto env fuel fun _ ↦ True).Step
      (dispatchMySQL env, net.accept (packet.bytes ++ rest) room chunks) state) :
    Tunnelled (greetingOf net) packet rest state.2 := by
  have hwaiting : Waiting [] (packet.bytes ++ rest)
      (net.accept (packet.bytes ++ rest) room chunks) := ⟨rfl, rfl, rfl, rfl, rfl⟩
  exact ((tunnels_dispatchMySQL hwaiting rfl).sound hrun).1

/-- A client that sends its first command right behind its login packet. -/
def eagerLogin : LoginPacket where
  seq := 1
  payload := Mysql.encodeHandshakeResponse41 mysqlProxyClientCaps Mysql.defaultCharsetUTF8MB4
    (str "app") [] (str "app_dev") Mysql.mySQLNativePassword

/-- An upstream that accepts every login and says something right behind its OK. -/
def acceptingUpstream : Link where
  plain := ⟨packetBytes 0 (mysqlGreeting (str "8.0.36") 7 (List.replicate 20 1)) ++
    packetBytes 2 (Mysql.encodeOKPacket 0 0 serverStatusAutocommit 0) ++ str "rows", [], none⟩
  tls := none
  handshake := .error eof

/-- The client above is logged in, and the copying has begun. -/
theorem mysql_tunnel_loses_no_byte_eagerLogin :
    ∃ state : HandlerM Unit × Net,
      Run (Net.world Net.openCrypto Mongo.openEnv 1 fun _ ↦ True).Step
        (dispatchMySQL Mongo.openEnv, (Net.reaching (.ok acceptingUpstream)).accept
          (eagerLogin.bytes ++ str "query") none []) state ∧
      state.2.login.isSome ∧
      Tunnelled (greetingOf (Net.reaching (.ok acceptingUpstream))) eagerLogin (str "query")
        state.2 := by
  have hreply (s : Net) (c : Call) :
      (Net.world Net.openCrypto Mongo.openEnv 1 fun _ ↦ True).reply s c
        (Net.answering Net.openCrypto Mongo.openEnv 1 Tunnel.trustingTarget c s).1
        (Net.answering Net.openCrypto Mongo.openEnv 1 Tunnel.trustingTarget c s).2 :=
    Net.reply_answering Net.openCrypto Mongo.openEnv 1 trivial s c
  have hrun := Program.run_exec hreply (dispatchMySQL Mongo.openEnv)
    ((Net.reaching (.ok acceptingUpstream)).accept (eagerLogin.bytes ++ str "query") none [])
  have hlogin : ((dispatchMySQL Mongo.openEnv).exec
      (Net.answering Net.openCrypto Mongo.openEnv 1 Tunnel.trustingTarget)
      ((Net.reaching (.ok acceptingUpstream)).accept (eagerLogin.bytes ++ str "query") none
        [])).2.login.isSome := by
    decide +kernel
  exact ⟨_, hrun, hlogin, mysql_tunnel_loses_no_byte _ _ _ _ _ _ _ _ hrun⟩

end DbPivot.Proxy.MysqlTunnel
