import DbPivot.Proxy.Calls

/-!
# The tunnel of a PostgreSQL client

A client may send more than its StartupMessage before the login is over, and what the reader of the
handler has taken from the network by then is up to the network. The handler reads the
StartupMessage through a buffer, sends what is left in the buffer to the upstream, and then copies
from the connection itself. On the other side it stops reading right after the upstream's
AuthenticationOk, which it keeps, and sends one of its own.

So the two ways through the proxy meet at a seam. At every moment after the login, what has been
written is a beginning of what there was to carry, and when nothing is in hand it is all that was
read.
-/

namespace DbPivot.Proxy.Tunnel

open DbPivot.Go DbPivot.Config DbPivot.System
open DbPivot.Mongo (Env)
open DbPivot.Mysql (Crypto)
open DbPivot.Postgres (KV ascii)
open Net (ClientSide NoLogin calls_writeErrorResponse calls_writeErrorResponse_close)

/-! ## What a client sends -/

/-- The requests a client may make before its StartupMessage. -/
inductive Preamble where
  | ssl
  | gssenc

def Preamble.code : Preamble → UInt32
  | .ssl => Postgres.sslRequestCode
  | .gssenc => Postgres.gssencRequestCode

def Preamble.frame (preamble : Preamble) : Bytes := be32 8 ++ be32 preamble.code

/-- The body of a StartupMessage, whose length fits its length word. -/
structure StartupMessage where
  body : Bytes
  length_lt : 8 + body.length < 2 ^ 32

def StartupMessage.frame (startup : StartupMessage) : Bytes :=
  be32 (UInt32.ofNat (8 + startup.body.length)) ++ be32 Postgres.protocolV3 ++ startup.body

/-- The answer to a request before the StartupMessage. -/
def rejection : Option Preamble → Bytes
  | none => []
  | some _ => [ascii 'N']

/-- Everything a client sends. -/
def clientStream (preamble : Option Preamble) (startup : StartupMessage) (rest : Bytes) : Bytes :=
  (preamble.map Preamble.frame).getD [] ++ (startup.frame ++ rest)

/-- The message that tells a client that it is logged in. -/
def authenticationOk : Bytes := Postgres.messageBytes (ascii 'R') Postgres.authenticationOkBody

/-! ## What has to hold -/

/-- What has been written is a beginning of what there is to carry, and all that was read of it when
nothing is in hand. -/
structure Carried (source written pending unread : Bytes) : Prop where
  isPrefix : written <+: source
  complete : pending = [] → written ++ unread = source

/-- A dialled connection before anything was sent over the layer. -/
def fresh (link : Link) : Layer → Option Socket
  | .plain => some link.plain
  | .tls => link.handshake.toOption

/-- The login: the StartupMessage for some target and the messages of SCRAM were sent, and what was
received ends with the upstream's AuthenticationOk. -/
def LoggedIn (startup : StartupMessage) (dialled : Except GoError Link) (layer : Layer)
    (up : Socket) : Prop :=
  ∃ link initial params rt received sent, dialled = .ok link ∧ fresh link layer = some initial ∧
    Postgres.parseStartupBody startup.body = .ok params ∧
    Transfer initial up received (Postgres.startupFrame (upstreamParams params rt) ++ sent) ∧
    Postgres.EndsWithOk received ∧ Postgres.ScramMessages sent

/-- After a login, both directions of the tunnel carry what they should. -/
def Tunnelled (preamble : Option Preamble) (startup : StartupMessage) (rest : Bytes) (s : Net) :
    Prop :=
  ∀ layer link, s.login = some (layer, link) → ∃ up, link.socket layer = some up ∧
    LoggedIn startup s.dialled layer up ∧
    (∃ forwarded, s.upWritten layer = up.output ++ forwarded ∧
      Carried rest forwarded s.clientPending s.clientUnread) ∧
    ∃ told, s.clientWritten = rejection preamble ++ told ∧
      (told <+: authenticationOk ∨ ∃ relayed, told = authenticationOk ++ relayed ∧
        Carried up.input relayed s.upPending (s.upUnread layer))

variable {Key α : Type} {crypto : Crypto Key} {env : Env} {fuel : ℕ} {preamble : Option Preamble}
  {startup : StartupMessage} {rest : Bytes} {s : Net}

/-- A part of the handler under which the tunnel stays in order, and what it leads to. -/
abbrev Tunnels (crypto : Crypto Key) (env : Env) (fuel : ℕ) (preamble : Option Preamble)
    (startup : StartupMessage) (rest : Bytes) (value : α → Net → Prop) (program : HandlerM α)
    (s : Net) : Prop :=
  Ensures (Net.world crypto env fuel fun _ ↦ True) (Tunnelled preamble startup rest)
    (OnReturn value fun _ ↦ True) program s

/-! ## Before the login -/

theorem tunnelled_of_login (h : s.login = none) : Tunnelled preamble startup rest s := by
  intro layer link hlogin
  exact nomatch h.symm.trans hlogin

/-- Without a login the tunnel is in order. -/
theorem ensures_noLogin {allowed : ResolvedTarget → Prop} {program : HandlerM α}
    (hcalls : program.Calls NoLogin) (hs : s.login = none) :
    Ensures (Net.world crypto env fuel allowed) (Tunnelled preamble startup rest)
      (fun _ s ↦ s.login = none) program s := by
  apply Net.ensures_of_calls (P := NoLogin)
  · exact fun s hs ↦ tunnelled_of_login hs
  · intro s c hc hs
    exact (Net.login_handler hc s).trans hs
  · intro s c s' _ hs hprogress
    cases hprogress with
    | start _ _ _ => exact hs
    | step _ _ => exact hs
  · exact hcalls
  · exact hs

/-- The handler is waiting for the rest of what the client sends; nothing has been tunnelled. -/
structure Waiting (dialled : Except GoError Link) (written stream : Bytes) (s : Net) : Prop where
  dialled : s.dialled = dialled
  login : s.login = none
  pipe : s.pipe = none
  written : s.client.conn.output = written
  stream : s.client.stream = stream

variable {dialled : Except GoError Link} {written stream : Bytes}

theorem Waiting.tunnelled (h : Waiting dialled written stream s) :
    Tunnelled preamble startup rest s :=
  tunnelled_of_login h.login

/-- Whatever the chunks, the next bytes of the client are read. -/
theorem tunnels_readFull {bytes : Bytes} {n : ℕ} (hn : bytes.length = n)
    (hs : Waiting dialled written (bytes ++ stream) s) :
    Tunnels crypto env fuel preamble startup rest
      (fun value s' ↦ value = bytes ∧ Waiting dialled written stream s') (Handler.readFull n) s := by
  obtain ⟨b, hread, htook⟩ := Bufio.readFull_of_stream hs.stream
  have hafter : Waiting dialled written stream { s with client := b } := by
    refine ⟨hs.dialled, hs.login, hs.pipe, htook.output.trans hs.written, ?_⟩
    have hstream := htook.stream
    rw [hs.stream] at hstream
    exact (List.append_cancel_left hstream).symm
  apply Net.ensures_direct (c := .readFull n) trivial hs.tunnelled
  simp only [Net.handler, ← hn, hread]
  exact ⟨hafter.tunnelled, rfl, hafter⟩

theorem tunnels_readUint32 {word : UInt32} (hs : Waiting dialled written (be32 word ++ stream) s) :
    Tunnels crypto env fuel preamble startup rest
      (fun value s' ↦ value = word ∧ Waiting dialled written stream s') readUint32 s := by
  apply ensures_bind (tunnels_readFull (length_be32 word) hs)
  rintro _ s' htunnelled ⟨rfl, hs'⟩
  exact ⟨htunnelled, uint32BE_be32 word, hs'⟩

/-- The rejection of a preamble. -/
theorem tunnels_reject (hs : Waiting dialled written stream s) :
    Tunnels crypto env fuel preamble startup rest
      (fun _ s' ↦ Waiting dialled (written ++ [ascii 'N']) stream s')
      (Handler.write .client [ascii 'N']) s := by
  obtain ⟨part, -, houtput, hinput, hok⟩ := run_write [ascii 'N'] s.client.conn
  apply Net.ensures_direct (c := .write .client [ascii 'N']) trivial hs.tunnelled
  refine ⟨tunnelled_of_login hs.login, onReturn_of_forall _ ?_ fun _ _ ↦ trivial⟩
  intro _ hresult
  refine ⟨hs.dialled, hs.login, hs.pipe, ?_, ?_⟩
  · exact (houtput.trans (by rw [hok hresult])).trans (by rw [hs.written])
  · exact (congrArg (s.client.buffer ++ ·) hinput).trans hs.stream

/-! ## The login -/

theorem tunnels_clientSide {program : HandlerM α} (hcalls : program.Calls ClientSide)
    (hs : s.login = none) :
    Tunnels crypto env fuel preamble startup rest (fun _ _ ↦ True) program s :=
  (ensures_noLogin (hcalls.mono fun _ hc ↦ Net.noLogin_of_clientSide hc) hs).mono fun result _ _ ↦
    onReturn_of_forall result (fun _ _ ↦ trivial) fun _ _ ↦ trivial

/-- The upstream is connected, and nothing was sent over the layer. -/
def Connected (dialled : Except GoError Link) (written stream : Bytes) (layer : Layer) (s : Net) :
    Prop :=
  Waiting dialled written stream s ∧ ∃ link link' initial, dialled = .ok link ∧
    fresh link layer = some initial ∧ s.up = some link' ∧ link'.socket layer = some initial

theorem tunnels_dial (hs : Waiting dialled written stream s) (host : Bytes) (port : ℤ) :
    Ensures (Net.world crypto env fuel fun _ ↦ True) (Tunnelled preamble startup rest)
      (OnReturn (fun _ s' ↦ Waiting dialled written stream s' ∧
          ∃ link, dialled = .ok link ∧ s'.up = some link) fun s' ↦ s'.login = none)
      (Handler.dial host port) s := by
  apply Net.ensures_direct (c := .dial host port) trivial hs.tunnelled
  simp only [Net.handler]
  cases hdialled : s.dialled with
  | error err => exact ⟨hs.tunnelled, hs.login⟩
  | ok link =>
    have hafter : Waiting dialled written stream { s with dialled := .ok link, up := some link } :=
      ⟨hdialled.symm.trans hs.dialled, hs.login, hs.pipe, hs.written, hs.stream⟩
    exact ⟨hafter.tunnelled, hafter, link, hs.dialled.symm.trans hdialled, rfl⟩

theorem tunnels_negotiateTLS {link : Link} (hs : Waiting dialled written stream s)
    (hdialled : dialled = .ok link) (hup : s.up = some link) (serverName : Bytes) :
    Ensures (Net.world crypto env fuel fun _ ↦ True) (Tunnelled preamble startup rest)
      (OnReturn (fun _ ↦ Connected dialled written stream .tls) fun s' ↦ s'.login = none)
      (Handler.negotiateTLS serverName) s := by
  apply Net.ensures_direct (c := .negotiateTLS serverName) trivial hs.tunnelled
  simp only [Net.handler, hup]
  have hafter : Waiting dialled written stream
      { s with up := some (Postgres.negotiateUpstreamTLS link).2 } :=
    ⟨hs.dialled, hs.login, hs.pipe, hs.written, hs.stream⟩
  refine ⟨hafter.tunnelled, onReturn_of_forall _ (fun _ hok ↦ ?_) fun _ _ ↦ hs.login⟩
  obtain ⟨inner, hhandshake, hsocket⟩ := Postgres.socket_negotiateUpstreamTLS hok
  refine ⟨hafter, link, _, inner, hdialled, ?_, rfl, hsocket⟩
  exact congrArg Except.toOption hhandshake

theorem tunnels_dialPostgres (hs : Waiting dialled written stream s) (rt : ResolvedTarget) :
    Tunnels crypto env fuel preamble startup rest
      (fun layer ↦ Connected dialled written stream layer) (dialPostgres env rt) s := by
  apply ensures_bind (ensures_orElse (tunnels_dial hs rt.host rt.port) fun _ _ _ hlogin ↦
    tunnels_clientSide (calls_writeErrorResponse _ _) hlogin)
  rintro _ s htunnelled ⟨hs, link, hdialled, hup⟩
  split
  · apply ensures_bind (ensures_orElse (tunnels_negotiateTLS hs hdialled hup rt.host)
      fun _ _ _ hlogin ↦ tunnels_clientSide (calls_writeErrorResponse_close _ _ _) hlogin)
    intro _ s htunnelled hs
    exact ⟨htunnelled, hs⟩
  · exact ⟨htunnelled, hs, link, link, link.plain, hdialled, rfl, hup, rfl⟩

variable {layer : Layer} {told : Bytes}

/-- The handler after the login: what the client was told, and what is left to carry. -/
structure Accepted (preamble : Option Preamble) (startup : StartupMessage) (rest : Bytes)
    (told : Bytes) (layer : Layer) (s : Net) : Prop where
  pipe : s.pipe = none
  told : s.client.conn.output = rejection preamble ++ told
  login : ∃ link up link' up' forwarded, s.login = some (layer, link) ∧
    link.socket layer = some up ∧ LoggedIn startup s.dialled layer up ∧ s.up = some link' ∧
    link'.socket layer = some up' ∧ up'.input = up.input ∧ up'.output = up.output ++ forwarded ∧
    forwarded ++ s.client.stream = rest

/-- Before the pipe starts, with a part of AuthenticationOk or with all of it. -/
theorem tunnelled_of_carried {link link' : Link} {up up' : Socket} {forwarded : Bytes}
    (hpipe : s.pipe = none) (hlogin : s.login = some (layer, link))
    (hsocket : link.socket layer = some up) (hlogged : LoggedIn startup s.dialled layer up)
    (hup : s.up = some link') (hsocket' : link'.socket layer = some up')
    (houtput : up'.output = up.output ++ forwarded)
    (hcarried : Carried rest forwarded s.client.buffer s.client.conn.input)
    (htold : s.client.conn.output = rejection preamble ++ told) (hpart : told <+: authenticationOk) :
    Tunnelled preamble startup rest s := by
  intro layer' link'' hlogin'
  obtain ⟨rfl, rfl⟩ := Prod.mk.inj (Option.some.inj (hlogin.symm.trans hlogin'))
  have hupSocket : s.up.bind (·.socket layer) = some up' := by
    rw [hup]
    exact hsocket'
  refine ⟨up, hsocket, hlogged, ⟨forwarded, ?_, ?_⟩, told, ?_, .inl hpart⟩
  · simp only [Net.upWritten, hpipe, hupSocket]
    exact houtput
  · simp only [Net.clientPending, Net.clientUnread, hpipe]
    exact hcarried
  · simp only [Net.clientWritten, hpipe]
    exact htold

theorem Accepted.tunnelled (h : Accepted preamble startup rest told layer s)
    (hpart : told <+: authenticationOk) : Tunnelled preamble startup rest s := by
  obtain ⟨link, up, link', up', forwarded, hlogin, hsocket, hlogged, hup, hsocket', -, houtput,
    hstream⟩ := h.login
  refine tunnelled_of_carried h.pipe hlogin hsocket hlogged hup hsocket' houtput ⟨?_, ?_⟩ h.told hpart
  · rw [← hstream]
    exact List.prefix_append _ _
  · intro hbuffer
    rw [← hstream, Bufio.stream, hbuffer, List.nil_append]

theorem tunnels_authenticatePostgres {params : List KV} {initial up : Socket} {link link' : Link}
    (hs : Waiting dialled (rejection preamble) rest s) (hdialled : dialled = .ok link)
    (hfresh : fresh link layer = some initial) (hup : s.up = some link')
    (hsocket : link'.socket layer = some up)
    (hparams : Postgres.parseStartupBody startup.body = .ok params) {rt : ResolvedTarget}
    (hstartup : Transfer initial up [] (Postgres.startupFrame (upstreamParams params rt)))
    (user password : Bytes) :
    Ensures (Net.world crypto env fuel fun _ ↦ True) (Tunnelled preamble startup rest)
      (OnReturn (fun _ ↦ Accepted preamble startup rest [] layer) fun s' ↦ s'.login = none)
      (Handler.authenticatePostgres layer user password) s := by
  apply Net.ensures_direct (c := .authenticatePostgres layer _ _) trivial hs.tunnelled
  obtain ⟨link'', hsocket'', ⟨hok, hlogin⟩ | ⟨fault, -, hlogin⟩⟩ :=
    Net.logIn_of_socket hup hsocket (Postgres.authenticateUpstream env user password)
  · obtain ⟨received, sent, htransfer, hends, hmessages⟩ :=
      Postgres.transfer_of_authenticateUpstream (Prod.ext hok rfl)
    have hall := hstartup.trans htransfer
    rw [List.nil_append] at hall
    have hlogged : LoggedIn startup s.dialled layer _ :=
      ⟨link, initial, params, rt, received, sent, hs.dialled.trans hdialled, hfresh, hparams, hall,
        hends, hmessages⟩
    have hafter : Accepted preamble startup rest []
        layer { s with up := some link'', login := some (layer, link'') } := by
      refine ⟨hs.pipe, ?_, link'', _, link'', _, [], rfl, hsocket'', hlogged, rfl, hsocket'', rfl, ?_, ?_⟩
      · rw [List.append_nil]
        exact hs.written
      · rw [List.append_nil]
      · exact hs.stream
    simp only [Net.handler, hlogin]
    exact ⟨hafter.tunnelled List.nil_prefix, hafter⟩
  · simp only [Net.handler, hlogin]
    refine ⟨tunnelled_of_login hs.login, onReturn_of_forall _ (fun _ hok ↦ ?_) fun _ _ ↦ hs.login⟩
    cases hok

theorem tunnels_loginPostgres {params : List KV}
    (hs : Connected dialled (rejection preamble) rest layer s)
    (hparams : Postgres.parseStartupBody startup.body = .ok params) (rt : ResolvedTarget) :
    Tunnels crypto env fuel preamble startup rest
      (fun _ ↦ Accepted preamble startup rest [] layer)
      (loginPostgres env rt layer (Postgres.startupFrame (upstreamParams params rt))) s := by
  obtain ⟨hs, link, link', initial, hdialled, hfresh, hup, hsocket⟩ := hs
  have hwrite : Ensures (Net.world crypto env fuel fun _ ↦ True) (Tunnelled preamble startup rest)
      (OnReturn (fun _ s' ↦ Waiting dialled (rejection preamble) rest s' ∧
          ∃ link' up, s'.up = some link' ∧ link'.socket layer = some up ∧
            Transfer initial up [] (Postgres.startupFrame (upstreamParams params rt)))
        fun s' ↦ s'.login = none)
      (Handler.write (.upstream layer) (Postgres.startupFrame (upstreamParams params rt))) s := by
    apply Net.ensures_direct (c := .write (.upstream layer) _) trivial hs.tunnelled
    obtain ⟨link'', hrun, hsocket'⟩ := Net.onUp_of_socket hup hsocket
      (write (Postgres.startupFrame (upstreamParams params rt)))
    simp only [Net.handler, Net.onConn, hrun]
    refine ⟨tunnelled_of_login hs.login, onReturn_of_forall _ (fun _ hok ↦ ?_) fun _ _ ↦ hs.login⟩
    refine ⟨⟨hs.dialled, hs.login, hs.pipe, hs.written, hs.stream⟩, link'', _, rfl, hsocket', ?_⟩
    exact transfer_of_write (Prod.ext hok rfl)
  apply ensures_bind (ensures_orElse hwrite fun _ _ _ hlogin ↦
    tunnels_clientSide (calls_writeErrorResponse_close _ _ _) hlogin)
  rintro _ s htunnelled ⟨hs, link', up, hup, hsocket, hstartup⟩
  exact ensures_orElse
    (tunnels_authenticatePostgres hs hdialled hfresh hup hsocket hparams hstartup _ _)
    fun _ _ _ hlogin ↦ tunnels_clientSide (calls_writeErrorResponse_close _ _ _) hlogin

/-! ## After the login -/

/-- `Close` changes nothing about what was carried. -/
theorem tunnels_close (hs : Tunnelled preamble startup rest s) (conn : Endpoint) :
    Tunnels crypto env fuel preamble startup rest (fun _ _ ↦ True) (Handler.close conn) s := by
  apply Net.ensures_direct (c := .close conn) trivial hs
  exact ⟨hs, trivial⟩

theorem tunnels_writeAuthenticationOk (hs : Accepted preamble startup rest [] layer s) :
    Tunnels crypto env fuel preamble startup rest
      (fun _ ↦ Accepted preamble startup rest authenticationOk layer) writeAuthenticationOk s := by
  obtain ⟨part, hpart, houtput, hinput, hok⟩ := run_write authenticationOk s.client.conn
  have hafter : Accepted preamble startup rest part layer
      (s.onConn (write authenticationOk) .client).2 := by
    obtain ⟨link, up, link', up', forwarded, hlogin, hsocket, hlogged, hup, hsocket', hinput', houtput',
      hstream⟩ := hs.login
    refine ⟨hs.pipe, ?_, link, up, link', up', forwarded, hlogin, hsocket, hlogged, hup, hsocket',
      hinput', houtput', ?_⟩
    · refine houtput.trans ?_
      rw [hs.told, List.append_nil]
    · rw [← hstream]
      exact congrArg (fun input ↦ forwarded ++ (s.client.buffer ++ input)) hinput
  apply Net.ensures_direct (c := .writeMessage .client (ascii 'R') Postgres.authenticationOkBody)
    trivial (hs.tunnelled List.nil_prefix)
  simp only [Net.handler, Postgres.writeMessage_eq]
  refine ⟨hafter.tunnelled hpart, onReturn_of_forall _ (fun _ hresult ↦ ?_) fun _ _ ↦ trivial⟩
  rw [← hok hresult]
  exact hafter

/-- The buffer goes to the upstream and is not empty yet. -/
theorem tunnels_writeBuffered (hs : Accepted preamble startup rest authenticationOk layer s)
    (hbuffer : s.client.buffer ≠ []) :
    Tunnels crypto env fuel preamble startup rest
      (fun _ s' ↦ s'.client.buffer = s.client.buffer ∧ Accepted preamble startup rest
        authenticationOk layer { s' with client := s'.client.discard s.client.buffer.length })
      (Handler.write (.upstream layer) s.client.buffer) s := by
  have htunnelled := hs.tunnelled List.prefix_rfl
  obtain ⟨link, up, link', up', forwarded, hlogin, hsocket, hlogged, hup, hsocket', hinput, houtput,
    hstream⟩ := hs.login
  obtain ⟨part, hpart, hwritten, hunread, hok⟩ := run_write s.client.buffer up'
  obtain ⟨link'', hrun, hsocket''⟩ := Net.onUp_of_socket hup hsocket' (write s.client.buffer)
  have houtput'' : ((write s.client.buffer).run up').2.output = up.output ++ (forwarded ++ part) := by
    rw [hwritten, houtput, List.append_assoc]
  have hbeginning : forwarded ++ part <+: rest := by
    rw [← hstream, Bufio.stream, ← List.append_assoc]
    exact ((List.prefix_append_right_inj forwarded).mpr hpart).trans (List.prefix_append _ _)
  apply Net.ensures_direct (c := .write (.upstream layer) _) trivial htunnelled
  simp only [Net.handler, Net.onConn, hrun]
  refine ⟨?_, onReturn_of_forall _ (fun _ hresult ↦ ⟨rfl, ?_⟩) fun _ _ ↦ trivial⟩
  · exact tunnelled_of_carried hs.pipe hlogin hsocket hlogged rfl hsocket'' houtput''
      ⟨hbeginning, fun hempty ↦ absurd hempty hbuffer⟩ hs.told List.prefix_rfl
  · refine ⟨hs.pipe, hs.told, link, up, link'', _, forwarded ++ part, hlogin, hsocket, hlogged, rfl,
      hsocket'', hunread.trans hinput, houtput'', ?_⟩
    rw [hok hresult, Bufio.stream, Bufio.discard, List.drop_length, List.nil_append,
      List.append_assoc]
    exact hstream

/-- What is left in the buffer goes to the upstream. -/
theorem tunnels_flushBuffered (hs : Accepted preamble startup rest authenticationOk layer s) :
    Tunnels crypto env fuel preamble startup rest
      (fun _ s' ↦ Accepted preamble startup rest authenticationOk layer s' ∧ s'.client.buffer = [])
      (flushBuffered layer) s := by
  have htunnelled := hs.tunnelled List.prefix_rfl
  apply Net.ensures_direct (c := .peek) trivial htunnelled
  change Tunnels crypto env fuel preamble startup rest _ (if 0 < s.client.buffer.length then _ else _) s
  split
  next hpositive =>
    have hbuffer : s.client.buffer ≠ [] := List.ne_nil_of_length_pos hpositive
    apply ensures_bind (ensures_orElse (tunnels_writeBuffered hs hbuffer) fun _ _ hs _ ↦
      tunnels_close hs _)
    rintro _ s' htunnelled ⟨hsame, hs'⟩
    apply Net.ensures_direct (c := .discard s.client.buffer.length) trivial htunnelled
    refine ⟨hs'.tunnelled List.prefix_rfl, hs', ?_⟩
    change s'.client.buffer.drop s.client.buffer.length = []
    rw [hsame, List.drop_length]
  next hzero =>
    exact ⟨htunnelled, hs, List.length_eq_zero_iff.mp (Nat.eq_zero_of_not_pos hzero)⟩

/-! ## The pipe -/

/-- The pipe carries what is left, both ways, after what was written before it. -/
structure Piping (preamble : Option Preamble) (startup : StartupMessage) (rest : Bytes)
    (layer : Layer) (s : Net) : Prop where
  buffer : s.client.buffer = []
  pipe : ∃ link up pipe, s.login = some (layer, link) ∧ link.socket layer = some up ∧
    LoggedIn startup s.dialled layer up ∧ s.pipe = some (layer, pipe) ∧
    up.output <+: pipe.toUp.written ∧ pipe.toUp.total = up.output ++ rest ∧
    rejection preamble ++ authenticationOk <+: pipe.toClient.written ∧
    pipe.toClient.total = rejection preamble ++ authenticationOk ++ up.input

/-- A direction of a pipe has carried a beginning of what was left. -/
theorem carried_of_total {c : System.Copy UInt8} {before source : Bytes} (hbefore : before <+: c.written)
    (htotal : c.total = before ++ source) :
    ∃ carried, c.written = before ++ carried ∧ Carried source carried c.pending c.unread := by
  obtain ⟨carried, hcarried⟩ := hbefore
  rw [System.Copy.total, ← hcarried, List.append_assoc, List.append_assoc] at htotal
  have hsource : carried ++ (c.pending ++ c.unread) = source := List.append_cancel_left htotal
  refine ⟨carried, hcarried.symm, ?_, ?_⟩
  · rw [← hsource]
    exact List.prefix_append _ _
  · intro hpending
    rw [← hsource, hpending, List.nil_append]

theorem Piping.tunnelled (h : Piping preamble startup rest layer s) :
    Tunnelled preamble startup rest s := by
  obtain ⟨link, up, pipe, hlogin, hsocket, hlogged, hpipe, hup, htotalUp, hclient, htotalClient⟩ :=
    h.pipe
  obtain ⟨forwarded, hforwarded, hcarried⟩ := carried_of_total hup htotalUp
  obtain ⟨relayed, hrelayed, hcarriedBack⟩ := carried_of_total hclient htotalClient
  intro layer' link' hlogin'
  obtain ⟨rfl, rfl⟩ := Prod.mk.inj (Option.some.inj (hlogin.symm.trans hlogin'))
  refine ⟨up, hsocket, hlogged, ⟨forwarded, ?_, ?_⟩, authenticationOk ++ relayed, ?_,
    .inr ⟨relayed, rfl, ?_⟩⟩
  · simp only [Net.upWritten, hpipe, if_true]
    exact hforwarded
  · simp only [Net.clientPending, Net.clientUnread, hpipe, h.buffer, List.nil_append]
    exact hcarried
  · simp only [Net.clientWritten, hpipe]
    rw [hrelayed, List.append_assoc]
  · simp only [Net.upPending, Net.upUnread, hpipe]
    exact hcarriedBack

/-- The pipe starts where the connections stand. -/
theorem Accepted.startPipe (h : Accepted preamble startup rest authenticationOk layer s)
    (hbuffer : s.client.buffer = []) {link : Link} {up : Socket} (hlink : s.up = some link)
    (hup : link.socket layer = some up) :
    Piping preamble startup rest layer
      { s with pipe := some (layer, Net.startPipe s.client.conn up) } := by
  obtain ⟨link', up', link'', up'', forwarded, hlogin, hsocket, hlogged, hup', hsocket', hinput,
    houtput, hstream⟩ := h.login
  obtain rfl := Option.some.inj (hlink.symm.trans hup')
  obtain rfl := Option.some.inj (hup.symm.trans hsocket')
  refine ⟨hbuffer, link', up', _, hlogin, hsocket, hlogged, rfl, ?_, ?_, ?_, ?_⟩
  · change up'.output <+: up.output
    rw [houtput]
    exact List.prefix_append _ _
  · change up.output ++ [] ++ s.client.conn.input = up'.output ++ rest
    rw [List.append_nil, houtput, ← hstream, Bufio.stream, hbuffer, List.nil_append,
      List.append_assoc]
  · exact h.told.symm ▸ List.prefix_rfl
  · change s.client.conn.output ++ [] ++ up.input = _
    rw [List.append_nil, h.told, hinput]

theorem Piping.step (h : Piping preamble startup rest layer s) {held : Layer}
    {pipe pipe' : Pipe UInt8} {event : Pipe.Event} (hpipe : s.pipe = some (held, pipe))
    (hstep : pipe.Step event pipe') :
    Piping preamble startup rest layer { s with pipe := some (held, pipe') } := by
  obtain ⟨link, up, pipe'', hlogin, hsocket, hlogged, hpipe', hup, htotalUp, hclient, htotalClient⟩ :=
    h.pipe
  obtain ⟨rfl, rfl⟩ := Prod.mk.inj (Option.some.inj (hpipe'.symm.trans hpipe))
  obtain ⟨hwrittenUp, hwrittenClient⟩ := Pipe.written_step hstep
  obtain ⟨hsameUp, hsameClient⟩ := Pipe.total_step hstep
  exact ⟨h.buffer, link, up, pipe', hlogin, hsocket, hlogged, rfl, hup.trans hwrittenUp,
    hsameUp.trans htotalUp, hclient.trans hwrittenClient, hsameClient.trans htotalClient⟩

/-- The pipe is about to start, or it has. -/
def Serving (preamble : Option Preamble) (startup : StartupMessage) (rest : Bytes) (layer : Layer)
    (s : Net) : Prop :=
  Accepted preamble startup rest authenticationOk layer s ∧ s.client.buffer = [] ∨
    Piping preamble startup rest layer s

theorem Serving.tunnelled (h : Serving preamble startup rest layer s) :
    Tunnelled preamble startup rest s := by
  rcases h with ⟨haccepted, -⟩ | hpiping
  · exact haccepted.tunnelled List.prefix_rfl
  · exact hpiping.tunnelled

theorem Serving.progress {s' : Net} (h : Serving preamble startup rest layer s) {c : Call}
    (hc : ∀ held, c = .pipe held → held = layer) (hprogress : Net.Progress s c s') :
    Serving preamble startup rest layer s' := by
  cases hprogress with
  | start hnone hlink hup =>
    obtain rfl := hc _ rfl
    rcases h with ⟨haccepted, hbuffer⟩ | hpiping
    · exact .inr (haccepted.startPipe hbuffer hlink hup)
    · obtain ⟨_, _, _, _, _, _, hpipe, _⟩ := hpiping.pipe
      exact nomatch hnone.symm.trans hpipe
  | step hpipe hstep =>
    rcases h with ⟨haccepted, hbuffer⟩ | hpiping
    · exact nomatch haccepted.pipe.symm.trans hpipe
    · exact .inr (hpiping.step hpipe hstep)

/-- The calls of `serveConn`. -/
def Final (layer : Layer) : Call → Prop
  | .register _ _ => True
  | .pipe held => held = layer
  | .closeConn => True
  | _ => False

theorem tunnels_serveConn (hs : Serving preamble startup rest layer s) (rt : ResolvedTarget) :
    Tunnels crypto env fuel preamble startup rest (fun _ _ ↦ True) (serveConn layer rt) s := by
  have hcalls : (serveConn layer rt).Calls (Final layer) :=
    ⟨trivial, fun _ ↦ ⟨rfl, fun _ ↦ ⟨trivial, fun _ ↦ trivial⟩⟩⟩
  have hkeeps : Ensures (Net.world crypto env fuel fun _ ↦ True) (Tunnelled preamble startup rest)
      (fun _ ↦ Serving preamble startup rest layer) (serveConn layer rt) s := by
    apply Net.ensures_of_calls (P := Final layer) fun _ hs ↦ hs.tunnelled
    · intro s c hc hs
      cases c with
      | register held rt => exact hs
      | pipe held => exact hs
      | closeConn => exact hs
      | _ => exact hc.elim
    · intro s c s' hc hs hprogress
      apply hs.progress _ hprogress
      rintro held rfl
      exact hc
    · exact hcalls
    · exact hs
  exact hkeeps.mono fun result _ _ ↦
    onReturn_of_forall result (fun _ _ ↦ trivial) fun _ _ ↦ trivial

/-! ## The handler -/

theorem tunnels_handleStartup (msgLen : ℕ) (hlength : startup.body.length = msgLen - 8)
    (hs : Waiting dialled (rejection preamble) (startup.body ++ rest) s) :
    Tunnels crypto env fuel preamble startup rest (fun _ _ ↦ True) (handleStartup env msgLen) s := by
  apply ensures_bind (ensures_onError (tunnels_readFull hlength hs))
  rintro _ s htunnelled ⟨rfl, hs⟩
  apply ensures_liftBind htunnelled trivial
  intro params hparams
  apply Net.ensures_lookupDatabase htunnelled
  intro found
  cases found with
  | false => exact tunnels_clientSide (calls_writeErrorResponse _ _) hs.login
  | true =>
    apply Net.ensures_current htunnelled
    intro target _
    cases target with
    | none => exact tunnels_clientSide (calls_writeErrorResponse _ _) hs.login
    | some rt =>
      apply ensures_liftBind htunnelled trivial
      intro upStartup hstartup
      obtain rfl := Except.ok.inj ((Postgres.encodeStartup_eq _).symm.trans hstartup)
      apply ensures_bind (tunnels_dialPostgres hs rt)
      intro layer s _ hs
      apply ensures_bind (tunnels_loginPostgres hs hparams rt)
      intro _ s _ hs
      apply ensures_bind (ensures_orElse (ensures_onError (tunnels_writeAuthenticationOk hs))
        fun _ _ hs _ ↦ tunnels_close hs _)
      intro _ s _ hs
      apply ensures_bind (tunnels_flushBuffered hs)
      intro _ s _ hs
      exact tunnels_serveConn (.inl hs) rt

/-- The StartupMessage in one of the attempts of `dispatch`. -/
theorem tunnels_dispatchLoop (attempts : ℕ)
    (hs : Waiting dialled (rejection preamble) (startup.frame ++ rest) s) :
    Tunnels crypto env fuel preamble startup rest (fun _ _ ↦ True) (dispatchLoop env (attempts + 1))
      s := by
  have hlength : (UInt32.ofNat (8 + startup.body.length)).toNat = 8 + startup.body.length := by
    rw [UInt32.toNat_ofNat', Nat.mod_eq_of_lt startup.length_lt]
  rw [StartupMessage.frame, List.append_assoc, List.append_assoc] at hs
  apply ensures_bind (ensures_onError (tunnels_readUint32 hs))
  rintro _ s htunnelled ⟨rfl, hs⟩
  apply ensures_liftBind htunnelled trivial
  intro _ _
  apply ensures_bind (ensures_onError (tunnels_readUint32 hs))
  rintro _ s htunnelled ⟨rfl, hs⟩
  rw [if_neg (by decide), if_neg (by decide), if_pos rfl, hlength]
  exact tunnels_handleStartup _ (by omega) hs

/-- `dispatch` on everything a client sends. -/
theorem tunnels_dispatch (hs : Waiting dialled [] (clientStream preamble startup rest) s) :
    Tunnels crypto env fuel preamble startup rest (fun _ _ ↦ True) (dispatch env) s := by
  cases preamble with
  | none => exact tunnels_dispatchLoop 1 hs
  | some request =>
    have hcode : request.code = Postgres.sslRequestCode ∨
        request.code = Postgres.gssencRequestCode := by
      cases request with
      | ssl => exact .inl rfl
      | gssenc => exact .inr rfl
    have hstream : clientStream (some request) startup rest =
        be32 8 ++ (be32 request.code ++ (startup.frame ++ rest)) :=
      List.append_assoc _ _ _
    rw [hstream] at hs
    apply ensures_bind (ensures_onError (tunnels_readUint32 hs))
    rintro _ s htunnelled ⟨rfl, hs⟩
    apply ensures_liftBind htunnelled trivial
    intro _ _
    apply ensures_bind (ensures_onError (tunnels_readUint32 hs))
    rintro _ s htunnelled ⟨rfl, hs⟩
    rw [if_pos hcode]
    apply ensures_bind (ensures_onError (tunnels_reject hs))
    intro _ s _ hs
    exact tunnels_dispatchLoop 0 hs

/-- At every moment of every run of the handler, whatever the network, the client, the upstream and
the switches of the database do, a client that is logged in has lost no byte. -/
theorem tunnel_loses_no_byte (crypto : Crypto Key) (env : Env) (fuel : ℕ)
    (preamble : Option Preamble) (startup : StartupMessage) (rest : Bytes) (net : Net)
    (room : Option ℕ) (chunks : List ℕ) {state : HandlerM Unit × Net}
    (hrun : Run (Net.world crypto env fuel fun _ ↦ True).Step
      (dispatch env, net.accept (clientStream preamble startup rest) room chunks) state) :
    Tunnelled preamble startup rest state.2 := by
  have hwaiting : Waiting net.dialled [] (clientStream preamble startup rest)
      (net.accept (clientStream preamble startup rest) room chunks) :=
    ⟨rfl, rfl, rfl, rfl, rfl⟩
  exact ((tunnels_dispatch hwaiting).sound hrun).1

/-- A client that sends more than its StartupMessage before it is logged in. -/
def eagerClient : StartupMessage := ⟨str "user\x00app\x00\x00", by decide⟩

/-- An upstream that asks for no password. -/
def trustingUpstream : Link where
  plain := ⟨authenticationOk ++ str "ready", [], none⟩
  tls := none
  handshake := .error eof

def trustingTarget : ResolvedTarget where
  name := str "local"
  host := str "127.0.0.1"
  port := 5432
  user := str "app"
  password := str "secret"
  database := str "app_dev"
  sslMode := []
  authSource := []

/-- The client above is logged in, with a part of its query in the buffer by then. -/
theorem tunnel_loses_no_byte_eagerClient :
    ∃ state : HandlerM Unit × Net,
      Run (Net.world Net.openCrypto Mongo.openEnv 0 fun _ ↦ True).Step
        (dispatch Mongo.openEnv, (Net.reaching (.ok trustingUpstream)).accept
          (clientStream none eagerClient (str "query")) none [20]) state ∧
      state.2.login.isSome ∧ Tunnelled none eagerClient (str "query") state.2 := by
  have hreply (s : Net) (c : Call) :
      (Net.world Net.openCrypto Mongo.openEnv 0 fun _ ↦ True).reply s c
        (Net.answering Net.openCrypto Mongo.openEnv 0 trustingTarget c s).1
        (Net.answering Net.openCrypto Mongo.openEnv 0 trustingTarget c s).2 :=
    Net.reply_answering Net.openCrypto Mongo.openEnv 0 trivial s c
  have hrun := Program.run_exec hreply (dispatch Mongo.openEnv)
    ((Net.reaching (.ok trustingUpstream)).accept (clientStream none eagerClient (str "query")) none
      [20])
  exact ⟨_, hrun, rfl, tunnel_loses_no_byte _ _ _ _ _ _ _ _ _ hrun⟩

end DbPivot.Proxy.Tunnel
