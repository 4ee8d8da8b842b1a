import DbPivot.Mysql.Auth

/-!
# The upgrade to TLS

A MySQL login that was told to use TLS reads the server's greeting, sends one SSLRequest if the
server offers TLS, and does everything else over the TLS connection. The SSLRequest has the
capabilities and the character set, and nothing of the user, the password or the database.
-/

namespace DbPivot.Mysql

open DbPivot.Go DbPivot.System

/-- The SSLRequest that answers a greeting, on the wire. -/
def sslRequestPacket (seq : UInt8) (hs : HandshakeV10) (withDB : Bool) : Bytes :=
  packetBytes (seq + 1)
    (encodeSSLRequest (mysqlUpstreamCaps hs.capabilities withDB ||| clientSSL) defaultCharsetUTF8MB4)

/-- What a login over TLS may have written outside TLS: nothing, or a beginning of the SSLRequest to
a server whose greeting offers TLS. -/
def SSLRequested (server : Socket) (output : Bytes) : Prop :=
  output = [] ∨ ∃ seq payload after hs withDB, readPacket.run server = (.ok (seq, payload), after) ∧
    parseHandshakeV10 payload = .ok hs ∧ hs.capabilities &&& clientSSL ≠ 0 ∧
    output <+: sslRequestPacket seq hs withDB

theorem length_sslRequestPacket (seq : UInt8) (hs : HandshakeV10) (withDB : Bool) :
    (sslRequestPacket seq hs withDB).length = 36 := by
  have hlength : (encodeSSLRequest (mysqlUpstreamCaps hs.capabilities withDB ||| clientSSL)
      defaultCharsetUTF8MB4).length = 32 := by
    simp [encodeSSLRequest, loginHeader]
  have hlt : (encodeSSLRequest (mysqlUpstreamCaps hs.capabilities withDB ||| clientSSL)
      defaultCharsetUTF8MB4).length < maxPacketPayload := by
    rw [hlength]
    decide
  rw [sslRequestPacket, packetBytes, frames_of_lt hlt, List.flatMap_singleton, Frame.bytes,
    List.length_append, length_frameHeader, hlength]

variable {Key : Type} {crypto : Crypto Key} {α : Type}

/-! ## Over TLS -/

/-- The call uses the TLS connection, or none. -/
def OverTls : LoginCall → Prop
  | .readPacket conn => conn = .tls
  | .writePacket conn _ _ => conn = .tls
  | .handshake _ => False
  | .entropy => True

theorem calls_readPacket (context : String) : (Login.readPacket .tls context).Calls OverTls :=
  ⟨rfl, fun _ ↦ trivial⟩

theorem calls_writePacket (seq : UInt8) (payload : Bytes) (change : GoError → GoError) :
    (Login.writePacket .tls seq payload change).Calls OverTls :=
  ⟨rfl, fun _ ↦ trivial⟩

theorem calls_entropy : Login.entropy.Calls OverTls := ⟨trivial, fun _ ↦ trivial⟩

theorem calls_lift (result : GoM GoError α) : (Program.lift result : LoginM α).Calls OverTls :=
  trivial

theorem calls_mysqlCachingSHA2RSA (seq : UInt8) (password salt : Bytes) :
    (mysqlCachingSHA2RSA crypto .tls seq password salt).Calls OverTls := by
  apply (calls_writePacket _ _ _).bind
  intro _
  apply (calls_readPacket _).bind
  rintro ⟨rseq, payload⟩
  apply (calls_lift _).bind
  intro _
  apply (calls_lift _).bind
  intro pub
  apply calls_entropy.bind
  intro seed
  apply (calls_lift _).bind
  intro enc
  exact calls_writePacket _ _ _

theorem calls_mysqlCachingSHA2More (seq : UInt8) (payload password salt : Bytes) (secure : Bool) :
    (mysqlCachingSHA2More crypto .tls seq payload password salt secure).Calls OverTls := by
  unfold mysqlCachingSHA2More
  split
  · split
    · trivial
    split
    · split
      · exact calls_writePacket _ _ _
      split
      · exact calls_writePacket _ _ _
      · exact calls_mysqlCachingSHA2RSA seq password salt
    · exact calls_lift _
  · exact calls_lift _

theorem calls_mysqlFinishAuth (password : Bytes) (secure : Bool) (fuel : ℕ) (seq : UInt8)
    (plugin salt : Bytes) :
    (mysqlFinishAuth crypto .tls password secure fuel seq plugin salt).Calls OverTls := by
  induction fuel generalizing seq plugin salt with
  | zero => exact calls_lift _
  | succ fuel ih =>
    apply (calls_readPacket _).bind
    rintro ⟨rseq, payload⟩
    cases payload with
    | nil => exact calls_lift _
    | cons header rest =>
      dsimp only
      split
      · trivial
      split
      · exact calls_lift _
      split
      · apply (calls_lift _).bind
        rintro ⟨newPlugin, np⟩
        apply (calls_lift _).bind
        intro authResp
        apply (calls_writePacket _ _ _).bind
        intro seq
        exact ih _ _ _
      split
      · apply (calls_lift _).bind
        intro _
        apply (calls_mysqlCachingSHA2More _ _ _ _ _).bind
        intro seq
        exact ih _ _ _
      · exact calls_lift _

/-! ## The login -/

/-- What was written outside TLS is what may have been written. -/
def Guarded (server : Socket) (u : Upstream) : Prop := SSLRequested server u.link.plain.output

/-- The login goes on over TLS, and what was written outside TLS stays as it is. -/
def Encrypted (plain : Socket) (u : Upstream) : Prop := u.link.plain = plain ∧ u.link.tls.isSome

variable {server plain : Socket} {u : Upstream}

theorem encrypted_handler {c : LoginCall} (hc : OverTls c) (hu : Encrypted plain u) :
    Encrypted plain (Upstream.handler c u).2 := by
  cases c with
  | readPacket conn =>
    obtain rfl := hc
    exact ⟨(Link.plain_on_tls _ _).trans hu.1, (Link.isSome_tls_on _ _ _).trans hu.2⟩
  | writePacket conn seq payload =>
    obtain rfl := hc
    exact ⟨(Link.plain_on_tls _ _).trans hu.1, (Link.isSome_tls_on _ _ _).trans hu.2⟩
  | handshake serverName => exact hc.elim
  | entropy => exact hu

theorem Encrypted.guarded (hu : Encrypted plain u) (hplain : SSLRequested server plain.output) :
    Guarded server u := by
  rw [Guarded, hu.1]
  exact hplain

theorem ensures_overTls {program : LoginM α} (hcalls : program.Calls OverTls)
    (hplain : SSLRequested server plain.output) (hu : Encrypted plain u) :
    Ensures Upstream.handler.world (Guarded server)
      (fun _ ↦ Encrypted plain) program u := by
  apply Ensures.of_calls (P := OverTls)
  · exact fun u hu ↦ hu.guarded hplain
  · exact fun _ _ _ _ _ hprogress ↦ hprogress.elim
  · intro u c reply u' hc hu hreply
    have hu' := encrypted_handler hc hu
    rw [hreply] at hu'
    exact hu'
  · exact hcalls
  · exact hu

/-- What comes after the upgrade. -/
theorem ensures_afterUpgrade (fuel : ℕ) (hs : HandshakeV10) (plugin user password database : Bytes)
    (caps : UInt32) (seq : UInt8) (secure : Bool) (hplain : SSLRequested server plain.output)
    (hu : Encrypted plain u) :
    Ensures Upstream.handler.world (Guarded server)
      (OnValue fun result u ↦ result.1 = Layer.tls ∧ u.link.tls.isSome)
      (do
        let authResp ← .lift (mysqlAuthResponse crypto plugin password hs.authPluginData)
        let resp := encodeHandshakeResponse41 caps defaultCharsetUTF8MB4 user authResp database plugin
        let seq ← Login.writePacket .tls seq resp (wrapf "write handshake response: %w" [])
        mysqlFinishAuth crypto .tls password secure fuel seq plugin hs.authPluginData
        pure (Layer.tls, hs, caps) : LoginM (Layer × HandshakeV10 × UInt32)) u := by
  apply Ensures.liftBind (hu.guarded hplain)
  intro authResp _
  apply Ensures.bindValue
  apply (ensures_overTls (calls_writePacket _ _ _) hplain hu).mono
  rintro (fault | seq) u hu
  · trivial
  apply Ensures.bindValue
  apply (ensures_overTls (calls_mysqlFinishAuth _ _ _ _ _ _) hplain hu).mono
  rintro (fault | _) u hu
  · trivial
  exact ⟨hu.guarded hplain, rfl, hu.2⟩

/-- The handshake: TLS is there when it succeeds. -/
theorem ensures_handshake (serverName : Bytes) (hu : Guarded server u) :
    Ensures Upstream.handler.world (Guarded server)
      (OnValue fun _ u' ↦ Encrypted u.link.plain u') (Login.handshake serverName) u := by
  have hsame : u.link.startTLS.2.plain = u.link.plain := Link.plain_startTLS u.link
  have hguarded : Guarded server { u with link := u.link.startTLS.2 } := by
    rw [Guarded, hsame]
    exact hu
  apply Ensures.callHandler hu
  refine ⟨hguarded, ?_⟩
  change OnValue _ (mapErr _ u.link.startTLS.1) _
  cases hresult : u.link.startTLS.1 with
  | ok result => exact ⟨hsame, Link.isSome_tls_of_startTLS hresult⟩
  | error fault => cases fault <;> trivial

/-- A packet outside TLS adds a beginning of its bytes. -/
theorem ensures_writePlain {seq : UInt8} {payload : Bytes} {change : GoError → GoError}
    (hu : Guarded server u) (hempty : u.link.plain.output = [])
    (hpart : ∀ output, output <+: packetBytes seq payload → SSLRequested server output) :
    Ensures Upstream.handler.world (Guarded server) (fun _ ↦ Guarded server)
      (Login.writePacket .plain seq payload change) u := by
  obtain ⟨written, hwritten, houtput⟩ := output_writePacket seq payload u.link.plain
  rw [hempty, List.nil_append] at houtput
  have hguarded : Guarded server (Upstream.handler (.writePacket .plain seq payload) u).2 := by
    simp only [Guarded, Upstream.handler, Link.on_plain]
    rw [houtput]
    exact hpart written hwritten
  exact Ensures.callHandler hu ⟨hguarded, hguarded⟩

/-- The SSLRequest goes out only to a server that offers TLS, and nothing else before the
handshake. -/
theorem ensures_upgrade {payload : Bytes} {seq : UInt8} {after : Socket} {hs : HandshakeV10}
    (withDB : Bool) (serverName : Bytes) (hread : readPacket.run server = (.ok (seq, payload), after))
    (hparse : parseHandshakeV10 payload = .ok hs) (hempty : u.link.plain.output = []) :
    Ensures Upstream.handler.world (Guarded server)
      (OnValue fun result u' ↦ result.1 = Layer.tls ∧
        ∃ plain : Socket, SSLRequested server plain.output ∧ Encrypted plain u')
      (upgrade .plain hs (mysqlUpstreamCaps hs.capabilities withDB) seq false (some serverName)) u := by
  have hu : Guarded server u := .inl hempty
  apply Ensures.liftBind hu
  intro _ hoffered
  have hssl : hs.capabilities &&& clientSSL ≠ 0 := refuse_eq_ok.mp hoffered
  have hpart (output : Bytes) (houtput : output <+: sslRequestPacket seq hs withDB) :
      SSLRequested server output :=
    .inr ⟨seq, payload, after, hs, withDB, hread, hparse, hssl, houtput⟩
  apply Ensures.bindValue
  apply (ensures_writePlain hu hempty hpart).mono
  rintro (fault | seq) u hu
  · trivial
  apply Ensures.bindValue
  apply (ensures_handshake serverName hu).mono
  rintro (fault | _) u' hu'
  · trivial
  exact ⟨hu'.guarded hu, rfl, u.link.plain, hu, hu'⟩

/-- The whole login over a connection on which nothing was written yet. -/
theorem ensures_authenticateOverTls (crypto : Crypto Key) (fuel : ℕ) (user password database serverName : Bytes)
    (hempty : u.link.plain.output = []) :
    Ensures Upstream.handler.world (Guarded u.link.plain)
      (OnValue fun result u' ↦ result.1 = Layer.tls ∧ u'.link.tls.isSome)
      (authenticateUpstreamMySQL crypto fuel .plain user password database false (some serverName))
      u := by
  have hu : Guarded u.link.plain u := .inl hempty
  have hsilent : (readPacket.run u.link.plain).2.output = [] :=
    (silent_readPacket u.link.plain).trans hempty
  apply Ensures.bindValue
  apply Ensures.callHandler hu
  simp only [Upstream.handler, Link.on_plain]
  refine ⟨.inl hsilent, ?_⟩
  rcases hread : readPacket.run u.link.plain with ⟨fault | ⟨seq, payload⟩, after⟩
  · cases fault <;> trivial
  rw [hread] at hsilent
  have hguarded (link : Link) (hlink : link.plain = after) :
      Guarded u.link.plain { u with link := link } := .inl (hlink ▸ hsilent)
  apply Ensures.liftBind (hguarded _ rfl)
  intro _ _
  apply Ensures.liftBind (hguarded _ rfl)
  intro hs hparse
  apply Ensures.bindValue
  apply (ensures_upgrade _ serverName hread hparse hsilent).mono
  rintro (fault | ⟨conn, caps, seq, secure⟩) u' hu'
  · trivial
  obtain ⟨rfl, plain, hplain, hu'⟩ := hu'
  exact ensures_afterUpgrade fuel hs _ user password database caps seq secure hplain hu'

/-- Whatever the server sends, a login that was told to use TLS writes at most an SSLRequest outside
TLS, and it succeeds only over TLS. -/
theorem authenticateOverTls (crypto : Crypto Key) (fuel : ℕ)
    (user password database serverName : Bytes) {link : Link} (hempty : link.plain.output = [])
    (seeds : List Bytes) {result : GoM GoError (Layer × HandshakeV10 × UInt32)} {u : Upstream}
    (hexec : (authenticateUpstreamMySQL crypto fuel .plain user password database false
      (some serverName)).exec Upstream.handler ⟨link, seeds⟩ = (result, u)) :
    SSLRequested link.plain u.link.plain.output ∧
      ∀ value, result = .ok value → value.1 = .tls ∧ u.link.tls.isSome := by
  have h := (ensures_authenticateOverTls (u := ⟨link, seeds⟩) crypto fuel user password database
    serverName hempty).exec
  rw [hexec] at h
  refine ⟨h.1, ?_⟩
  rintro value rfl
  exact h.2

end DbPivot.Mysql
