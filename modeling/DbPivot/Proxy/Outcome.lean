import DbPivot.Proxy.Handler

/-!
# How a login ends

Between the client's request and the first byte that is copied, a handler can stop at many points.
At each of them it has to tell the client at most once how the login went, to tell it the truth, and
to leave no socket open and no connection in the registry.

The ledger keeps the account of one client connection: what the client was told, which sockets are
open, whether the upstream has accepted the login, and how far the `Close` of the registered
connection has got. Every call may succeed or fail. Once the connection is registered, a switch or a
shutdown may begin to close it at any moment, also while the handler does so itself.
-/

namespace DbPivot.Proxy.Outcome

open DbPivot.Go DbPivot.Config DbPivot.System
open DbPivot.Mongo (Env BSON MsgHeader)
open DbPivot.Postgres (ascii)

/-! ## The ledger -/

/-- What a client sees of its login: a message of the proxy that concludes it, or the first byte of
the upstream. -/
inductive Event where
  | success
  | failure
  | relayed
deriving DecidableEq

/-- A PostgreSQL message as a conclusion: AuthenticationOk or ErrorResponse. -/
def conclusionOfMessage (typ : UInt8) : List Event :=
  if typ = ascii 'R' then [.success] else if typ = ascii 'E' then [.failure] else []

/-- A MySQL packet as a conclusion: OK or ERR. -/
def conclusionOfPacket (payload : Bytes) : List Event :=
  if Mysql.isOKPacket payload then [.success]
  else if Mysql.isErrPacket payload then [.failure]
  else []

/-- A reply to a MongoDB command as a conclusion: an error has `ok: 0`. -/
def conclusionOfReply (doc : BSON) : List Event :=
  match Mongo.lookup (str "ok") doc with
  | some (.double bits) => if bits = Mongo.zeroBits then [.failure] else []
  | _ => []

/-- The next step of the body of `Close`. -/
inductive Stage where
  | enter
  | client
  | upstream
  | deregister
  | finished
deriving DecidableEq

/-- The account of one client connection. The upstream sockets are those it has dialled, with the
latest first; `tls` is whether there is a TLS connection over that one. -/
structure Ledger where
  events : List Event
  client : Bool
  upstreams : List Bool
  tls : Bool
  loggedIn : Bool
  relayed : Bool
  registered : Bool
  conn : Option (Layer × Stage)

/-- A connection that was just accepted. -/
def Ledger.accepted : Ledger where
  events := []
  client := true
  upstreams := []
  tls := false
  loggedIn := false
  relayed := false
  registered := false
  conn := none

namespace Ledger

def record (s : Ledger) (events : List Event) : Ledger := { s with events := s.events ++ events }

/-- The latest of the sockets is closed. -/
def closeLatest : List Bool → List Bool
  | [] => []
  | _ :: earlier => false :: earlier

/-- `Close` on the variable that holds the upstream connection: a TLS connection closes the TCP
connection under it, if there is one. -/
def closeUpstream (s : Ledger) (layer : Layer) : Ledger :=
  { s with upstreams := if layer = .plain ∨ s.tls then closeLatest s.upstreams else s.upstreams }

theorem tail_closeLatest (sockets : List Bool) : (closeLatest sockets).tail = sockets.tail := by
  cases sockets <;> rfl

theorem tail_upstreams_closeUpstream (s : Ledger) (layer : Layer) :
    (s.closeUpstream layer).upstreams.tail = s.upstreams.tail := by
  simp only [closeUpstream]
  split
  · exact tail_closeLatest s.upstreams
  · rfl

/-- `Close` on a variable that holds the latest socket leaves none open. -/
theorem upstreams_closeUpstream {s : Ledger} {layer : Layer} (hholds : layer = .plain ∨ s.tls)
    (hearlier : ∀ socket ∈ s.upstreams.tail, socket = false) :
    ∀ socket ∈ (s.closeUpstream layer).upstreams, socket = false := by
  simp only [closeUpstream, if_pos hholds]
  cases hupstreams : s.upstreams with
  | nil => nofun
  | cons latest earlier =>
    rw [hupstreams] at hearlier
    exact List.forall_mem_cons.mpr ⟨rfl, hearlier⟩

/-- The ledger after a call with its reply. -/
def after (s : Ledger) : (c : Call) → handlerInterface.Reply c → Ledger
  | .write .client (typ :: _), _ => s.record (conclusionOfMessage typ)
  | .writeMessage .client typ _, _ => s.record (conclusionOfMessage typ)
  | .writePacket .client _ payload, _ => s.record (conclusionOfPacket payload)
  | .writeMongoReply .client _ _ doc, _ => s.record (conclusionOfReply doc)
  | .dial _ _, .ok _ => { s with upstreams := true :: s.upstreams, tls := false, loggedIn := false }
  | .negotiateTLS _, .ok _ => { s with tls := true }
  | .authenticatePostgres _ _ _, .ok _ => { s with loggedIn := true }
  | .authenticateMySQL _ _ _ _ _, .ok (layer, _) =>
    { s with loggedIn := true, tls := s.tls || layer = .tls }
  | .authenticateMongo _ _ _ _, .ok _ => { s with loggedIn := true }
  | .register layer _, _ => { s with registered := true, conn := some (layer, .enter) }
  | .pipe layer, _ => { s.closeUpstream layer with client := false }
  | .close .client, _ => { s with client := false }
  | .close (.upstream layer), _ => s.closeUpstream layer
  | _, _ => s

/-- What happens while a call is in progress: a step of the body of `Close`, whoever runs it, or the
first byte from the upstream. -/
inductive Progress (s : Ledger) : Call → Ledger → Prop where
  | enter {c : Call} {layer : Layer} (hconn : s.conn = some (layer, .enter)) :
      Progress s c { s with conn := some (layer, .client) }
  | client {c : Call} {layer : Layer} (hconn : s.conn = some (layer, .client)) :
      Progress s c { s with client := false, conn := some (layer, .upstream) }
  | upstream {c : Call} {layer : Layer} (hconn : s.conn = some (layer, .upstream)) :
      Progress s c { s.closeUpstream layer with conn := some (layer, .deregister) }
  | deregister {c : Call} {layer : Layer} (hconn : s.conn = some (layer, .deregister)) :
      Progress s c { s with registered := false, conn := some (layer, .finished) }
  | relay {layer : Layer} (hfirst : s.relayed = false) :
      Progress s (.pipe layer) { s.record [.relayed] with relayed := true }

/-- Every reply to every call is possible, except that `Close` returns only when its body has been
run to the end. -/
def world : World handlerInterface Ledger where
  progress := Progress
  reply s c reply s' := s' = s.after c reply ∧ (c = .closeConn → ∃ layer, s.conn = some (layer, .finished))

end Ledger

/-! ## What has to hold -/

/-- What the client was told since the handler began: at most one failure, or the conclusions of a
login that the upstream has accepted. -/
def Concluded (base conclusions : List Event) (s : Ledger) : Prop :=
  ∃ told, s.events = base ++ told ∧
    (told <+: [.failure] ∨ s.loggedIn ∧ told <+: conclusions)

/-- Nothing is left of the upstream's side. -/
structure Released (s : Ledger) : Prop where
  closed : ∀ socket ∈ s.upstreams, socket = false
  deregistered : s.registered = false

/-- The connection is not registered yet. -/
structure Unregistered (events : List Event) (s : Ledger) : Prop where
  events : s.events = events
  relayed : s.relayed = false
  registered : s.registered = false
  conn : s.conn = none

/-- No upstream socket is open. -/
structure Idle (events : List Event) (s : Ledger) : Prop extends Unregistered events s where
  closed : ∀ socket ∈ s.upstreams, socket = false

/-- The latest upstream socket is the only open one, and the variable with this layer holds it. -/
structure Dialled (events : List Event) (layer : Layer) (s : Ledger) : Prop
    extends Unregistered events s where
  latest : ∃ earlier, s.upstreams = true :: earlier ∧ ∀ socket ∈ earlier, socket = false
  holds : layer = .plain ∨ s.tls

variable {base told conclusions : List Event} {layer : Layer} {s s' : Ledger} {α : Type}

theorem Idle.released (h : Idle told s) : Released s := ⟨h.closed, h.registered⟩

theorem Unregistered.concluded (h : Unregistered base s) : Concluded base conclusions s :=
  ⟨[], by rw [h.events, List.append_nil], .inl List.nil_prefix⟩

theorem Unregistered.failed (h : Unregistered (base ++ [.failure]) s) :
    Concluded base conclusions s :=
  ⟨[.failure], h.events, .inl List.prefix_rfl⟩

theorem Unregistered.succeeded (h : Unregistered (base ++ told) s) (hlogin : s.loggedIn)
    (htold : told <+: conclusions) : Concluded base conclusions s :=
  ⟨told, h.events, .inr ⟨hlogin, htold⟩⟩

theorem Unregistered.record (h : Unregistered base s) (events : List Event) :
    Unregistered (base ++ events) (s.record events) :=
  ⟨congrArg (· ++ events) h.events, h.relayed, h.registered, h.conn⟩

theorem Idle.record (h : Idle base s) (events : List Event) :
    Idle (base ++ events) (s.record events) :=
  ⟨h.toUnregistered.record events, h.closed⟩

theorem Dialled.record (h : Dialled base layer s) (events : List Event) :
    Dialled (base ++ events) layer (s.record events) :=
  ⟨h.toUnregistered.record events, h.latest, h.holds⟩

theorem Idle.dial (h : Idle base s) :
    Dialled base .plain { s with upstreams := true :: s.upstreams, tls := false, loggedIn := false } :=
  ⟨⟨h.events, h.relayed, h.registered, h.conn⟩, ⟨s.upstreams, rfl, h.closed⟩, .inl rfl⟩

theorem Dialled.earlier (h : Dialled told layer s) :
    ∀ socket ∈ s.upstreams.tail, socket = false := by
  obtain ⟨earlier, hlatest, hearlier⟩ := h.latest
  rw [hlatest]
  exact hearlier

/-- `Close` on the variable that holds the latest socket leaves none open. -/
theorem Dialled.close (h : Dialled told layer s) : Idle told (s.closeUpstream layer) :=
  ⟨⟨h.events, h.relayed, h.registered, h.conn⟩, Ledger.upstreams_closeUpstream h.holds h.earlier⟩

/-! ## Calls before the connection is registered -/

/-- Neither the pipe nor the `Close` of the registered connection. -/
def Early : Call → Prop
  | .pipe _ => False
  | .closeConn => False
  | _ => True

/-- Nothing happens between an early call and its reply. -/
theorem ensures_early {always : Ledger → Prop} {c : Call} (hc : Early c) (hconn : s.conn = none)
    (halways : always s) {next : handlerInterface.Reply c → HandlerM α}
    {post : GoM GoError α → Ledger → Prop}
    (hnext : ∀ reply, Ensures Ledger.world always post (next reply) (s.after c reply)) :
    Ensures Ledger.world always post (Program.call c next : HandlerM α) s := by
  intro s' hduring
  have hs' : s' = s := by
    induction hduring with
    | refl => rfl
    | tail _ hstep ih =>
      subst ih
      cases hstep with
      | relay hfirst => exact hc.elim
      | _ hstage => exact nomatch hconn.symm.trans hstage
  subst hs'
  refine ⟨halways, ?_⟩
  rintro reply _ ⟨rfl, _⟩
  exact hnext reply

/-- A call that leaves the ledger as it is, with its reply as the value. -/
theorem ensures_ask {always : Ledger → Prop} (c : Call) (hc : Early c) (hconn : s.conn = none)
    (halways : always s) (hafter : ∀ reply, s.after c reply = s)
    {next : handlerInterface.Reply c → HandlerM α} {post : GoM GoError α → Ledger → Prop}
    (hnext : ∀ reply, Ensures Ledger.world always post (next reply) s) :
    Ensures Ledger.world always post ((Program.perform c : HandlerM _) >>= next) s := by
  apply ensures_early hc hconn halways
  intro reply
  rw [hafter reply]
  exact hnext reply

/-- The part of a handler keeps what the client is told in order, leads to `value`, and leaves
nothing behind if it fails. -/
abbrev Settles (base conclusions : List Event) (value : α → Ledger → Prop) (program : HandlerM α)
    (s : Ledger) : Prop :=
  Ensures Ledger.world (Concluded base conclusions) (OnReturn value Released) program s

/-- The program tells the client this, or tries to. -/
def Tells (event : Event) (program : HandlerM Unit) : Prop :=
  ∀ (always : Ledger → Prop) (s : Ledger), s.conn = none → always s → always (s.record [event]) →
    Ensures Ledger.world always
      (OnReturn (fun _ s' ↦ s' = s.record [event]) (· = s.record [event])) program s

theorem tells_call {event : Event} {c : Call} {next : handlerInterface.Reply c → HandlerM Unit}
    (hc : Early c) (hafter : ∀ s reply, Ledger.after s c reply = s.record [event])
    (hnext : ∀ reply, ∃ result, next reply = .done result) :
    Tells event (Program.call c next) := by
  intro always s hconn halways hrecord
  apply ensures_early hc hconn halways
  intro reply
  obtain ⟨result, hresult⟩ := hnext reply
  rw [hafter, hresult]
  exact ⟨hrecord, onReturn_of_forall result (fun _ _ ↦ rfl) fun _ _ ↦ rfl⟩

/-- The program tells the client that the login has failed; an error of its own is ignored. -/
def Reports (program : HandlerM Unit) : Prop :=
  ∀ base conclusions s, Unregistered base s →
    Ensures Ledger.world (Concluded base conclusions)
      (OnReturn (fun _ s' ↦ s' = s.record [.failure]) fun _ ↦ False) program s

theorem Tells.reports {program : HandlerM Unit} (h : Tells .failure program) :
    Reports (ignoring program) := by
  intro base conclusions s hs
  exact ensures_ignoring (h _ s hs.conn hs.concluded (hs.record [.failure]).failed)

theorem reports_writeErrorResponse (sqlstate message : Bytes) :
    Reports (writeErrorResponse sqlstate message) :=
  Tells.reports (tells_call trivial (fun _ _ ↦ rfl) fun reply ↦ ⟨reply, rfl⟩)

theorem reports_writeMySQLErr (seq : UInt8) (code : UInt16) (sqlState msg : Bytes) :
    Reports (writeMySQLErr seq code sqlState msg) :=
  Tells.reports (tells_call trivial (fun _ _ ↦ rfl) fun reply ↦ ⟨reply, rfl⟩)

theorem reports_writeMongoError (env : Env) (hdr : MsgHeader) (message : GoError) (code : Int32) :
    Reports (writeMongoError env hdr message code) :=
  Tells.reports (tells_call trivial (fun _ _ ↦ rfl) fun reply ↦ ⟨reply, rfl⟩)

/-- A failure that is reported when no upstream socket is open. -/
theorem Reports.settles {program : HandlerM Unit} (h : Reports program) (hs : Idle base s) :
    Settles base conclusions (fun _ ↦ Released) program s := by
  apply ensures_mono (h base conclusions s hs.toUnregistered)
  · rintro _ _ rfl
    exact (hs.record _).released
  · exact fun _ ↦ False.elim

/-- `Close` of the one open upstream socket. -/
theorem settles_close (hs : Dialled told layer s) (hconcluded : Concluded base conclusions s) :
    Settles base conclusions (fun _ ↦ Released) (Handler.close (.upstream layer)) s := by
  apply ensures_early (c := .close (.upstream layer)) trivial hs.conn hconcluded
  intro _
  exact ⟨hconcluded, hs.close.released⟩

/-- A failure that is reported before the upstream socket is closed. -/
theorem Reports.settles_close {program : HandlerM Unit} (h : Reports program)
    (hs : Dialled base layer s) :
    Settles base conclusions (fun _ ↦ Released)
      (program >>= fun _ ↦ Handler.close (.upstream layer)) s := by
  have hfailed := hs.record [.failure]
  have hreport : Settles base conclusions (fun _ s' ↦ s' = s.record [.failure]) program s :=
    ensures_mono (h base conclusions s hs.toUnregistered) (fun _ _ hs' ↦ hs') fun _ ↦ False.elim
  apply ensures_bind hreport
  rintro _ _ hconcluded rfl
  exact Outcome.settles_close hfailed hconcluded

/-- A call that fails without a trace, and a report of the failure before the upstream socket is
closed. -/
theorem settles_orElse {program : HandlerM α} {report : GoError → HandlerM Unit}
    {value : α → Ledger → Prop} (hreport : ∀ error, Reports (report error))
    (h : Ensures Ledger.world (Concluded base conclusions) (OnReturn value (Dialled base layer))
      program s) :
    Settles base conclusions value
      (orElse program fun error ↦ report error >>= fun _ ↦ Handler.close (.upstream layer)) s :=
  ensures_orElse h fun error _ _ hs ↦ (hreport error).settles_close hs

/-- The dial of a handler. -/
theorem settles_dial {report : GoError → HandlerM Unit} (hreport : ∀ error, Reports (report error))
    (hs : Idle base s) (host : Bytes) (port : ℤ) :
    Settles base conclusions (fun _ ↦ Dialled base .plain) (orElse (Handler.dial host port) report)
      s := by
  have hdial : Ensures Ledger.world (Concluded base conclusions)
      (OnReturn (fun _ ↦ Dialled base .plain) (Idle base)) (Handler.dial host port) s := by
    apply ensures_early (c := .dial host port) trivial hs.conn hs.concluded
    intro reply
    match reply with
    | .ok () => exact ⟨hs.dial.concluded, hs.dial⟩
    | .error fault => exact ⟨hs.concluded, onReturn_of_forall _ nofun fun _ _ ↦ hs⟩
  exact ensures_orElse hdial fun error _ _ hs ↦ (hreport error).settles hs

/-- The client is told that the login has succeeded, and the socket is closed when that cannot be
written. -/
theorem settles_success {program : HandlerM Unit} (h : Tells .success program)
    (change : GoError → GoError) (hs : Dialled base layer s) (hlogin : s.loggedIn) :
    Settles base [.success, .relayed] (fun _ s ↦ Dialled (base ++ [.success]) layer s ∧ s.loggedIn)
      (orElse (onError change program) fun _ ↦ Handler.close (.upstream layer)) s := by
  have htold : [Event.success] <+: [.success, .relayed] := by decide
  have hsucceeded := hs.record [.success]
  have hconcluded := hsucceeded.succeeded hlogin htold
  have hwrite : Ensures Ledger.world (Concluded base [.success, .relayed])
      (OnReturn (fun _ s ↦ Dialled (base ++ [.success]) layer s ∧ s.loggedIn)
        (Dialled (base ++ [.success]) layer)) program s := by
    apply ensures_mono (h _ s hs.conn hs.concluded hconcluded)
    · rintro _ _ rfl
      exact ⟨hsucceeded, hlogin⟩
    · rintro _ rfl
      exact hsucceeded
  exact ensures_orElse (ensures_onError hwrite) fun _ _ hconcluded hs ↦ settles_close hs hconcluded

/-! ## The registered connection -/

/-- While the connection is registered: the client was told of a login that the upstream has
accepted, and the steps of `Close` that are done have had their effect. -/
structure Serving (base told : List Event) (layer : Layer) (s : Ledger) : Prop where
  loggedIn : s.loggedIn
  events : s.events = base ++ told ∧ s.relayed = false ∨
    s.events = base ++ told ++ [.relayed] ∧ s.relayed
  earlier : ∀ socket ∈ s.upstreams.tail, socket = false
  holds : layer = .plain ∨ s.tls
  conn : ∃ stage, s.conn = some (layer, stage) ∧
    ((stage = .deregister ∨ stage = .finished) → ∀ socket ∈ s.upstreams, socket = false) ∧
    (stage = .finished → s.registered = false)

theorem Serving.concluded (h : Serving base told layer s) :
    Concluded base (told ++ [.relayed]) s := by
  rcases h.events with ⟨hevents, _⟩ | ⟨hevents, _⟩
  · exact ⟨told, hevents, .inr ⟨h.loggedIn, List.prefix_append _ _⟩⟩
  · exact ⟨told ++ [.relayed], by rw [hevents, List.append_assoc],
      .inr ⟨h.loggedIn, List.prefix_rfl⟩⟩

theorem Dialled.register (h : Dialled (base ++ told) layer s) (hlogin : s.loggedIn) :
    Serving base told layer { s with registered := true, conn := some (layer, .enter) } where
  loggedIn := hlogin
  events := .inl ⟨h.events, h.relayed⟩
  earlier := h.earlier
  holds := h.holds
  conn := ⟨.enter, rfl, nofun, nofun⟩

/-- Both goroutines of the pipe have closed both sockets. -/
theorem Serving.pipe (h : Serving base told layer s) :
    Serving base told layer { s.closeUpstream layer with client := false } := by
  obtain ⟨stage, hconn, _, hfinished⟩ := h.conn
  have hclosed := Ledger.upstreams_closeUpstream h.holds h.earlier
  refine ⟨h.loggedIn, h.events, ?_, h.holds, stage, hconn, fun _ ↦ hclosed, hfinished⟩
  exact (s.tail_upstreams_closeUpstream layer).symm ▸ h.earlier

/-- What happens while a call is in progress keeps it so. -/
theorem Serving.progress (h : Serving base told layer s) {c : Call} (hstep : s.Progress c s') :
    Serving base told layer s' := by
  obtain ⟨stage, hconn, hclosed, hfinished⟩ := h.conn
  cases hstep with
  | enter hstage =>
    obtain ⟨rfl, rfl⟩ := Prod.mk.inj (Option.some.inj (hconn.symm.trans hstage))
    exact ⟨h.loggedIn, h.events, h.earlier, h.holds, .client, rfl, nofun, nofun⟩
  | client hstage =>
    obtain ⟨rfl, rfl⟩ := Prod.mk.inj (Option.some.inj (hconn.symm.trans hstage))
    exact ⟨h.loggedIn, h.events, h.earlier, h.holds, .upstream, rfl, nofun, nofun⟩
  | upstream hstage =>
    obtain ⟨rfl, rfl⟩ := Prod.mk.inj (Option.some.inj (hconn.symm.trans hstage))
    have hclosed := Ledger.upstreams_closeUpstream h.holds h.earlier
    refine ⟨h.loggedIn, h.events, ?_, h.holds, .deregister, rfl, fun _ ↦ hclosed, nofun⟩
    exact (s.tail_upstreams_closeUpstream layer).symm ▸ h.earlier
  | deregister hstage =>
    obtain ⟨rfl, rfl⟩ := Prod.mk.inj (Option.some.inj (hconn.symm.trans hstage))
    exact ⟨h.loggedIn, h.events, h.earlier, h.holds, .finished, rfl, fun _ ↦ hclosed (.inl rfl),
      fun _ ↦ rfl⟩
  | relay hfirst =>
    have hevents : s.events = base ++ told := by
      rcases h.events with ⟨hevents, _⟩ | ⟨_, hrelayed⟩
      · exact hevents
      · exact absurd hrelayed (by rw [hfirst]; decide)
    refine ⟨h.loggedIn, .inr ⟨?_, rfl⟩, h.earlier, h.holds, stage, hconn, hclosed, hfinished⟩
    exact congrArg (· ++ [Event.relayed]) hevents

theorem Serving.during (h : Serving base told layer s) {c : Call}
    (hduring : Ledger.world.During c s s') : Serving base told layer s' := by
  induction hduring with
  | refl => exact h
  | tail _ hstep ih => exact ih.progress hstep

/-- `Close` returns when its body has been run, by whomever. -/
theorem Serving.released (h : Serving base told layer s) {held : Layer}
    (hfinished : s.conn = some (held, .finished)) : Released s := by
  obtain ⟨stage, hconn, hclosed, hderegistered⟩ := h.conn
  obtain ⟨rfl, rfl⟩ := Prod.mk.inj (Option.some.inj (hconn.symm.trans hfinished))
  exact ⟨hclosed (.inr rfl), hderegistered rfl⟩

theorem settles_closeConn (h : Serving base told layer s) :
    Ensures Ledger.world (Concluded base (told ++ [.relayed])) (fun _ ↦ Released)
      Handler.closeConn s := by
  intro s' hduring
  have hs' := h.during hduring
  refine ⟨hs'.concluded, ?_⟩
  rintro reply _ ⟨rfl, hfinished⟩
  obtain ⟨held, hheld⟩ := hfinished rfl
  exact ⟨hs'.concluded, hs'.released hheld⟩

/-- From the registration on, whatever the switches and shutdowns of the proxy do. -/
theorem settles_serveConn (hs : Dialled (base ++ told) layer s) (hlogin : s.loggedIn)
    (rt : ResolvedTarget) :
    Settles base (told ++ [.relayed]) (fun _ ↦ Released) (serveConn layer rt) s := by
  have hconcluded := hs.succeeded hlogin (List.prefix_append told [.relayed])
  apply ensures_early (c := .register layer rt) trivial hs.conn hconcluded
  intro _
  have hserving := hs.register hlogin
  apply ensures_deferring
  intro s' hduring
  have hs' := hserving.during hduring
  refine ⟨hs'.concluded, ?_⟩
  rintro reply _ ⟨rfl, _⟩
  refine ⟨hs'.pipe.concluded, fun _ ↦ ?_⟩
  exact settles_closeConn hs'.pipe

/-! ## PostgreSQL -/

/-- A write to the upstream, or a read from the client, keeps everything. -/
theorem ensures_unchanged {always value error : Ledger → Prop} {c : Call}
    {next : handlerInterface.Reply c → HandlerM α} (hc : Early c) (hconn : s.conn = none)
    (halways : always s) (hvalue : value s) (herror : error s)
    (hafter : ∀ reply, s.after c reply = s)
    (hnext : ∀ reply, ∃ result, next reply = .done result) :
    Ensures Ledger.world always (OnReturn (fun _ ↦ value) error) (Program.call c next : HandlerM α)
      s := by
  apply ensures_early hc hconn halways
  intro reply
  obtain ⟨result, hresult⟩ := hnext reply
  rw [hafter, hresult]
  exact ⟨halways, onReturn_of_forall result (fun _ _ ↦ hvalue) fun _ _ ↦ herror⟩

theorem settles_dialPostgres (env : Env) (rt : ResolvedTarget) (hs : Idle base s) :
    Settles base conclusions (fun layer ↦ Dialled base layer) (dialPostgres env rt) s := by
  apply ensures_bind (settles_dial (fun _ ↦ reports_writeErrorResponse _ _) hs rt.host rt.port)
  intro _ s hconcluded hs
  split
  · have htls : Ensures Ledger.world (Concluded base conclusions)
        (OnReturn (fun _ ↦ Dialled base .tls) (Dialled base .plain)) (Handler.negotiateTLS rt.host)
        s := by
      apply ensures_early (c := .negotiateTLS rt.host) trivial hs.conn hconcluded
      intro reply
      match reply with
      | .ok () =>
        exact ⟨hconcluded, ⟨hs.events, hs.relayed, hs.registered, hs.conn⟩, hs.latest, .inr rfl⟩
      | .error fault => exact ⟨hconcluded, onReturn_of_forall _ nofun fun _ _ ↦ hs⟩
    apply ensures_bind (settles_orElse (fun _ ↦ reports_writeErrorResponse _ _) htls)
    intro _ s hconcluded hs
    exact ⟨hconcluded, hs⟩
  · exact ⟨hconcluded, hs⟩

theorem Dialled.login (h : Dialled base layer s) : Dialled base layer { s with loggedIn := true } :=
  ⟨⟨h.events, h.relayed, h.registered, h.conn⟩, h.latest, h.holds⟩

theorem settles_loginPostgres (env : Env) (rt : ResolvedTarget) (upStartup : Bytes)
    (hs : Dialled base layer s) :
    Settles base conclusions (fun _ s ↦ Dialled base layer s ∧ s.loggedIn)
      (loginPostgres env rt layer upStartup) s := by
  have hwrite : Ensures Ledger.world (Concluded base conclusions)
      (OnReturn (fun _ ↦ Dialled base layer) (Dialled base layer))
      (Handler.write (.upstream layer) upStartup) s :=
    ensures_unchanged trivial hs.conn hs.concluded hs hs (fun _ ↦ rfl) fun reply ↦ ⟨reply, rfl⟩
  apply ensures_bind (settles_orElse (fun _ ↦ reports_writeErrorResponse _ _) hwrite)
  intro _ s hconcluded hs
  apply settles_orElse fun _ ↦ reports_writeErrorResponse _ _
  apply ensures_early (c := .authenticatePostgres layer rt.user rt.password) trivial hs.conn
    hconcluded
  intro reply
  match reply with
  | .ok () => exact ⟨hs.login.concluded, hs.login, rfl⟩
  | .error fault => exact ⟨hconcluded, onReturn_of_forall _ nofun fun _ _ ↦ hs⟩

theorem tells_writeAuthenticationOk : Tells .success writeAuthenticationOk :=
  tells_call trivial (fun _ _ ↦ rfl) fun reply ↦ ⟨reply, rfl⟩

theorem settles_flushBuffered (hs : Dialled (base ++ told) layer s) (hlogin : s.loggedIn)
    (hconcluded : Concluded base conclusions s) :
    Settles base conclusions (fun _ s ↦ Dialled (base ++ told) layer s ∧ s.loggedIn)
      (flushBuffered layer) s := by
  apply ensures_ask .peek trivial hs.conn hconcluded fun _ ↦ rfl
  intro buffered
  split
  · have hwrite : Ensures Ledger.world (Concluded base conclusions)
        (OnReturn (fun _ s ↦ Dialled (base ++ told) layer s ∧ s.loggedIn)
          fun s ↦ Dialled (base ++ told) layer s ∧ s.loggedIn)
        (Handler.write (.upstream layer) buffered) s :=
      ensures_unchanged trivial hs.conn hconcluded ⟨hs, hlogin⟩ ⟨hs, hlogin⟩ (fun _ ↦ rfl)
        fun reply ↦ ⟨reply, rfl⟩
    apply ensures_bind (ensures_orElse hwrite fun _ s hconcluded hs ↦ settles_close hs.1 hconcluded)
    intro _ s hconcluded hs
    apply ensures_early (c := .discard buffered.length) trivial hs.1.conn hconcluded
    intro _
    exact ⟨hconcluded, hs⟩
  · exact ⟨hconcluded, hs, hlogin⟩

/-- `handleStartup` from its first read to its return. -/
theorem settles_handleStartup (env : Env) (msgLen : ℕ) (hs : Idle base s) :
    Settles base [.success, .relayed] (fun _ ↦ Released) (handleStartup env msgLen) s := by
  have hread : Settles base [.success, .relayed] (fun _ ↦ Idle base)
      (Handler.readFull (msgLen - 8)) s :=
    ensures_unchanged trivial hs.conn hs.concluded hs hs.released (fun _ ↦ rfl) fun reply ↦
      ⟨reply, rfl⟩
  apply ensures_bind (ensures_onError hread)
  intro body s hconcluded hs
  apply ensures_liftBind hconcluded hs.released
  intro params _
  apply ensures_ask (.lookupDatabase _ _) trivial hs.conn hconcluded fun _ ↦ rfl
  intro found
  cases found with
  | false => exact (reports_writeErrorResponse _ _).settles hs
  | true =>
    apply ensures_ask (.current _ _) trivial hs.conn hconcluded fun _ ↦ rfl
    intro target
    cases target with
    | none => exact (reports_writeErrorResponse _ _).settles hs
    | some rt =>
      apply ensures_liftBind hconcluded hs.released
      intro upStartup _
      apply ensures_bind (settles_dialPostgres env rt hs)
      intro layer s hconcluded hs
      apply ensures_bind (settles_loginPostgres env rt upStartup hs)
      intro _ s hconcluded hs
      apply ensures_bind (settles_success tells_writeAuthenticationOk _ hs.1 hs.2)
      intro _ s hconcluded hs
      apply ensures_bind (settles_flushBuffered hs.1 hs.2 hconcluded)
      intro _ s hconcluded hs
      exact settles_serveConn hs.1 hs.2 rt

theorem settles_readFull (hs : Idle base s) (n : ℕ) :
    Settles base conclusions (fun _ ↦ Idle base) (Handler.readFull n) s :=
  ensures_unchanged trivial hs.conn hs.concluded hs hs.released (fun _ ↦ rfl) fun reply ↦
    ⟨reply, rfl⟩

theorem settles_readUint32 (hs : Idle base s) :
    Settles base conclusions (fun _ ↦ Idle base) readUint32 s := by
  apply ensures_bind (settles_readFull hs 4)
  intro word s hconcluded hs
  exact ⟨hconcluded, hs⟩

theorem settles_dispatchLoop (env : Env) (attempts : ℕ) (hs : Idle base s) :
    Settles base [.success, .relayed] (fun _ ↦ Released) (dispatchLoop env attempts) s := by
  induction attempts generalizing s with
  | zero => exact ensures_lift hs.concluded nofun hs.released
  | succ attempts ih =>
    apply ensures_bind (ensures_onError (settles_readUint32 hs))
    intro msgLen s hconcluded hs
    apply ensures_liftBind hconcluded hs.released
    intro _ _
    apply ensures_bind (ensures_onError (settles_readUint32 hs))
    intro code s hconcluded hs
    split
    · have hwrite : Settles base [.success, .relayed] (fun _ ↦ Idle base)
          (Handler.write .client [ascii 'N']) s :=
        ensures_unchanged trivial hs.conn hconcluded hs hs.released
          (fun _ ↦ congrArg (fun events ↦ { s with events }) s.events.append_nil) fun reply ↦
          ⟨reply, rfl⟩
      apply ensures_bind (ensures_onError hwrite)
      intro _ s _ hs
      exact ih hs
    split
    · apply ensures_bind (ensures_onError (settles_readFull hs _))
      intro _ s hconcluded hs
      exact ⟨hconcluded, hs.released⟩
    split
    · exact settles_handleStartup env msgLen.toNat hs
    · exact ensures_lift hconcluded nofun hs.released

/-! ## MySQL -/

theorem settles_loginMySQL (env : Env) (rt : ResolvedTarget) (login : ClientLogin)
    (hs : Idle base s) :
    Settles base conclusions (fun value s ↦ Dialled base value.1 s ∧ s.loggedIn)
      (loginMySQL env rt login) s := by
  apply ensures_bind (settles_dial (fun _ ↦ reports_writeMySQLErr _ _ _ _) hs rt.host rt.port)
  intro _ s hconcluded hs
  apply settles_orElse fun _ ↦ reports_writeMySQLErr _ _ _ _
  apply ensures_early (c := .authenticateMySQL .plain rt.user rt.password _ (mysqlTLSConfig rt))
    trivial hs.conn hconcluded
  intro reply
  match reply with
  | .ok (layer, caps) =>
    have hlogin : Dialled base layer
        { s with loggedIn := true, tls := s.tls || decide (layer = .tls) } := by
      refine ⟨⟨hs.events, hs.relayed, hs.registered, hs.conn⟩, hs.latest, ?_⟩
      cases layer with
      | plain => exact .inl rfl
      | tls => exact .inr (Bool.or_true s.tls)
    exact ⟨hlogin.concluded, hlogin, rfl⟩
  | .error fault => exact ⟨hconcluded, onReturn_of_forall _ nofun fun _ _ ↦ hs⟩

theorem tells_okPacket (seq : UInt8) :
    Tells .success (Handler.writePacket .client seq
      (Mysql.encodeOKPacket 0 0 serverStatusAutocommit 0)) :=
  tells_call trivial (fun _ _ ↦ rfl) fun reply ↦ ⟨reply, rfl⟩

theorem settles_concludeMySQL (rt : ResolvedTarget) (login : ClientLogin) (upCaps : UInt32)
    (hs : Dialled base layer s) (hlogin : s.loggedIn) :
    Settles base [.success, .relayed] (fun _ ↦ Released) (concludeMySQL rt login layer upCaps) s := by
  rw [concludeMySQL]
  split
  · rw [← bind_assoc]
    apply ensures_bind ((reports_writeMySQLErr _ _ _ _).settles_close hs)
    intro _ s hconcluded hs
    exact ensures_lift hconcluded nofun hs
  · apply ensures_bind (settles_success (tells_okPacket login.nextSeq) _ hs hlogin)
    intro _ s _ hs
    exact settles_serveConn hs.1 hs.2 rt

theorem settles_greetClientMySQL (connectionID : UInt32) (hs : Idle base s) :
    Settles base conclusions (fun _ ↦ Idle base) (greetClientMySQL mysqlServerVersion connectionID)
      s := by
  have hrand : Settles base conclusions (fun _ ↦ Idle base) (Handler.rand 20) s :=
    ensures_unchanged trivial hs.conn hs.concluded hs hs.released (fun _ ↦ rfl) fun reply ↦
      ⟨reply, rfl⟩
  have hsalt : Settles base conclusions (fun _ ↦ Idle base) newMySQLSalt s :=
    ensures_bind (ensures_onError hrand) fun _ _ hconcluded hs ↦ ⟨hconcluded, hs⟩
  apply ensures_bind hsalt
  intro salt s hconcluded hs
  have hgreeting : Settles base conclusions (fun _ ↦ Idle base)
      (Handler.writePacket .client 0 (mysqlGreeting mysqlServerVersion connectionID salt)) s :=
    ensures_unchanged trivial hs.conn hconcluded hs hs.released
      (fun _ ↦ congrArg (fun events ↦ { s with events }) s.events.append_nil) fun reply ↦
      ⟨reply, rfl⟩
  apply ensures_bind (ensures_onError hgreeting)
  intro _ s hconcluded hs
  have hanswer : Settles base conclusions (fun _ ↦ Idle base) (Handler.readPacket .client) s :=
    ensures_unchanged trivial hs.conn hconcluded hs hs.released (fun _ ↦ rfl) fun reply ↦
      ⟨reply, rfl⟩
  apply ensures_bind (ensures_onError hanswer)
  rintro ⟨seq, payload⟩ s hconcluded hs
  apply ensures_liftBind hconcluded hs.released
  intro resp _
  exact ⟨hconcluded, hs⟩

/-- `dispatchMySQL` from its first call to its return. -/
theorem settles_dispatchMySQL (env : Env) (hs : Idle base s) :
    Settles base [.success, .relayed] (fun _ ↦ Released) (dispatchMySQL env) s := by
  apply ensures_ask .connSeq trivial hs.conn hs.concluded fun _ ↦ rfl
  intro connID
  apply ensures_bind (ensures_onError (settles_greetClientMySQL connID hs))
  intro login s hconcluded hs
  apply ensures_ask (.lookupDatabase _ _) trivial hs.conn hconcluded fun _ ↦ rfl
  intro found
  cases found with
  | false => exact (reports_writeMySQLErr _ _ _ _).settles hs
  | true =>
    apply ensures_ask (.current _ _) trivial hs.conn hconcluded fun _ ↦ rfl
    intro target
    cases target with
    | none => exact (reports_writeMySQLErr _ _ _ _).settles hs
    | some rt =>
      apply ensures_bind (settles_loginMySQL env rt login hs)
      rintro ⟨layer, upCaps⟩ s hconcluded hs
      exact settles_concludeMySQL rt login upCaps hs.1 hs.2

/-! ## MongoDB -/

theorem settles_loginMongo (env : Env) (rt : ResolvedTarget) (hdr : MsgHeader) (hs : Idle base s) :
    Settles base conclusions (fun _ s ↦ Dialled base .plain s ∧ s.loggedIn) (loginMongo env rt hdr)
      s := by
  apply ensures_bind (settles_dial (fun _ ↦ reports_writeMongoError _ _ _ _) hs rt.host rt.port)
  intro _ s hconcluded hs
  apply settles_orElse fun _ ↦ reports_writeMongoError _ _ _ _
  apply ensures_early (c := .authenticateMongo .plain rt.user rt.password rt.authSource) trivial
    hs.conn hconcluded
  intro reply
  match reply with
  | .ok () => exact ⟨hs.login.concluded, hs.login, rfl⟩
  | .error fault => exact ⟨hconcluded, onReturn_of_forall _ nofun fun _ _ ↦ hs⟩

/-- `routeMongo`: the first byte of the upstream is the success. -/
theorem settles_routeMongo (env : Env) (db : Bytes) (hdr : MsgHeader) (body : Bytes)
    (hs : Idle base s) :
    Settles base [.relayed] (fun _ ↦ Released) (routeMongo env db hdr body) s := by
  apply ensures_ask (.current _ _) trivial hs.conn hs.concluded fun _ ↦ rfl
  intro target
  cases target with
  | none => exact (reports_writeMongoError _ _ _ _).settles hs
  | some rt =>
    apply ensures_bind (settles_loginMongo env rt hdr hs)
    intro _ s hconcluded hs
    have hforward : Ensures Ledger.world (Concluded base [.relayed])
        (OnReturn (fun _ s ↦ Dialled base .plain s ∧ s.loggedIn) (Dialled base .plain))
        (Handler.writeMongoMessage (.upstream .plain) hdr body) s :=
      ensures_unchanged trivial hs.1.conn hconcluded hs hs.1 (fun _ ↦ rfl) fun reply ↦ ⟨reply, rfl⟩
    apply ensures_bind (ensures_orElse (ensures_onError hforward) fun _ _ hconcluded hs ↦
      settles_close hs hconcluded)
    intro _ s _ hs
    have hdialled : Dialled (base ++ []) .plain s := (List.append_nil base).symm ▸ hs.1
    exact settles_serveConn hdialled hs.2 rt

/-! ## Any client -/

theorem Released.closeUpstream (h : Released s) (layer : Layer) :
    Released (s.closeUpstream layer) := by
  refine ⟨?_, h.deregistered⟩
  simp only [Ledger.closeUpstream]
  split
  · cases hupstreams : s.upstreams with
    | nil => nofun
    | cons latest earlier =>
      have hclosed := h.closed
      rw [hupstreams] at hclosed
      exact List.forall_mem_cons.mpr ⟨rfl, (List.forall_mem_cons.mp hclosed).2⟩
  · exact h.closed

/-- Nobody opens anything again. -/
theorem Released.during (h : Released s) {c : Call} (hduring : Ledger.world.During c s s') :
    Released s' := by
  induction hduring with
  | refl => exact h
  | tail _ hstep ih =>
    cases hstep with
    | enter _ => exact ⟨ih.closed, ih.deregistered⟩
    | client _ => exact ⟨ih.closed, ih.deregistered⟩
    | upstream _ => exact ⟨(ih.closeUpstream _).closed, ih.deregistered⟩
    | deregister _ => exact ⟨ih.closed, rfl⟩
    | relay _ => exact ⟨ih.closed, ih.deregistered⟩

/-- What `handleConn` asks of a handler: nothing is left of the upstream's side. -/
abbrev Releases (program : HandlerM Unit) (s : Ledger) : Prop :=
  Ensures Ledger.world (fun _ ↦ True) (OnReturn (fun _ ↦ Released) Released) program s

theorem Settles.releases {program : HandlerM Unit}
    (h : Settles base conclusions (fun _ ↦ Released) program s) : Releases program s :=
  h.weaken fun _ _ ↦ trivial

theorem releases_dispatchMongoLoop (env : Env) (peer : Mongo.Peer) (fuel : ℕ) (hs : Idle base s) :
    Releases (dispatchMongoLoop env peer fuel) s := by
  induction fuel generalizing base s with
  | zero => exact ⟨trivial, trivial⟩
  | succ fuel ih =>
    have hread : Ensures Ledger.world (fun _ ↦ True) (OnReturn (fun _ ↦ Idle base) Released)
        (Handler.readMongoMessage .client) s :=
      ensures_unchanged trivial hs.conn trivial hs hs.released (fun _ ↦ rfl) fun reply ↦
        ⟨reply, rfl⟩
    apply ensures_bind (ensures_onError hread)
    rintro ⟨hdr, body⟩ s _ hs
    apply ensures_liftBind trivial hs.released
    intro cmd _
    apply ensures_ask (.lookupDatabase _ _) trivial hs.conn trivial fun _ ↦ rfl
    intro found
    cases found with
    | true => exact (settles_routeMongo env cmd.db hdr body hs).releases
    | false =>
      apply ensures_ask .now trivial hs.conn trivial fun _ ↦ rfl
      intro time
      have hreply : Ensures Ledger.world (fun _ ↦ True)
          (OnReturn (fun _ ↦ Idle (base ++ conclusionOfReply (Mongo.localReply env peer time cmd).2))
            Released)
          (Handler.writeMongoReply .client hdr.opCode hdr.requestID
            (Mongo.localReply env peer time cmd).2) s := by
        have hrecord := hs.record (conclusionOfReply (Mongo.localReply env peer time cmd).2)
        apply ensures_early (c := .writeMongoReply _ _ _ _) trivial hs.conn trivial
        intro reply
        exact ⟨trivial, onReturn_of_forall reply (fun _ _ ↦ hrecord) fun _ _ ↦ hrecord.released⟩
      apply ensures_bind (ensures_onError hreply)
      intro _ s _ hs
      exact ih hs

theorem releases_dispatchAdapter (env : Env) (remoteAddr : Bytes) (fuel : ℕ) (adapter : Bytes)
    (hs : Idle base s) : Releases (dispatchAdapter env remoteAddr fuel adapter) s := by
  rw [dispatchAdapter]
  split
  · exact (settles_dispatchMySQL env hs).releases
  split
  · apply ensures_ask .connSeq trivial hs.conn trivial fun _ ↦ rfl
    intro connID
    exact releases_dispatchMongoLoop env _ fuel hs
  · exact (settles_dispatchLoop env 2 hs).releases

theorem Ledger.idle_accepted : Idle [] Ledger.accepted := ⟨⟨rfl, rfl, rfl, rfl⟩, nofun⟩

/-- The deferred `Close` of the client's socket. -/
theorem ensures_closeClient (s : Ledger) :
    Ensures Ledger.world (fun _ ↦ True)
      (fun _ s' ↦ Released s → s'.client = false ∧ Released s') (Handler.close .client) s := by
  intro s' hduring
  refine ⟨trivial, ?_⟩
  rintro reply _ ⟨rfl, _⟩
  refine ⟨trivial, fun hs ↦ ?_⟩
  have hs' := hs.during hduring
  exact ⟨rfl, hs'.closed, hs'.deregistered⟩

/-- When `handleConn` has returned, nothing is left of the connection. -/
theorem ensures_handleConn (env : Env) (remoteAddr : Bytes) (fuel : ℕ) (adapter : Bytes) :
    Ensures Ledger.world (fun _ ↦ True)
      (OnReturn (fun _ s ↦ s.client = false ∧ Released s) fun _ ↦ False)
      (handleConn env remoteAddr fuel adapter) .accepted := by
  apply ensures_ignoring
  apply ensures_deferring
  apply (releases_dispatchAdapter env remoteAddr fuel adapter Ledger.idle_accepted).mono
  intro result s hresult _
  apply (ensures_closeClient s).mono
  intro _ s' hs'
  match result, hresult with
  | .ok (), hresult => exact hs' hresult
  | .error (.err _), hresult => exact hs' hresult
  | .error .panic, _ => trivial
  | .error .outOfFuel, _ => trivial

/-- How a login ends, at every moment of every run: a handler tells the client of a success only when
the upstream has accepted the login, and it concludes the login at most once; and a connection whose
`handleConn` has returned has no open socket and is not in the registry. -/
theorem login_outcome_and_cleanup (env : Env) :
    (∀ (msgLen : ℕ) (state : HandlerM Unit × Ledger),
      Run Ledger.world.Step (handleStartup env msgLen, .accepted) state →
      Concluded [] [.success, .relayed] state.2) ∧
    (∀ state : HandlerM Unit × Ledger,
      Run Ledger.world.Step (dispatchMySQL env, .accepted) state →
      Concluded [] [.success, .relayed] state.2) ∧
    (∀ (db : Bytes) (hdr : MsgHeader) (body : Bytes) (state : HandlerM Unit × Ledger),
      Run Ledger.world.Step (routeMongo env db hdr body, .accepted) state →
      Concluded [] [.relayed] state.2) ∧
    ∀ (remoteAddr : Bytes) (fuel : ℕ) (adapter : Bytes) (s : Ledger),
      Run Ledger.world.Step (handleConn env remoteAddr fuel adapter, .accepted) (.done (.ok ()), s) →
      s.client = false ∧ (∀ socket ∈ s.upstreams, socket = false) ∧ s.registered = false := by
  have hidle := Ledger.idle_accepted
  refine ⟨?_, ?_, ?_, ?_⟩
  · intro msgLen state hrun
    exact ((settles_handleStartup env msgLen hidle).sound hrun).1
  · intro state hrun
    exact ((settles_dispatchMySQL env hidle).sound hrun).1
  · intro db hdr body state hrun
    exact ((settles_routeMongo env db hdr body hidle).sound hrun).1
  · intro remoteAddr fuel adapter s hrun
    obtain ⟨hclient, hreleased⟩ :=
      ((ensures_handleConn env remoteAddr fuel adapter).sound hrun).2 _ rfl
    exact ⟨hclient, hreleased.closed, hreleased.deregistered⟩

end DbPivot.Proxy.Outcome
