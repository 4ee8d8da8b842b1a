import DbPivot.Mysql.Sequence
import DbPivot.Proxy.Handler

/-!
# Sequence ids between the proxy and a MySQL client

The proxy opens the count on a client's link with its greeting, the client answers, and the one
packet with which the proxy concludes the login carries the id after the client's. Nothing the
upstream does, and nothing that goes wrong, lets the proxy send a second conclusion or one with
another id.
-/

namespace DbPivot.Proxy

open DbPivot.Go DbPivot.Config DbPivot.System DbPivot.Mysql
open DbPivot.Mongo (Env)

/-- A world that answers a handler in any way and records the packets on the client's link. -/
def ClientLogged (log : List Traffic) :
    (c : Call) → handlerInterface.Reply c → List Traffic → Prop
  | .readPacket .client, .ok (seq, _), log' => log' = log ++ [.received seq]
  | .readPacket .client, .error _, log' => log' = log
  | .writePacket .client seq payload, .ok _, log' => log' = log ++ sentFrames seq payload
  | .writePacket .client seq payload, .error _, log' =>
    ∃ part, part <+: sentFrames seq payload ∧ log' = log ++ part
  | _, _, log' => log' = log

/-- The traffic of a login: the greeting has id 0, and the single packet that concludes it, of which
a part may be out, carries the id after that of the client's packet. -/
def ClientLeg (log : List Traffic) : Prop :=
  log <+: [.sent 0] ∨
    ∃ seq conclusion part, (isOKPacket conclusion ∨ isErrPacket conclusion) ∧
      part <+: sentFrames (seq + 1) conclusion ∧ log = .sent 0 :: .received seq :: part

/-- The call puts no packet on the client's link. -/
def Quiet : Call → Prop
  | .readPacket .client => False
  | .writePacket .client _ _ => False
  | _ => True

/-- A login in which it is the proxy's turn to conclude. -/
def answered (seq : UInt8) : List Traffic := [.sent 0, .received seq]

theorem clientLeg_answered (seq : UInt8) : ClientLeg (answered seq) :=
  .inr ⟨seq, encodeOKPacket 0 0 0 0, [], .inl rfl, List.nil_prefix, rfl⟩

theorem clientLeg_conclusion {seq : UInt8} {conclusion : Bytes} {part : List Traffic}
    (hconclusion : isOKPacket conclusion ∨ isErrPacket conclusion)
    (hpart : part <+: sentFrames (seq + 1) conclusion) : ClientLeg (answered seq ++ part) :=
  .inr ⟨seq, conclusion, part, hconclusion, hpart, rfl⟩

variable {α : Type} {log : List Traffic}

theorem log_of_quiet {c : Call} (hc : Quiet c) {reply : handlerInterface.Reply c}
    {log' : List Traffic} (h : ClientLogged log c reply log') : log' = log := by
  cases c with
  | readPacket conn =>
    cases conn with
    | client => exact hc.elim
    | upstream layer => exact h
  | writePacket conn seq payload =>
    cases conn with
    | client => exact hc.elim
    | upstream layer => exact h
  | _ => exact h

/-- A program without packets for the client leaves the traffic as it is. -/
theorem ensures_quiet {program : HandlerM α} (hcalls : program.Calls Quiet) (hlog : ClientLeg log) :
    Ensures (.still ClientLogged) ClientLeg (OnReturn (fun _ log' ↦ log' = log) (· = log)) program
      log := by
  apply ensures_onReturn
  apply Ensures.of_calls (P := Quiet) (K := fun log' ↦ log' = log)
  · rintro _ rfl
    exact hlog
  · intro _ _ _ _ _ hprogress
    exact hprogress.elim
  · rintro _ c reply log' hc rfl hreply
    exact log_of_quiet hc hreply
  · exact hcalls
  · rfl

/-- A call without a packet for the client. -/
theorem ensures_quietCall (c : Call) (hc : Quiet c) (hlog : ClientLeg log)
    {next : handlerInterface.Reply c → HandlerM α} {post : GoM GoError α → List Traffic → Prop}
    (hnext : ∀ reply, Ensures (.still ClientLogged) ClientLeg post (next reply) log) :
    Ensures (.still ClientLogged) ClientLeg post ((Program.perform c : HandlerM _) >>= next) log := by
  apply Ensures.call hlog
  intro reply log' hreply
  rw [log_of_quiet hc hreply]
  exact hnext reply

/-- The program leaves the traffic of a login. -/
abbrev KeepsLeg (program : HandlerM α) (log : List Traffic) : Prop :=
  Ensures (.still ClientLogged) ClientLeg (OnReturn (fun _ ↦ ClientLeg) ClientLeg) program log

theorem keepsLeg_of_quiet {program : HandlerM α} (hcalls : program.Calls Quiet)
    (hlog : ClientLeg log) : KeepsLeg program log := by
  apply (ensures_quiet hcalls hlog).and_always.mono
  intro result log' hlog'
  exact onReturn_of_forall result (fun _ _ ↦ hlog'.1) fun _ _ ↦ hlog'.1

/-- A program without packets for the client may come after any other. -/
theorem KeepsLeg.bind {program : HandlerM Unit} {next : Unit → HandlerM α}
    (h : KeepsLeg program log) (hnext : (next ()).Calls Quiet) :
    KeepsLeg (program >>= next) log :=
  ensures_bind h fun _ _ hlog _ ↦ keepsLeg_of_quiet hnext hlog

theorem KeepsLeg.orElse {program : HandlerM Unit} {cleanup : GoError → HandlerM Unit}
    (h : KeepsLeg program log) (hcleanup : ∀ error, (cleanup error).Calls Quiet) :
    KeepsLeg (orElse program cleanup) log :=
  ensures_orElse h fun error _ hlog _ ↦ keepsLeg_of_quiet (hcleanup error) hlog

/-- The packet that concludes the login. -/
theorem keepsLeg_conclusion {conclusion : Bytes}
    (hconclusion : isOKPacket conclusion ∨ isErrPacket conclusion) (seq : UInt8) :
    KeepsLeg (Handler.writePacket .client (seq + 1) conclusion) (answered seq) := by
  apply Ensures.call (clientLeg_answered seq)
  intro reply log hreply
  have hlog : ClientLeg log := by
    match reply, hreply with
    | .ok (), hreply =>
      have hlog : log = answered seq ++ sentFrames (seq + 1) conclusion := hreply
      rw [hlog]
      exact clientLeg_conclusion hconclusion List.prefix_rfl
    | .error fault, hreply =>
      obtain ⟨part, hpart, rfl⟩ := hreply
      exact clientLeg_conclusion hconclusion hpart
  exact ⟨hlog, onReturn_of_forall reply (fun _ _ ↦ hlog) fun _ _ ↦ hlog⟩

theorem keepsLeg_writeMySQLErr (seq : UInt8) (code : UInt16) (sqlState msg : Bytes) :
    KeepsLeg (writeMySQLErr (seq + 1) code sqlState msg) (answered seq) :=
  ensures_ignoring (keepsLeg_conclusion (.inr rfl) seq)

/-! ## The greeting -/

theorem length_mysqlGreeting (connectionID : UInt32) (salt : Bytes) :
    (mysqlGreeting mysqlServerVersion connectionID salt).length < maxPacketPayload := by
  have hplugin : (mysqlProxyClientCaps &&& clientPluginAuth ≠ 0) = True := by decide
  have hversion : mysqlServerVersion.length = 13 := by decide
  have hname : mySQLNativePassword.length = 21 := by decide
  simp only [mysqlGreeting, encodeHandshakeV10, hplugin, if_true, List.length_append,
    List.length_take, List.length_drop, List.length_replicate, List.length_cons, List.length_nil,
    length_le32, length_le16, hversion, hname, maxPacketPayload]
  omega

theorem sentFrames_of_lt {payload : Bytes} (h : payload.length < maxPacketPayload) (seq : UInt8) :
    sentFrames seq payload = [.sent seq] := by
  rw [sentFrames, frames_of_lt h]
  rfl

/-- A part of the handler from which only the value is used. -/
abbrev Leads (program : HandlerM α) (post : α → List Traffic → Prop) (log : List Traffic) : Prop :=
  Ensures (.still ClientLogged) ClientLeg (OnReturn post fun _ ↦ True) program log

/-- The greeting goes out with id 0. -/
theorem leads_greeting (connectionID : UInt32) (salt : Bytes) :
    Leads (Handler.writePacket .client 0 (mysqlGreeting mysqlServerVersion connectionID salt))
      (fun _ log ↦ log = [.sent 0]) [] := by
  have hframes := sentFrames_of_lt (length_mysqlGreeting connectionID salt) 0
  apply Ensures.call (.inl List.nil_prefix)
  intro reply log hreply
  match reply, hreply with
  | .ok (), hreply =>
    have hlog : log = [.sent 0] := hframes ▸ hreply
    exact ⟨.inl (hlog ▸ List.prefix_rfl), hlog⟩
  | .error fault, hreply =>
    obtain ⟨part, hpart, hlog⟩ := hreply
    exact ⟨.inl (hlog ▸ hframes ▸ hpart), onReturn_of_forall _ nofun fun _ _ ↦ trivial⟩

/-- The answer of the client. -/
theorem leads_answer :
    Leads (Handler.readPacket .client) (fun value log ↦ log = answered value.1) [.sent 0] := by
  have hsent : ClientLeg [.sent 0] := .inl List.prefix_rfl
  apply Ensures.call hsent
  intro reply log hreply
  match reply, hreply with
  | .ok (seq, payload), hreply =>
    have hlog : log = answered seq := hreply
    exact ⟨hlog ▸ clientLeg_answered seq, hlog⟩
  | .error fault, hreply =>
    have hlog : log = [.sent 0] := hreply
    exact ⟨hlog ▸ hsent, onReturn_of_forall _ nofun fun _ _ ↦ trivial⟩

theorem leads_newMySQLSalt : Leads newMySQLSalt (fun _ log ↦ log = []) [] := by
  have hrand : (Handler.rand 20).Calls Quiet := ⟨trivial, fun _ ↦ trivial⟩
  have hsalt : newMySQLSalt.Calls Quiet := (calls_onError hrand).bind fun _ ↦ trivial
  exact ensures_mono (ensures_quiet hsalt (.inl List.nil_prefix)) (fun _ _ hlog ↦ hlog)
    fun _ _ ↦ trivial

theorem leads_greetClientMySQL (connectionID : UInt32) :
    Leads (greetClientMySQL mysqlServerVersion connectionID)
      (fun login log ↦ ∃ seq, log = answered seq ∧ login.nextSeq = seq + 1) [] := by
  apply ensures_bind leads_newMySQLSalt
  rintro salt _ _ rfl
  apply ensures_bind (ensures_onError (leads_greeting connectionID salt))
  rintro _ _ _ rfl
  apply ensures_bind (ensures_onError leads_answer)
  rintro ⟨seq, payload⟩ _ hleg rfl
  apply ensures_liftBind hleg trivial
  intro resp _
  exact ⟨hleg, seq, rfl, rfl⟩

/-! ## The conclusion -/

/-- Something between the proxy and the upstream, with a conclusion for the client if it fails. -/
theorem leads_orElse {program : HandlerM α} {cleanup : GoError → HandlerM Unit}
    (hlog : ClientLeg log) (hcalls : program.Calls Quiet)
    (hcleanup : ∀ error, KeepsLeg (cleanup error) log) :
    Leads (orElse program cleanup) (fun _ log' ↦ log' = log) log := by
  apply ensures_orElse (ensures_quiet hcalls hlog)
  rintro error _ _ rfl
  exact ensures_mono (hcleanup error) (fun _ _ _ ↦ trivial) fun _ _ ↦ trivial

theorem calls_close (layer : Layer) : (Handler.close (.upstream layer)).Calls Quiet :=
  ⟨trivial, fun _ ↦ trivial⟩

theorem calls_serveConn (layer : Layer) (rt : ResolvedTarget) : (serveConn layer rt).Calls Quiet :=
  ⟨trivial, fun _ ↦ ⟨trivial, fun _ ↦ ⟨trivial, fun _ ↦ trivial⟩⟩⟩

theorem leads_loginMySQL (env : Env) (rt : ResolvedTarget) {login : ClientLogin} {seq : UInt8}
    (hseq : login.nextSeq = seq + 1) :
    Leads (loginMySQL env rt login) (fun _ log ↦ log = answered seq) (answered seq) := by
  have hdial : (Handler.dial rt.host rt.port).Calls Quiet := ⟨trivial, fun _ ↦ trivial⟩
  rw [loginMySQL, hseq]
  apply ensures_bind
    (leads_orElse (clientLeg_answered seq) hdial fun _ ↦ keepsLeg_writeMySQLErr seq _ _ _)
  rintro _ _ hleg rfl
  exact leads_orElse hleg ⟨trivial, fun _ ↦ trivial⟩ fun _ ↦
    (keepsLeg_writeMySQLErr seq _ _ _).bind (calls_close .plain)

theorem keepsLeg_concludeMySQL (rt : ResolvedTarget) {login : ClientLogin} {seq : UInt8}
    (hseq : login.nextSeq = seq + 1) (layer : Layer) (upCaps : UInt32) :
    KeepsLeg (concludeMySQL rt login layer upCaps) (answered seq) := by
  rw [concludeMySQL, hseq]
  split
  · exact (keepsLeg_writeMySQLErr seq _ _ _).bind ((calls_close layer).bind fun _ ↦ trivial)
  · have hok : KeepsLeg (onError (wrapf "write OK to client: %w" [])
        (Handler.writePacket .client (seq + 1) (encodeOKPacket 0 0 serverStatusAutocommit 0)))
        (answered seq) :=
      ensures_onError (keepsLeg_conclusion (.inl rfl) seq)
    exact (hok.orElse fun _ ↦ calls_close layer).bind (calls_serveConn layer rt)

/-- Every path of the handler keeps the count on the client's link. -/
theorem leads_dispatchMySQL (env : Env) : Leads (dispatchMySQL env) (fun _ _ ↦ True) [] := by
  have hempty : ClientLeg [] := .inl List.nil_prefix
  have hkeeps {program : HandlerM Unit} {log : List Traffic} (h : KeepsLeg program log) :
      Leads program (fun _ _ ↦ True) log :=
    ensures_mono h (fun _ _ _ ↦ trivial) fun _ _ ↦ trivial
  apply ensures_quietCall .connSeq trivial hempty
  intro connID
  apply ensures_bind (ensures_onError (leads_greetClientMySQL connID))
  rintro login _ hleg ⟨seq, rfl, hseq⟩
  apply ensures_quietCall (.lookupDatabase _ _) trivial hleg
  intro found
  cases found with
  | false =>
    rw [hseq]
    exact hkeeps (keepsLeg_writeMySQLErr seq _ _ _)
  | true =>
    apply ensures_quietCall (.current _ _) trivial hleg
    intro target
    cases target with
    | none =>
      rw [hseq]
      exact hkeeps (keepsLeg_writeMySQLErr seq _ _ _)
    | some rt =>
      apply ensures_bind (leads_loginMySQL env rt hseq)
      rintro ⟨layer, upCaps⟩ _ _ rfl
      exact hkeeps (keepsLeg_concludeMySQL rt hseq layer upCaps)

/-- Both legs at every moment of every run: the login upstream goes on with the count of the server,
and the client's leg is the greeting, the answer and one conclusion with the id after the answer. -/
theorem sequence_ids_continuous {Key : Type} (crypto : Crypto Key) (env : Env) :
    (∀ (fuel : ℕ) (conn : Layer) (user password database : Bytes) (secure : Bool)
        (tlsConfig : Option Bytes) (state : _ × List Traffic),
      Run (World.Step (.still Logged))
        (authenticateUpstreamMySQL crypto fuel conn user password database secure tlsConfig, [])
        state →
      Continuous none state.2) ∧
    ∀ state : HandlerM Unit × List Traffic,
      Run (World.Step (.still ClientLogged)) (dispatchMySQL env, []) state → ClientLeg state.2 := by
  constructor
  · intro fuel conn user password database secure tlsConfig state hrun
    exact ((counts_authenticateUpstreamMySQL fuel conn user database secure tlsConfig).sound hrun).1
  · intro state hrun
    exact ((leads_dispatchMySQL env).sound hrun).1

end DbPivot.Proxy
