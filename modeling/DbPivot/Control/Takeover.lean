import DbPivot.Control.Client
import DbPivot.System.Processes

/-!
# The path of the control socket

The tool finds the daemon by the path of its control socket. `dbpivot serve` loads its
configuration, asks whoever listens on the path first, and gives way to a daemon that answers.
Otherwise it goes on, and some time later it removes whatever the path names and binds its own
socket there. A daemon that shuts down removes the path as well. Nothing holds the path between the
question and the answer to what it means, so two processes can be in the middle of this at once.

Here any number of processes run `dbpivot serve` for one path, and each of them may be killed at any
time. A process may also be started with a configuration that cannot be loaded. The question is when
a daemon that is up keeps its path. A connection to a socket with a listener is assumed to succeed,
and an open daemon to answer it.
-/

namespace DbPivot.Control.Takeover

open DbPivot.Go DbPivot.System
open DbPivot.Mongo (Env)

/-! ## The probe -/

/-- The request of `TryProbe`. -/
def probeRequest : Bytes := str "\x7b\"cmd\":\"status\"\x7d\n"

/-- The second half of `TryProbe`, with the error `json.Unmarshal` would return. -/
def readAnswer (parseError : GoError) : SocketM Response := do
  let text ← readBytes 0x0A
  match Response.codec.unmarshal text with
  | none => SocketM.lift (fail parseError)
  | some resp => pure resp

/-- `TryProbe` on the connection it has dialled. -/
def probe (parseError : GoError) : SocketM Response := do
  write probeRequest
  readAnswer parseError

/-- A response that a probe gets from a daemon, whose shutdown may have begun. -/
def Answer (closed : Bool) (resp : Response) : Prop :=
  ∃ (env : Env) (choices : Choices) (parseError : GoError) (d : Daemon) (client : Socket),
    d.closed = closed ∧ choices.Valid d ∧
    (probe parseError).run ⟨(handle env choices d ⟨client.output, [], none⟩).2.output, [], none⟩ =
      (.ok resp, client)

theorem probeRequest_eq : probeRequest = line Request.codec { cmd := cmdStatus } := by
  decide +kernel

theorem run_probe (parseError : GoError) (input : Bytes) :
    (probe parseError).run ⟨input, [], none⟩ =
      (readAnswer parseError).run ⟨input, probeRequest, none⟩ :=
  SocketM.bind_of_ok (write_of_room rfl) _

theorem silent_readAnswer (parseError : GoError) : (readAnswer parseError).Silent := by
  refine SocketM.Silent.bind (fun c ↦ output_readBytes 0x0A c) fun text c ↦ ?_
  split <;> rfl

theorem readAnswer_line (parseError : GoError) (resp : Response) (output : Bytes) :
    (readAnswer parseError).run ⟨line Response.codec resp, output, none⟩ =
      (.ok resp.coerce, ⟨[], output, none⟩) := by
  have hread : (readBytes 0x0A).run ⟨line Response.codec resp, output, none⟩ =
      (.ok (line Response.codec resp), ⟨[], output, none⟩) :=
    readBytes_line resp.newline_notMem output none
  rw [readAnswer, SocketM.bind_of_ok hread, resp.unmarshal_line]
  rfl

/-- The answer to a probe is good unless the daemon is shutting down. -/
theorem ok_of_answer {closed : Bool} {resp : Response} (h : Answer closed resp) :
    resp.ok = !closed := by
  obtain ⟨env, choices, parseError, d, client, rfl, hchoices, hrun⟩ := h
  obtain ⟨d', resp', server, hhandle, hserve, -, hwhole⟩ :=
    handle_request env hchoices { cmd := cmdStatus } none
  have hsent : client.output = line Request.codec { cmd := cmdStatus } := by
    rw [← probeRequest_eq]
    rw [run_probe] at hrun
    have hsilent := silent_readAnswer parseError
      ⟨(handle env choices d ⟨client.output, [], none⟩).2.output, probeRequest, none⟩
    rw [hrun] at hsilent
    exact hsilent
  have hok : resp'.ok = !d.closed := by
    have hcmd : ({ cmd := cmdStatus } : Request).coerce.cmd = cmdStatus := by decide
    rw [serve] at hserve
    cases hclosed : d.closed with
    | true =>
      rw [if_pos hclosed] at hserve
      obtain ⟨-, hresp⟩ := Prod.mk.inj hserve
      rw [← Option.some.inj hresp]
      rfl
    | false =>
      rw [if_neg (by rw [hclosed]; exact Bool.false_ne_true), if_neg (by rw [hcmd]; decide),
        if_pos hcmd] at hserve
      obtain ⟨-, hresp⟩ := Prod.mk.inj hserve
      rw [← Option.some.inj hresp]
      rfl
  rw [hsent, hhandle, run_probe] at hrun
  rw [hwhole rfl, readAnswer_line] at hrun
  obtain rfl := Except.ok.inj (Prod.mk.inj hrun).1
  exact hok

/-! ## `dbpivot serve` -/

/-- What `dbpivot serve` does that has to do with its control socket. -/
inductive ServeCall (Pid : Type) where
  /-- `config.Load`. -/
  | load
  /-- `net.Dial` of the path, in `TryProbe`. -/
  | dial
  /-- The rest of `TryProbe` on a connection to this process. -/
  | exchange (q : Pid)
  /-- `os.Remove` of the path. -/
  | remove
  /-- `parseVars`, `New` and the probes of the targets. -/
  | new
  /-- The two halves of `net.Listen`. -/
  | bind
  | listen
  /-- `os.Chmod` of the path. -/
  | chmod
  /-- `Close` of the listener, which removes the path first. -/
  | close
  /-- The accept loop of the control server. -/
  | serve
  /-- `Start`, until it fails or a signal comes. -/
  | start
  /-- `Shutdown`. -/
  | shutdown

/-- The calls and their replies; an error is given by its text. -/
def serveInterface (Pid : Type) : Interface where
  Call := ServeCall Pid
  Reply
    | .load => Except Bytes Unit
    | .dial => Except Bytes Pid
    | .exchange _ => Except Bytes Response
    | .new => Except Bytes Unit
    | .bind => Except Bytes Unit
    | .chmod => Except Bytes Unit
    | .start => Except Bytes Unit
    | _ => Unit

/-- A part of `dbpivot serve`. -/
abbrev ServeM (Pid α : Type) := Program (serveInterface Pid) Bytes α

variable {Pid : Type}

/-- `TryProbe`. -/
def tryProbe : ServeM Pid Response := do
  let q ← .call .dial .done
  .call (.exchange q) .done

/-- `IsRefused`, on the text of an error. -/
def IsRefused (err : Bytes) : Prop := str "connection refused" <:+: err

instance (err : Bytes) : Decidable (IsRefused err) := inferInstanceAs (Decidable (_ <:+: _))

/-- `Listen`. -/
def listen : ServeM Pid Unit := do
  .call .remove fun _ ↦ .done (.ok ())
  .call .bind .done
  .call .listen fun _ ↦ .done (.ok ())
  Program.andThen (.call .chmod .done) fun
    | .ok () => .done (.ok ())
    | .error err => .call .close fun _ ↦ .done (.error err)

/-- The goroutine that waits for a signal. The process may end at any point of it, since `Start`
returns when the listeners are closed. -/
def tearDown : ServeM Pid Unit := do
  .call .shutdown fun _ ↦ .done (.ok ())
  .call .close fun _ ↦ .done (.ok ())
  .call .remove fun _ ↦ .done (.ok ())

/-- `runServe` after its probe: the exit code, or the error that it returns. -/
def serveAt (path : Bytes) : ServeM Pid ℕ := do
  .call .new .done
  listen.andThen fun
    | .ok () => do
      .call .serve fun _ ↦ .done (.ok ())
      .call .start .done
      tearDown
      pure 0
    | .error err => .done (.error (str "bind control socket " ++ path ++ str ": " ++ err))

/-- `runServe` once its configuration is loaded. -/
def takeOver (path : Bytes) : ServeM Pid ℕ :=
  tryProbe.andThen fun
    | .ok resp => if resp.ok then .done (.ok 1) else serveAt path
    | .error err =>
      if IsRefused err then .call .remove fun _ ↦ serveAt path else serveAt path

/-- `runServe`, for a configuration that has this control socket or cannot be loaded. -/
def runServe (path : Bytes) : ServeM Pid ℕ := do
  .call .load .done
  takeOver path

/-! ## The path and the sockets -/

/-- The socket of a process. -/
inductive Mode where
  /-- There is none, or it was closed. -/
  | none
  /-- It has its path, but nobody listens yet. -/
  | bound
  /-- Connections are accepted, but nobody answers yet. -/
  | queueing
  | answering
  /-- The shutdown has begun. -/
  | closing
deriving DecidableEq

/-- The process whose socket the path names, and the sockets of all processes. -/
structure Sockets (Pid : Type) where
  file : Option Pid
  mode : Pid → Mode

/-- The result of dialling the path. -/
def Sockets.dial (path : Bytes) (s : Sockets Pid) : Except Bytes Pid :=
  match s.file with
  | none => .error (str "dial unix " ++ path ++ str ": connect: no such file or directory")
  | some q =>
    if s.mode q = .none ∨ s.mode q = .bound then
      .error (str "dial unix " ++ path ++ str ": connect: connection refused")
    else .ok q

/-- What a probe may get over a connection to a socket. A connection that waits to be accepted gets
an error when the socket is closed, and one that was accepted may still get its answer. -/
def Answered : Mode → Except Bytes Response → Prop
  | .none, .error _ => True
  | .none, .ok resp => ∃ closed, Answer closed resp
  | .closing, .ok resp => ∃ closed, Answer closed resp
  | .answering, .ok resp => Answer false resp
  | _, _ => False

/-- The sockets before anything happens. -/
def Sockets.unused : Sockets Pid := ⟨none, fun _ ↦ .none⟩

/-- The result of a process that was killed. -/
def killed : Except Bytes ℕ := .error (str "signal: killed")

/-- Processes that run `dbpivot serve`. -/
abbrev Host (Pid : Type) := Processes Pid (Sockets Pid) (ServeM Pid ℕ)

/-- Nobody has begun, and nothing is there. -/
def Host.start (path : Bytes) : Host Pid := ⟨⟨none, fun _ ↦ .none⟩, fun _ ↦ runServe path⟩

/-! ## Positions -/

/-- How far a process is, named after what comes next or what is going on. -/
inductive Phase (Pid : Type) where
  | loading
  | probing
  | asking (q : Pid)
  | clearing
  | opening
  | replacing
  | binding
  | listening
  | securing
  | dropping (err : Bytes)
  | launching
  | running
  | stopping
  | closing
  | removing
  | ended (result : Except Bytes ℕ)

/-- The error of a `Listen` that failed. -/
def bindError (path err : Bytes) : Bytes := str "bind control socket " ++ path ++ str ": " ++ err

/-- The position after a probe that failed. -/
def Phase.unanswered (err : Bytes) : Phase Pid := if IsRefused err then .clearing else .opening

/-- The position after a probe. -/
def Phase.probed : Except Bytes Response → Phase Pid
  | .ok resp => if resp.ok then .ended (.ok 1) else .opening
  | .error err => .unanswered err

/-- What comes next at a position. -/
def Phase.view (path : Bytes) : Phase Pid →
    Option (Σ c : ServeCall Pid, (serveInterface Pid).Reply c → Phase Pid)
  | .loading => some ⟨.load, fun reply : Except Bytes Unit ↦
      match reply with
      | .ok _ => .probing
      | .error err => .ended (.error err)⟩
  | .probing => some ⟨.dial, fun reply : Except Bytes Pid ↦
      match reply with
      | .ok q => .asking q
      | .error err => .unanswered err⟩
  | .asking q => some ⟨.exchange q, Phase.probed⟩
  | .clearing => some ⟨.remove, fun _ ↦ .opening⟩
  | .opening => some ⟨.new, fun reply : Except Bytes Unit ↦
      match reply with
      | .ok _ => .replacing
      | .error err => .ended (.error err)⟩
  | .replacing => some ⟨.remove, fun _ ↦ .binding⟩
  | .binding => some ⟨.bind, fun reply : Except Bytes Unit ↦
      match reply with
      | .ok _ => .listening
      | .error err => .ended (.error (bindError path err))⟩
  | .listening => some ⟨.listen, fun _ ↦ .securing⟩
  | .securing => some ⟨.chmod, fun reply : Except Bytes Unit ↦
      match reply with
      | .ok _ => .launching
      | .error err => .dropping err⟩
  | .dropping err => some ⟨.close, fun _ ↦ .ended (.error (bindError path err))⟩
  | .launching => some ⟨.serve, fun _ ↦ .running⟩
  | .running => some ⟨.start, fun reply : Except Bytes Unit ↦
      match reply with
      | .ok _ => .stopping
      | .error err => .ended (.error err)⟩
  | .stopping => some ⟨.shutdown, fun _ ↦ .closing⟩
  | .closing => some ⟨.close, fun _ ↦ .removing⟩
  | .removing => some ⟨.remove, fun _ ↦ .ended (.ok 0)⟩
  | .ended _ => none

/-- The positions as a machine. -/
def Phase.machine (path : Bytes) : Machine (serveInterface Pid) (Phase Pid) where
  view := Phase.view path
  dead := .ended killed

/-- The end of `serveAt` from its accept loop on. -/
def launch : ServeM Pid ℕ :=
  .call .serve fun _ ↦ .call .start fun
    | .ok _ => tearDown >>= fun _ ↦ pure 0
    | .error err => .done (.error err)

/-- The end of `serveAt` from `os.Chmod` on. -/
def secure (path : Bytes) : ServeM Pid ℕ :=
  .call .chmod fun
    | .ok _ => launch
    | .error err => .call .close fun _ ↦ .done (.error (bindError path err))

/-- What is left of `runServe` at a position. -/
def Phase.code (path : Bytes) : Phase Pid → ServeM Pid ℕ
  | .loading => runServe path
  | .probing => takeOver path
  | .asking q => .call (.exchange q) fun
      | .ok resp => if resp.ok then .done (.ok 1) else serveAt path
      | .error err =>
        if IsRefused err then .call .remove fun _ ↦ serveAt path else serveAt path
  | .clearing => .call .remove fun _ ↦ serveAt path
  | .opening => serveAt path
  | .replacing => .call .remove fun _ ↦ .call .bind fun
      | .ok _ => .call .listen fun _ ↦ secure path
      | .error err => .done (.error (bindError path err))
  | .binding => .call .bind fun
      | .ok _ => .call .listen fun _ ↦ secure path
      | .error err => .done (.error (bindError path err))
  | .listening => .call .listen fun _ ↦ secure path
  | .securing => secure path
  | .dropping err => .call .close fun _ ↦ .done (.error (bindError path err))
  | .launching => launch
  | .running => .call .start fun
      | .ok _ => tearDown >>= fun _ ↦ pure 0
      | .error err => .done (.error err)
  | .stopping => tearDown >>= fun _ ↦ pure 0
  | .closing => .call .close fun _ ↦ .call .remove fun _ ↦ .done (.ok 0)
  | .removing => .call .remove fun _ ↦ .done (.ok 0)
  | .ended result => .done result

theorem code_unanswered (path err : Bytes) :
    (Phase.unanswered err : Phase Pid).code path =
      if IsRefused err then .call .remove fun _ ↦ serveAt path else serveAt path := by
  unfold Phase.unanswered
  split <;> rfl

theorem code_probed (path : Bytes) (reply : Except Bytes Response) :
    (Phase.probed reply : Phase Pid).code path = match reply with
      | .ok resp => if resp.ok then .done (.ok 1) else serveAt path
      | .error err =>
        if IsRefused err then .call .remove fun _ ↦ serveAt path else serveAt path := by
  cases reply with
  | ok resp =>
    unfold Phase.probed
    dsimp only
    split <;> rfl
  | error err => exact code_unanswered path err

theorem call_congr {c : ServeCall Pid} {next next' : (serveInterface Pid).Reply c → ServeM Pid ℕ}
    (h : ∀ reply, next reply = next' reply) : (.call c next : ServeM Pid ℕ) = .call c next' := by
  rw [funext h]

theorem view_call {c : ServeCall Pid} {next next' : (serveInterface Pid).Reply c → ServeM Pid ℕ}
    (h : ∀ reply, next reply = next' reply) :
    Program.view (.call c next : ServeM Pid ℕ) = some ⟨c, next'⟩ :=
  congrArg Program.view (call_congr h)

/-- The positions are those of `runServe`. -/
theorem tracks_code (path : Bytes) :
    (Phase.machine path : Machine _ (Phase Pid)).Tracks (Program.machine killed)
      (Phase.code path) := by
  refine ⟨fun phase ↦ ?_, rfl⟩
  cases phase with
  | loading =>
    refine view_call fun reply ↦ ?_
    rcases reply with err | done <;> rfl
  | probing =>
    refine view_call fun reply ↦ ?_
    rcases reply with err | q
    · exact (code_unanswered path err).symm
    · refine call_congr fun reply ↦ ?_
      rcases reply with err | resp <;> rfl
  | asking q =>
    refine view_call fun reply ↦ ?_
    rcases reply with err | resp
    · exact (code_probed path (.error err)).symm
    · exact (code_probed path (.ok resp)).symm
  | opening =>
    refine view_call fun reply ↦ ?_
    rcases reply with err | done
    · rfl
    · refine call_congr fun _ ↦ call_congr fun reply ↦ ?_
      rcases reply with err | done
      · rfl
      · refine call_congr fun _ ↦ call_congr fun reply ↦ ?_
        rcases reply with err | done
        · rfl
        · refine call_congr fun _ ↦ call_congr fun reply ↦ ?_
          rcases reply with err | done <;> rfl
  | binding =>
    refine view_call fun reply ↦ ?_
    rcases reply with err | done <;> rfl
  | securing =>
    refine view_call fun reply ↦ ?_
    rcases reply with err | done <;> rfl
  | running =>
    refine view_call fun reply ↦ ?_
    rcases reply with err | done <;> rfl
  | _ => rfl

/-! ## Positions and sockets -/

/-- The same processes by their positions. -/
abbrev Chart (Pid : Type) := Processes Pid (Sockets Pid) (Phase Pid)

variable {path : Bytes} {a b : Pid} {s s' : Sockets Pid} {phase phase' : Phase Pid}
  {x y : Chart Pid}

/-- The socket of a process at a position. -/
def Phase.Fits : Phase Pid → Mode → Prop
  | .listening, mode => mode = .bound
  | .securing, mode => mode = .queueing
  | .dropping _, mode => mode = .queueing
  | .launching, mode => mode = .queueing
  | .running, mode => mode = .answering
  | .stopping, mode => mode = .answering
  | .closing, mode => mode = .closing
  | .ended _, _ => True
  | _, mode => mode = .none

/-- Every process has the socket of its position, and none asks itself. -/
structure Sound (x : Chart Pid) : Prop where
  fits : ∀ b, (x.state b).Fits (x.shared.mode b)
  asks : ∀ b q, x.state b = .asking q → q ≠ b

theorem fits_unanswered (err : Bytes) : (Phase.unanswered err : Phase Pid).Fits .none := by
  unfold Phase.unanswered
  split <;> rfl

theorem fits_probed (reply : Except Bytes Response) :
    (Phase.probed reply : Phase Pid).Fits .none := by
  cases reply with
  | error err => exact fits_unanswered err
  | ok resp =>
    unfold Phase.probed
    dsimp only
    split
    · trivial
    · rfl

/-- A process that can be reached has a socket. -/
theorem mode_ne_none_of_dial {q : Pid} (h : s.dial path = .ok q) : s.mode q ≠ .none := by
  unfold Sockets.dial at h
  split at h
  · cases h
  · split at h
    next => cases h
    next hmode =>
      obtain rfl := Except.ok.inj h
      exact fun hnone ↦ hmode (.inl hnone)

theorem unanswered_ne_asking (err : Bytes) (q : Pid) : Phase.unanswered err ≠ .asking q := by
  unfold Phase.unanswered
  split
  all_goals
    intro h
    cases h

theorem probed_ne_asking (reply : Except Bytes Response) (q : Pid) :
    Phase.probed reply ≠ .asking q := by
  cases reply with
  | error err => exact unanswered_ne_asking err q
  | ok resp =>
    unfold Phase.probed
    dsimp only
    split
    all_goals
      intro h
      cases h

/-- The positions of a process whose control server has begun to answer. -/
def Phase.Late : Phase Pid → Prop
  | .running => True
  | .stopping => True
  | .closing => True
  | .removing => True
  | .ended _ => True
  | _ => False

/-- The positions from which a process cannot get to the path of a daemon that is up. -/
def Phase.Harmless (a : Pid) : Phase Pid → Prop
  | .loading => True
  | .probing => True
  | .asking q => q = a
  | .binding => True
  | .ended _ => True
  | _ => False

theorem late_of_answering (hfits : phase.Fits .answering) : phase.Late := by
  cases phase <;> trivial

theorem dial_of_answering (hfile : s.file = some a) (hmode : s.mode a = .answering) :
    s.dial path = .ok a := by
  simp [Sockets.dial, hfile, hmode]

/-- The calls that do not lead to the path of a daemon that is up. -/
def HarmlessCall (a : Pid) : ServeCall Pid → Prop
  | .load => True
  | .dial => True
  | .exchange q => q = a
  | .bind => True
  | _ => False

/-- What is left of a process begins with such a call. -/
def Harmless (a : Pid) : ServeM Pid ℕ → Prop
  | .done _ => True
  | .call c _ => HarmlessCall a c

theorem harmless_code (path : Bytes) (a : Pid) (phase : Phase Pid) :
    Harmless a (phase.code path) ↔ phase.Harmless a := by
  cases phase <;> exact Iff.rfl

theorem eq_loading_of_code (h : phase.code path = runServe path) : phase = .loading := by
  have hview := congrArg (fun program ↦ (Program.view program).map Sigma.fst) h
  cases phase with
  | loading => rfl
  | _ => cases hview

theorem eq_ended_of_code {result : Except Bytes ℕ} (h : phase.code path = .done result) :
    phase = .ended result := by
  have hview := congrArg (fun program ↦ (Program.view program).map Sigma.fst) h
  cases phase with
  | ended result' => rw [Program.done.inj h]
  | _ => cases hview

/-! ## What a step does -/

variable [DecidableEq Pid]

/-- The sockets with that of one process in another mode. -/
def Sockets.turn (s : Sockets Pid) (b : Pid) (mode : Mode) : Sockets Pid :=
  { s with mode := Function.update s.mode b mode }

/-- The effect of a call, and the replies it may get. What `config.Load` returns depends on the
process alone. -/
def Replies (path : Bytes) (loaded : Pid → Except Bytes Unit) (s : Sockets Pid) (b : Pid) :
    (c : ServeCall Pid) → (serveInterface Pid).Reply c → Sockets Pid → Prop
  | .load, reply, s' => reply = loaded b ∧ s' = s
  | .dial, reply, s' => reply = s.dial path ∧ s' = s
  | .exchange q, reply, s' => Answered (s.mode q) reply ∧ s' = s
  | .remove, _, s' => s' = { s with file := none }
  | .new, _, s' => s' = s
  | .bind, .ok _, s' => s.file = none ∧ s' = { s.turn b .bound with file := some b }
  | .bind, .error _, s' => s' = s
  | .listen, _, s' => s' = s.turn b .queueing
  | .chmod, .ok _, s' => s.file.isSome ∧ s' = s
  | .chmod, .error _, s' => s' = s
  | .close, _, s' => s' = { s.turn b .none with file := none }
  | .serve, _, s' => s' = s.turn b .answering
  | .start, _, s' => s' = s
  | .shutdown, _, s' => s' = s.turn b .closing

/-- A process that is gone leaves its path behind. -/
def platform (path : Bytes) (loaded : Pid → Except Bytes Unit) :
    Platform (serveInterface Pid) Pid (Sockets Pid) where
  reply := Replies path loaded
  release b s := s.turn b .none

/-- One step of one of the processes. -/
abbrev HostStep (path : Bytes) (loaded : Pid → Except Bytes Unit) :
    Host Pid → Processes.Event Pid → Host Pid → Prop :=
  Processes.Step (Program.machine killed) (platform path loaded)

/-- One step of one of them. -/
abbrev ChartStep (path : Bytes) (loaded : Pid → Except Bytes Unit) :
    Chart Pid → Processes.Event Pid → Chart Pid → Prop :=
  Processes.Step (Phase.machine path) (platform path loaded)

/-- The steps of one process, with the sockets before and after them. -/
inductive Move (path : Bytes) (loaded : Pid → Except Bytes Unit) (b : Pid) :
    Sockets Pid → Phase Pid → Phase Pid → Sockets Pid → Prop where
  | loaded {s : Sockets Pid} {config : Unit} (hload : loaded b = .ok config) :
      Move path loaded b s .loading .probing s
  | unloaded {s : Sockets Pid} {err : Bytes} (hload : loaded b = .error err) :
      Move path loaded b s .loading (.ended (.error err)) s
  | connected {s : Sockets Pid} {q : Pid} (hdial : s.dial path = .ok q) :
      Move path loaded b s .probing (.asking q) s
  | unconnected {s : Sockets Pid} {err : Bytes} (hdial : s.dial path = .error err) :
      Move path loaded b s .probing (.unanswered err) s
  | probed {s : Sockets Pid} {q : Pid} {reply : Except Bytes Response}
      (hreply : Answered (s.mode q) reply) : Move path loaded b s (.asking q) (.probed reply) s
  | cleared {s : Sockets Pid} : Move path loaded b s .clearing .opening { s with file := none }
  | opened {s : Sockets Pid} : Move path loaded b s .opening .replacing s
  | refused {s : Sockets Pid} {err : Bytes} : Move path loaded b s .opening (.ended (.error err)) s
  | replaced {s : Sockets Pid} : Move path loaded b s .replacing .binding { s with file := none }
  | bound {s : Sockets Pid} (hfile : s.file = none) :
      Move path loaded b s .binding .listening { s.turn b .bound with file := some b }
  | unbound {s : Sockets Pid} {err : Bytes} :
      Move path loaded b s .binding (.ended (.error (bindError path err))) s
  | listened {s : Sockets Pid} : Move path loaded b s .listening .securing (s.turn b .queueing)
  | secured {s : Sockets Pid} (hfile : s.file.isSome) : Move path loaded b s .securing .launching s
  | unsecured {s : Sockets Pid} {err : Bytes} : Move path loaded b s .securing (.dropping err) s
  | dropped {s : Sockets Pid} {err : Bytes} :
      Move path loaded b s (.dropping err) (.ended (.error (bindError path err)))
        { s.turn b .none with file := none }
  | launched {s : Sockets Pid} : Move path loaded b s .launching .running (s.turn b .answering)
  | signalled {s : Sockets Pid} : Move path loaded b s .running .stopping s
  | failed {s : Sockets Pid} {err : Bytes} : Move path loaded b s .running (.ended (.error err)) s
  | stopped {s : Sockets Pid} : Move path loaded b s .stopping .closing (s.turn b .closing)
  | closed {s : Sockets Pid} :
      Move path loaded b s .closing .removing { s.turn b .none with file := none }
  | removed {s : Sockets Pid} :
      Move path loaded b s .removing (.ended (.ok 0)) { s with file := none }

variable {loaded : Pid → Except Bytes Unit}

/-- Every call with its reply is one of the steps. -/
theorem move_of_view {c : ServeCall Pid} {next : (serveInterface Pid).Reply c → Phase Pid}
    {reply : (serveInterface Pid).Reply c} (hview : phase.view path = some ⟨c, next⟩)
    (hreply : Replies path loaded s b c reply s') : Move path loaded b s phase (next reply) s' := by
  cases phase with
  | loading =>
    cases hview
    obtain ⟨rfl, rfl⟩ := hreply
    cases hload : loaded b with
    | ok config => exact .loaded hload
    | error err => exact .unloaded hload
  | probing =>
    cases hview
    obtain ⟨rfl, rfl⟩ := hreply
    cases hdial : s'.dial path with
    | ok q => exact .connected hdial
    | error err => exact .unconnected hdial
  | asking q =>
    cases hview
    obtain ⟨hanswered, rfl⟩ := hreply
    exact .probed hanswered
  | binding =>
    cases hview
    rcases reply with err | done
    · obtain rfl := hreply
      exact .unbound
    · obtain ⟨hfile, rfl⟩ := hreply
      exact .bound hfile
  | securing =>
    cases hview
    rcases reply with err | done
    · obtain rfl := hreply
      exact .unsecured
    · obtain ⟨hfile, rfl⟩ := hreply
      exact .secured hfile
  | opening =>
    cases hview
    obtain rfl := hreply
    rcases reply with err | done
    · exact .refused
    · exact .opened
  | running =>
    cases hview
    obtain rfl := hreply
    rcases reply with err | done
    · exact .failed
    · exact .signalled
  | ended result => cases hview
  | _ =>
    cases hview
    obtain rfl := hreply
    constructor

/-- Each of the steps is a call with a reply. -/
theorem exists_view_of_move (h : Move path loaded b s phase phase' s') :
    ∃ (c : ServeCall Pid) (next : (serveInterface Pid).Reply c → Phase Pid)
      (reply : (serveInterface Pid).Reply c), phase.view path = some ⟨c, next⟩ ∧
        Replies path loaded s b c reply s' ∧ next reply = phase' := by
  cases h with
  | @loaded config hload => exact ⟨.load, _, .ok config, rfl, ⟨hload.symm, rfl⟩, rfl⟩
  | @unloaded err hload => exact ⟨.load, _, .error err, rfl, ⟨hload.symm, rfl⟩, rfl⟩
  | @connected q hdial => exact ⟨.dial, _, .ok q, rfl, ⟨hdial.symm, rfl⟩, rfl⟩
  | @unconnected err hdial => exact ⟨.dial, _, .error err, rfl, ⟨hdial.symm, rfl⟩, rfl⟩
  | @probed q reply hreply => exact ⟨.exchange q, _, reply, rfl, ⟨hreply, rfl⟩, rfl⟩
  | cleared => exact ⟨.remove, _, (), rfl, rfl, rfl⟩
  | opened => exact ⟨.new, _, .ok (), rfl, rfl, rfl⟩
  | @refused err => exact ⟨.new, _, .error err, rfl, rfl, rfl⟩
  | replaced => exact ⟨.remove, _, (), rfl, rfl, rfl⟩
  | bound hfile => exact ⟨.bind, _, .ok (), rfl, ⟨hfile, rfl⟩, rfl⟩
  | @unbound err => exact ⟨.bind, _, .error err, rfl, rfl, rfl⟩
  | listened => exact ⟨.listen, _, (), rfl, rfl, rfl⟩
  | secured hfile => exact ⟨.chmod, _, .ok (), rfl, ⟨hfile, rfl⟩, rfl⟩
  | @unsecured err => exact ⟨.chmod, _, .error err, rfl, rfl, rfl⟩
  | dropped => exact ⟨.close, _, (), rfl, rfl, rfl⟩
  | launched => exact ⟨.serve, _, (), rfl, rfl, rfl⟩
  | signalled => exact ⟨.start, _, .ok (), rfl, rfl, rfl⟩
  | @failed err => exact ⟨.start, _, .error err, rfl, rfl, rfl⟩
  | stopped => exact ⟨.shutdown, _, (), rfl, rfl, rfl⟩
  | closed => exact ⟨.close, _, (), rfl, rfl, rfl⟩
  | removed => exact ⟨.remove, _, (), rfl, rfl, rfl⟩

theorem Move.step (h : Move path loaded b x.shared (x.state b) phase' s') :
    ChartStep path loaded x (.move b) ⟨s', Function.update x.state b phase'⟩ := by
  obtain ⟨c, next, reply, hview, hreply, rfl⟩ := exists_view_of_move h
  exact .move hview hreply

/-- What one step of the processes is. -/
theorem chartStep_cases {event : Processes.Event Pid} (hstep : ChartStep path loaded x event y) :
    (∃ b phase' s', Move path loaded b x.shared (x.state b) phase' s' ∧
      y = ⟨s', Function.update x.state b phase'⟩) ∨
    (∃ b, y = ⟨x.shared.turn b .none, Function.update x.state b (.ended killed)⟩) ∨
    ∃ b result, x.state b = .ended result ∧ y = ⟨x.shared.turn b .none, x.state⟩ := by
  cases hstep with
  | move hview hreply => exact .inl ⟨_, _, _, move_of_view hview hreply, rfl⟩
  | @kill b hview => exact .inr (.inl ⟨b, rfl⟩)
  | @exit b hview =>
    refine .inr (.inr ⟨b, ?_⟩)
    cases hphase : x.state b with
    | ended result => exact ⟨result, rfl, rfl⟩
    | _ =>
      rw [hphase] at hview
      cases hview

/-- A step changes only the socket of the process that takes it. -/
theorem Move.mode_of_ne (h : Move path loaded b s phase phase' s') (hne : a ≠ b) :
    s'.mode a = s.mode a := by
  cases h <;> first | rfl | exact Function.update_of_ne hne _ _

/-- Only `bind` gives the path to a process. -/
theorem Move.file_eq_some (h : Move path loaded b s phase phase' s') (hfile : s'.file = some a) :
    s.file = some a ∨ b = a ∧ phase = .binding := by
  cases h <;> first
    | exact .inl hfile
    | exact absurd hfile.symm (Option.some_ne_none _)
    | exact .inr ⟨Option.some.inj hfile, rfl⟩

@[simp] theorem mode_turn (s : Sockets Pid) (b : Pid) (mode : Mode) :
    (s.turn b mode).mode b = mode :=
  Function.update_self ..

theorem Move.fits (h : Move path loaded b s phase phase' s') (hfits : phase.Fits (s.mode b)) :
    phase'.Fits (s'.mode b) := by
  cases h with
  | unconnected => exact hfits ▸ fits_unanswered _
  | probed => exact hfits ▸ fits_probed _
  | _ => first | exact hfits | trivial | exact mode_turn ..

theorem Move.asks (h : Move path loaded b s phase phase' s') (hfits : phase.Fits (s.mode b))
    {q : Pid} (hasking : phase' = .asking q) : q ≠ b := by
  cases h with
  | connected hdial =>
    rintro rfl
    obtain rfl := Phase.asking.inj hasking
    exact mode_ne_none_of_dial hdial hfits
  | unconnected => exact absurd hasking (unanswered_ne_asking _ _)
  | probed => exact absurd hasking (probed_ne_asking _ _)
  | _ => cases hasking

theorem sound_step {event : Processes.Event Pid} (hx : Sound x)
    (hstep : ChartStep path loaded x event y) : Sound y := by
  rcases chartStep_cases hstep with ⟨b, phase', s', hmove, rfl⟩ | ⟨b, rfl⟩ |
    ⟨b, result, hended, rfl⟩
  · refine ⟨fun b' ↦ ?_, fun b' q hasking ↦ ?_⟩
    all_goals rcases eq_or_ne b' b with rfl | hne
    · simpa using hmove.fits (hx.fits b')
    · simpa [hne, hmove.mode_of_ne hne] using hx.fits b'
    · exact hmove.asks (hx.fits b') (by simpa using hasking)
    · exact hx.asks b' q (by simpa [hne] using hasking)
  · refine ⟨fun b' ↦ ?_, fun b' q hasking ↦ ?_⟩
    all_goals rcases eq_or_ne b' b with rfl | hne
    · simp [Phase.Fits]
    · simpa [hne, Sockets.turn] using hx.fits b'
    · simp at hasking
    · exact hx.asks b' q (by simpa [hne] using hasking)
  · refine ⟨fun b' ↦ ?_, hx.asks⟩
    rcases eq_or_ne b' b with rfl | hne
    · simp [hended, Phase.Fits]
    · simpa [hne, Sockets.turn] using hx.fits b'

/-! ## The path of a daemon that is up -/

theorem Move.late (h : Move path loaded b s phase phase' s') (hlate : phase.Late) :
    phase'.Late := by
  cases h <;> trivial

/-- A daemon changes nothing as long as it answers. -/
theorem Move.eq_of_answering (h : Move path loaded b s phase phase' s') (hlate : phase.Late)
    (hfits : phase.Fits (s.mode b)) (hmode : s'.mode b = .answering) : s' = s := by
  cases h with
  | signalled => rfl
  | failed => rfl
  | stopped =>
    rw [mode_turn] at hmode
    cases hmode
  | closed =>
    have hnone : (s.turn b .none).mode b = .answering := hmode
    rw [mode_turn] at hnone
    cases hnone
  | removed => cases hfits.symm.trans hmode
  | _ => exact hlate.elim

/-- A process that is no danger to a daemon changes nothing, and remains so. -/
theorem Move.harmless (h : Move path loaded b s phase phase' s') (hharmless : phase.Harmless a)
    (hfile : s.file = some a) (hmode : s.mode a = .answering) : s' = s ∧ phase'.Harmless a := by
  cases h with
  | loaded => exact ⟨rfl, trivial⟩
  | unloaded => exact ⟨rfl, trivial⟩
  | connected hdial =>
    rw [dial_of_answering hfile hmode] at hdial
    exact ⟨rfl, (Except.ok.inj hdial).symm⟩
  | unconnected hdial =>
    rw [dial_of_answering hfile hmode] at hdial
    cases hdial
  | @probed q reply hreply =>
    obtain rfl : q = a := hharmless
    rw [hmode] at hreply
    cases reply with
    | error err => exact hreply.elim
    | ok resp =>
      refine ⟨rfl, ?_⟩
      rw [Phase.probed, ok_of_answer hreply]
      trivial
  | bound hnone => cases hnone.symm.trans hfile
  | unbound => exact ⟨rfl, trivial⟩
  | _ => exact hharmless.elim

theorem late_step {event : Processes.Event Pid} (hx : (x.state a).Late)
    (hstep : ChartStep path loaded x event y) : (y.state a).Late := by
  rcases chartStep_cases hstep with ⟨b, phase', s', hmove, rfl⟩ | ⟨b, rfl⟩ | ⟨b, _, _, rfl⟩
  · rcases eq_or_ne a b with rfl | hne
    · simpa using hmove.late hx
    · simpa [hne] using hx
  · rcases eq_or_ne a b with rfl | hne
    · simp [Phase.Late]
    · simpa [hne] using hx
  · exact hx

theorem late_run (hx : (x.state a).Late) (hrun : System.Run (ChartStep path loaded) x y) :
    (y.state a).Late := by
  induction hrun with
  | refl => exact hx
  | step _ _ hstep ih => exact late_step ih hstep

/-- A daemon that is up after a process is gone was up before. -/
theorem answering_of_turn (h : (s.turn b .none).mode a = .answering) : s.mode a = .answering := by
  have hne : a ≠ b := by
    rintro rfl
    simp at h
  simpa [Sockets.turn, hne] using h

/-- The path of a daemon is safe as long as it is up. -/
structure Safe (a : Pid) (x : Chart Pid) : Prop where
  sound : Sound x
  late : (x.state a).Late
  holds : x.shared.mode a = .answering →
    x.shared.file = some a ∧ ∀ b ≠ a, (x.state b).Harmless a

theorem safe_step {event : Processes.Event Pid} (hx : Safe a x)
    (hstep : ChartStep path loaded x event y) : Safe a y := by
  refine ⟨sound_step hx.sound hstep, late_step hx.late hstep, fun hmode ↦ ?_⟩
  rcases chartStep_cases hstep with ⟨b, phase', s', hmove, rfl⟩ | ⟨b, rfl⟩ | ⟨b, _, _, rfl⟩
  · rcases eq_or_ne a b with rfl | hne
    · obtain rfl := hmove.eq_of_answering hx.late (hx.sound.fits a) hmode
      obtain ⟨hfile, hothers⟩ := hx.holds hmode
      exact ⟨hfile, fun b hb ↦ by simpa [hb] using hothers b hb⟩
    · have hbefore : x.shared.mode a = .answering := (hmove.mode_of_ne hne).symm.trans hmode
      obtain ⟨hfile, hothers⟩ := hx.holds hbefore
      obtain ⟨rfl, hharmless⟩ := hmove.harmless (hothers b hne.symm) hfile hbefore
      refine ⟨hfile, fun b' hb' ↦ ?_⟩
      rcases eq_or_ne b' b with rfl | hne'
      · simpa using hharmless
      · simpa [hne'] using hothers b' hb'
  · obtain ⟨hfile, hothers⟩ := hx.holds (answering_of_turn hmode)
    refine ⟨hfile, fun b' hb' ↦ ?_⟩
    rcases eq_or_ne b' b with rfl | hne'
    · simp [Phase.Harmless]
    · simpa [hne'] using hothers b' hb'
  · exact hx.holds (answering_of_turn hmode)

/-! ## A path that is lost -/

/-- In some run from here the daemon is up without its path. -/
def CanLose (path : Bytes) (loaded : Pid → Except Bytes Unit) (a : Pid) (x : Chart Pid) : Prop :=
  ∃ y, System.Run (ChartStep path loaded) x y ∧ y.shared.mode a = .answering ∧
    y.shared.file ≠ some a

/-- A process at a position, next to a daemon that is up and has its path. -/
structure Beside (a b : Pid) (phase : Phase Pid) (x : Chart Pid) : Prop where
  ne : b ≠ a
  phase : x.state b = phase
  file : x.shared.file = some a
  mode : x.shared.mode a = .answering

theorem CanLose.of_step {event : Processes.Event Pid} (hstep : ChartStep path loaded x event y)
    (hy : CanLose path loaded a y) : CanLose path loaded a x := by
  obtain ⟨z, hrun, hz⟩ := hy
  exact ⟨z, (System.Run.single hstep).trans hrun, hz⟩

/-- The socket of a process may go away at any time. -/
theorem exists_gone (path : Bytes) (x : Chart Pid) (q : Pid) :
    ∃ event y, ChartStep path loaded x event y ∧ y.shared = x.shared.turn q .none ∧
      ∀ b ≠ q, y.state b = x.state b := by
  cases hview : (Phase.machine path).view (x.state q) with
  | none => exact ⟨.exit q, _, .exit hview, rfl, fun _ _ ↦ rfl⟩
  | some step =>
    exact ⟨.kill q, _, .kill (Option.isSome_of_eq_some hview), rfl,
      fun _ hb ↦ Function.update_of_ne hb _ _⟩

namespace Beside

theorem step (h : Beside a b phase x) (hmove : Move path loaded b x.shared phase phase' s') :
    ChartStep path loaded x (.move b) ⟨s', Function.update x.state b phase'⟩ :=
  Move.step (h.phase ▸ hmove)

/-- The process takes the path away. -/
theorem lose (h : Beside a b phase x) (hmove : Move path loaded b x.shared phase phase' s')
    (hfile : s'.file = none) : CanLose path loaded a x :=
  ⟨_, System.Run.single (h.step hmove), (hmove.mode_of_ne h.ne.symm).trans h.mode,
    fun hsome ↦ Option.some_ne_none a (hsome.symm.trans hfile)⟩

/-- The process goes on to a position from which the path can be lost. -/
theorem advance (h : Beside a b phase x) (hmove : Move path loaded b x.shared phase phase' s')
    (hfile : s'.file = x.shared.file)
    (hnext : ∀ {y}, Beside a b phase' y → CanLose path loaded a y) : CanLose path loaded a x :=
  .of_step (h.step hmove) (hnext ⟨h.ne, Function.update_self .., hfile.trans h.file,
    (hmove.mode_of_ne h.ne.symm).trans h.mode⟩)

theorem canLose_stopping (h : Beside a b .stopping x) : CanLose path loaded a x :=
  h.advance .stopped rfl fun h ↦ h.lose .closed rfl

theorem canLose_launching (h : Beside a b .launching x) : CanLose path loaded a x :=
  h.advance .launched rfl fun h ↦ h.advance .signalled rfl canLose_stopping

theorem canLose_securing (h : Beside a b .securing x) : CanLose path loaded a x := by
  have hfile : x.shared.file.isSome := by
    rw [h.file]
    rfl
  exact h.advance (.secured hfile) rfl canLose_launching

theorem canLose_opening (h : Beside a b .opening x) : CanLose path loaded a x :=
  h.advance .opened rfl fun h ↦ h.lose .replaced rfl

/-- The process that it asks is killed, and it is not told about the daemon. -/
theorem canLose_asking {q : Pid} (h : Beside a b (.asking q) x) (hqa : q ≠ a) (hqb : q ≠ b) :
    CanLose path loaded a x := by
  obtain ⟨event, y, hstep, hshared, hstate⟩ := exists_gone path x q
  have hy : Beside a b (.asking q) y := by
    refine ⟨h.ne, (hstate b hqb.symm).trans h.phase, ?_, ?_⟩
    · rw [hshared]
      exact h.file
    · rw [hshared]
      exact (Function.update_of_ne hqa.symm _ _).trans h.mode
  have hlost : Answered (y.shared.mode q) (.error (str "EOF")) := by
    rw [hshared, mode_turn]
    trivial
  have hopening : Phase.probed (.error (str "EOF")) = (.opening : Phase Pid) := by
    rw [Phase.probed, Phase.unanswered, if_neg (by decide)]
  exact .of_step hstep (hy.advance (hopening ▸ Move.probed hlost) rfl canLose_opening)

/-- From any other position the path can be lost. -/
theorem canLose (h : Beside a b phase x) (hx : Sound x) (hharm : ¬ phase.Harmless a) :
    CanLose path loaded a x := by
  cases phase with
  | asking q => exact h.canLose_asking hharm (hx.asks b q h.phase)
  | clearing => exact h.lose .cleared rfl
  | opening => exact h.canLose_opening
  | replacing => exact h.lose .replaced rfl
  | listening => exact h.advance .listened rfl canLose_securing
  | securing => exact h.canLose_securing
  | dropping err => exact h.lose .dropped rfl
  | launching => exact h.canLose_launching
  | running => exact h.advance .signalled rfl canLose_stopping
  | stopping => exact h.canLose_stopping
  | closing => exact h.lose .closed rfl
  | removing => exact h.lose .removed rfl
  | _ => exact absurd trivial hharm

end Beside

/-- A daemon without its path. -/
structure Lost (a : Pid) (x : Chart Pid) : Prop where
  late : (x.state a).Late
  file : x.shared.file ≠ some a

/-- A path that is lost stays lost. -/
theorem lost_step {event : Processes.Event Pid} (hx : Lost a x)
    (hstep : ChartStep path loaded x event y) : Lost a y := by
  refine ⟨late_step hx.late hstep, ?_⟩
  rcases chartStep_cases hstep with ⟨b, phase', s', hmove, rfl⟩ | ⟨b, rfl⟩ | ⟨b, _, _, rfl⟩
  · intro hsome
    rcases hmove.file_eq_some hsome with hbefore | ⟨rfl, hbinding⟩
    · exact hx.file hbefore
    · have hlate := hx.late
      rw [hbinding] at hlate
      exact hlate
  · exact hx.file
  · exact hx.file

/-! ## The processes themselves -/

/-- Every process is at a position of `runServe`. -/
theorem exists_chart {s : Host Pid} (hrun : System.Run (HostStep path loaded) (Host.start path) s) :
    ∃ x : Chart Pid, Sound x ∧ s = x.map (Phase.code path) := by
  have hstart : Host.start path =
      (⟨⟨none, fun _ ↦ .none⟩, fun _ ↦ .loading⟩ : Chart Pid).map (Phase.code path) := rfl
  rw [hstart] at hrun
  obtain ⟨x, hchart, rfl⟩ := (tracks_code path).run_map hrun
  have hsound : Sound (⟨⟨none, fun _ ↦ .none⟩, fun _ ↦ .loading⟩ : Chart Pid) := by
    refine ⟨fun _ ↦ rfl, fun b q hasking ↦ ?_⟩
    cases hasking
  exact ⟨x, hchart.invariant hsound fun _ _ _ hs hstep ↦ sound_step hs hstep, rfl⟩

/-! ## A first daemon -/

/-- `DefaultControlSocket`. -/
def defaultControlSocket : Bytes := str "/tmp/dbpivot.sock"

/-- Processes that can all load their configuration. -/
def configured : Pid → Except Bytes Unit := fun _ ↦ .ok ()

/-- One process at a position among others. -/
def placed (others : Pid → Phase Pid) (a : Pid) (phase : Phase Pid) (s : Sockets Pid) : Chart Pid :=
  ⟨s, Function.update others a phase⟩

theorem state_placed (others : Pid → Phase Pid) (a : Pid) (phase : Phase Pid) (s : Sockets Pid) :
    (placed others a phase s).state a = phase := by
  simp [placed]

theorem placed_eq {others : Pid → Phase Pid} (h : others a = phase) (s : Sockets Pid) :
    placed others a phase s = ⟨s, others⟩ := by
  rw [placed, ← h, Function.update_eq_self]

theorem run_placed (others : Pid → Phase Pid) (hmove : Move path loaded a s phase phase' s') :
    System.Run (ChartStep path loaded) (placed others a phase s) (placed others a phase' s') := by
  have hstep : ChartStep path loaded (placed others a phase s) (.move a)
      ⟨s', Function.update (placed others a phase s).state a phase'⟩ :=
    Move.step ((state_placed others a phase s).symm ▸ hmove)
  rw [placed, Function.update_idem] at hstep
  exact .single hstep

/-- Where nothing is, a process with a configuration gets past its probe. -/
theorem run_opening (path : Bytes) (hload : loaded a = .ok ()) (others : Pid → Phase Pid) :
    System.Run (ChartStep path loaded) (placed others a .loading .unused)
      (placed others a .opening .unused) := by
  apply (run_placed others (.loaded hload)).trans
  apply (run_placed others (.unconnected rfl)).trans
  -- The path itself may contain the words of a refused connection.
  unfold Phase.unanswered
  split
  · exact run_placed others .cleared
  · exact .refl

/-- From there it can come up. -/
theorem exists_up (path : Bytes) (loaded : Pid → Except Bytes Unit) (others : Pid → Phase Pid)
    (a : Pid) : ∃ s : Sockets Pid,
    System.Run (ChartStep path loaded) (placed others a .opening .unused)
      (placed others a .running s) ∧ s.mode a = .answering ∧ s.file = some a :=
  ⟨_, (run_placed others .opened).trans <| (run_placed others .replaced).trans <|
    (run_placed others (.bound rfl)).trans <| (run_placed others .listened).trans <|
    (run_placed others (.secured rfl)).trans <| run_placed others .launched, mode_turn .., rfl⟩

/-- The processes before they begin. -/
theorem start_eq (path : Bytes) (a : Pid) :
    Host.start path = (placed (fun _ ↦ .loading) a .loading .unused).map (Phase.code path) := by
  rw [placed_eq rfl]
  rfl

/-- A first daemon can come up while no other process has begun. -/
theorem exists_first (path : Bytes) (loaded : Pid → Except Bytes Unit) (hload : loaded a = .ok ()) :
    ∃ s : Host Pid,
    System.Run (HostStep path loaded) (Host.start path) s ∧ s.shared.mode a = .answering ∧
      s.shared.file = some a ∧ ∀ b ≠ a, s.state b = runServe path := by
  obtain ⟨s, hrun, hmode, hfile⟩ := exists_up path loaded (fun _ ↦ .loading) a
  refine ⟨(placed (fun _ ↦ .loading) a .running s).map (Phase.code path), ?_, hmode, hfile,
    fun b hb ↦ ?_⟩
  · rw [start_eq path a]
    exact (tracks_code path).map_run ((run_opening path hload _).trans hrun)
  · have hstate : (placed (fun _ ↦ .loading) a .running s).state b = .loading := by
      simp [placed, hb]
    exact congrArg (Phase.code path) hstate

/-- It can also come up while another process is past its probe. -/
theorem exists_race (path : Bytes) (loaded : Pid → Except Bytes Unit) (hne : b ≠ a)
    (ha : loaded a = .ok ()) (hb : loaded b = .ok ()) :
    ∃ s : Host Pid, System.Run (HostStep path loaded) (Host.start path) s ∧
      s.shared.mode a = .answering ∧ s.shared.file = some a ∧ s.state b = serveAt path := by
  obtain ⟨s, hrun, hmode, hfile⟩ :=
    exists_up path loaded (Function.update (fun _ ↦ .loading) b .opening) a
  have hturn : placed (fun _ ↦ .loading) b .opening .unused =
      placed (Function.update (fun _ ↦ .loading) b .opening) a .loading .unused :=
    (placed_eq (by simp [hne.symm]) _).symm
  refine ⟨(placed (Function.update (fun _ ↦ .loading) b .opening) a .running s).map
    (Phase.code path), ?_, hmode, hfile, ?_⟩
  · rw [start_eq path b]
    have hfirst := run_opening path hb fun _ ↦ (.loading : Phase Pid)
    rw [hturn] at hfirst
    exact (tracks_code path).map_run ((hfirst.trans (run_opening path ha _)).trans hrun)
  · have hstate : (placed (Function.update (fun _ ↦ .loading) b .opening) a .running s).state b =
        .opening := by
      simp [placed, hne]
    exact congrArg (Phase.code path) hstate

/-! ## Keeping the path -/

/-- **When a daemon keeps its path.** A daemon that is up and has its path keeps it in every run
for as long as it is up exactly if no other process is further than to have asked it, unless it is
about to fail to bind or has ended. What it has lost it never gets back. -/
theorem keeps_path_iff {s : Host Pid}
    (hreach : System.Run (HostStep path loaded) (Host.start path) s)
    (hmode : s.shared.mode a = .answering) (hfile : s.shared.file = some a) :
    ((∀ s', System.Run (HostStep path loaded) s s' → s'.shared.mode a = .answering →
        s'.shared.file = some a) ↔ ∀ b ≠ a, Harmless a (s.state b)) ∧
      ∀ s', System.Run (HostStep path loaded) s s' → s'.shared.file ≠ some a →
        ∀ s'', System.Run (HostStep path loaded) s' s'' → s''.shared.file ≠ some a := by
  obtain ⟨x, hsound, rfl⟩ := exists_chart hreach
  have hlate : (x.state a).Late := late_of_answering (hmode ▸ hsound.fits a)
  refine ⟨⟨fun hkeeps b hb ↦ ?_, fun hharmless s' hrun hmode' ↦ ?_⟩,
    fun s' hrun hlost s'' hlater ↦ ?_⟩
  · refine (harmless_code path a (x.state b)).mpr (not_not.mp fun hharm ↦ ?_)
    have hbeside : Beside a b (x.state b) x := ⟨hb, rfl, hfile, hmode⟩
    have hlose : CanLose path loaded a x := hbeside.canLose hsound hharm
    obtain ⟨y, hchart, hanswering, hlost⟩ := hlose
    exact hlost (hkeeps _ ((tracks_code path).map_run hchart) hanswering)
  · obtain ⟨y, hchart, rfl⟩ := (tracks_code path).run_map hrun
    have hsafe : Safe a x := ⟨hsound, hlate, fun _ ↦ ⟨hfile, fun b hb ↦
      (harmless_code path a (x.state b)).mp (hharmless b hb)⟩⟩
    exact ((hchart.invariant hsafe fun _ _ _ hs hstep ↦ safe_step hs hstep).holds hmode').1
  · obtain ⟨y, hchart, rfl⟩ := (tracks_code path).run_map hrun
    obtain ⟨z, hchart', rfl⟩ := (tracks_code path).run_map hlater
    have hstart : Lost a y := ⟨late_run hlate hchart, hlost⟩
    exact (hchart'.invariant hstart fun _ _ _ hs hstep ↦ lost_step hs hstep).file

/-- A daemon keeps its path if it came up alone. If another process was past its probe by then, the
daemon can lose it. -/
theorem keeps_path_iff_two :
    (∃ s : Host Bool,
      System.Run (HostStep defaultControlSocket configured) (Host.start defaultControlSocket) s ∧
      s.shared.mode true = .answering ∧
      ∀ s', System.Run (HostStep defaultControlSocket configured) s s' →
        s'.shared.mode true = .answering → s'.shared.file = some true) ∧
    ∃ s : Host Bool,
      System.Run (HostStep defaultControlSocket configured) (Host.start defaultControlSocket) s ∧
      s.shared.file = some true ∧
      ¬ ∀ s', System.Run (HostStep defaultControlSocket configured) s s' →
        s'.shared.mode true = .answering → s'.shared.file = some true := by
  constructor
  · obtain ⟨s, hrun, hmode, hfile, hothers⟩ :=
      exists_first defaultControlSocket configured (a := true) rfl
    refine ⟨s, hrun, hmode, (keeps_path_iff hrun hmode hfile).1.mpr fun b hb ↦ ?_⟩
    rw [hothers b hb]
    trivial
  · have hne : false ≠ true := Bool.false_ne_true
    obtain ⟨s, hrun, hmode, hfile, hother⟩ :=
      exists_race defaultControlSocket configured hne rfl rfl
    refine ⟨s, hrun, hfile, fun hkeeps ↦ ?_⟩
    have hharmless := (keeps_path_iff hrun hmode hfile).1.mp hkeeps false hne
    rw [hother] at hharmless
    exact hharmless

/-! ## A process that comes later -/

/-- How a process next to a daemon that is up stands: it has got no further than to have asked the
daemon. -/
inductive Giving (loaded : Pid → Except Bytes Unit) (a b : Pid) : Phase Pid → Prop where
  | loading : Giving loaded a b .loading
  | unloaded {err : Bytes} (hload : loaded b = .error err) :
      Giving loaded a b (.ended (.error err))
  | probing (hload : loaded b = .ok ()) : Giving loaded a b .probing
  | asking (hload : loaded b = .ok ()) : Giving loaded a b (.asking a)
  | ended (hload : loaded b = .ok ()) : Giving loaded a b (.ended (.ok 1))
  | killed : Giving loaded a b (.ended killed)

/-- A process that gives way to a daemon that is up. -/
structure Behind (loaded : Pid → Except Bytes Unit) (a b : Pid) (x : Chart Pid) : Prop where
  safe : Safe a x
  ne : b ≠ a
  gives : x.shared.mode a = .answering →
    x.shared.mode b = .none ∧ Giving loaded a b (x.state b)

/-- Such a process finds the daemon, asks it, and ends. -/
theorem Move.gives (h : Move path loaded b s phase phase' s') (hfile : s.file = some a)
    (hmode : s.mode a = .answering) (hphase : Giving loaded a b phase) :
    s' = s ∧ Giving loaded a b phase' := by
  cases hphase with
  | loading =>
    cases h with
    | loaded hload => exact ⟨rfl, .probing hload⟩
    | unloaded hload => exact ⟨rfl, .unloaded hload⟩
  | probing hload =>
    cases h with
    | connected hdial =>
      rw [dial_of_answering hfile hmode] at hdial
      obtain rfl := Except.ok.inj hdial
      exact ⟨rfl, .asking hload⟩
    | unconnected hdial =>
      rw [dial_of_answering hfile hmode] at hdial
      cases hdial
  | asking hload =>
    cases h with
    | @probed _ reply hreply =>
      rw [hmode] at hreply
      cases reply with
      | error err => exact hreply.elim
      | ok resp =>
        rw [Phase.probed, ok_of_answer hreply]
        exact ⟨rfl, .ended hload⟩
  | unloaded => cases h
  | ended => cases h
  | killed => cases h

theorem behind_step {event : Processes.Event Pid} (hx : Behind loaded a b x)
    (hstep : ChartStep path loaded x event y) : Behind loaded a b y := by
  refine ⟨safe_step hx.safe hstep, hx.ne, fun hmode ↦ ?_⟩
  rcases chartStep_cases hstep with ⟨c, phase', s', hmove, rfl⟩ | ⟨c, rfl⟩ | ⟨c, _, _, rfl⟩
  · rcases eq_or_ne a c with rfl | hac
    · obtain rfl := hmove.eq_of_answering hx.safe.late (hx.safe.sound.fits a) hmode
      simpa [hx.ne] using hx.gives hmode
    · have hbefore : x.shared.mode a = .answering := (hmove.mode_of_ne hac).symm.trans hmode
      obtain ⟨hnone, hphase⟩ := hx.gives hbefore
      rcases eq_or_ne b c with rfl | hbc
      · obtain ⟨rfl, hnext⟩ := hmove.gives (hx.safe.holds hbefore).1 hbefore hphase
        exact ⟨hnone, by simpa using hnext⟩
      · exact ⟨(hmove.mode_of_ne hbc).trans hnone, by simpa [hbc] using hphase⟩
  · obtain ⟨hnone, hphase⟩ := hx.gives (answering_of_turn hmode)
    rcases eq_or_ne b c with rfl | hbc
    · exact ⟨mode_turn .., by simpa using Giving.killed⟩
    · exact ⟨(Function.update_of_ne hbc _ _).trans hnone, by simpa [hbc] using hphase⟩
  · obtain ⟨hnone, hphase⟩ := hx.gives (answering_of_turn hmode)
    refine ⟨?_, hphase⟩
    rcases eq_or_ne b c with rfl | hbc
    · exact mode_turn ..
    · exact (Function.update_of_ne hbc _ _).trans hnone

/-- A `dbpivot serve` that begins while a daemon is up and its path is safe never has a socket as
long as the daemon is up, and if it ends by itself, then with the error of a configuration that
cannot be loaded, or with the exit code for a daemon that is there already. -/
theorem later_serve_gives_way {s : Host Pid}
    (hreach : System.Run (HostStep path loaded) (Host.start path) s)
    (hmode : s.shared.mode a = .answering) (hfile : s.shared.file = some a)
    (hsafe : ∀ b ≠ a, Harmless a (s.state b)) (hbegins : s.state b = runServe path) {s' : Host Pid}
    (hrun : System.Run (HostStep path loaded) s s') (hup : s'.shared.mode a = .answering) :
    s'.shared.mode b = .none ∧ ∀ result, s'.state b = .done result →
      (∃ err, loaded b = .error err ∧ result = .error err) ∨
        loaded b = .ok () ∧ result = .ok 1 ∨ result = killed := by
  obtain ⟨x, hsound, rfl⟩ := exists_chart hreach
  obtain ⟨y, hchart, rfl⟩ := (tracks_code path).run_map hrun
  have hlate : (x.state a).Late := late_of_answering (hmode ▸ hsound.fits a)
  have hloading : x.state b = .loading := eq_loading_of_code hbegins
  have hne : b ≠ a := by
    rintro rfl
    rw [hloading] at hlate
    exact hlate
  have hnone : x.shared.mode b = .none := by
    have hfits := hsound.fits b
    rw [hloading] at hfits
    exact hfits
  have hstart : Behind loaded a b x := ⟨⟨hsound, hlate, fun _ ↦ ⟨hfile, fun b hb ↦
    (harmless_code path a (x.state b)).mp (hsafe b hb)⟩⟩, hne,
    fun _ ↦ ⟨hnone, hloading ▸ .loading⟩⟩
  obtain ⟨hnone', hphase⟩ :=
    (hchart.invariant hstart fun _ _ _ hs hstep ↦ behind_step hs hstep).gives hup
  refine ⟨hnone', fun result hresult ↦ ?_⟩
  have hended : y.state b = .ended result := eq_ended_of_code hresult
  rw [hended] at hphase
  cases hphase with
  | unloaded hload => exact .inl ⟨_, hload, rfl⟩
  | ended hload => exact .inr (.inl ⟨hload, rfl⟩)
  | killed => exact .inr (.inr rfl)

/-- One of three processes has a configuration that cannot be loaded. -/
def misconfigured : Fin 3 → Except Bytes Unit
  | 2 => .error (str "open .dbpivot.yml: no such file or directory")
  | _ => .ok ()

/-- The second of three processes gives way to the first, and the third does not get that far. -/
theorem later_serve_gives_way_second :
    ∃ s : Host (Fin 3),
      System.Run (HostStep defaultControlSocket misconfigured) (Host.start defaultControlSocket) s ∧
      ∀ s', System.Run (HostStep defaultControlSocket misconfigured) s s' →
        s'.shared.mode 0 = .answering → s'.shared.mode 1 = .none ∧ s'.shared.mode 2 = .none ∧
          s'.state 1 ≠ .done (.ok 0) ∧ s'.state 2 ≠ .done (.ok 1) := by
  obtain ⟨s, hrun, hmode, hfile, hothers⟩ :=
    exists_first defaultControlSocket misconfigured (a := 0) rfl
  have hsafe : ∀ b ≠ 0, Harmless 0 (s.state b) := by
    intro b hb
    rw [hothers b hb]
    trivial
  refine ⟨s, hrun, fun s' hrun' hup ↦ ?_⟩
  obtain ⟨hsecond, hends⟩ :=
    later_serve_gives_way hrun hmode hfile hsafe (hothers 1 (by decide)) hrun' hup
  obtain ⟨hthird, hfails⟩ :=
    later_serve_gives_way hrun hmode hfile hsafe (hothers 2 (by decide)) hrun' hup
  refine ⟨hsecond, hthird, fun hdone ↦ ?_, fun hdone ↦ ?_⟩
  · rcases hends _ hdone with ⟨_, _, h⟩ | ⟨_, h⟩ | h <;> cases h
  · rcases hfails _ hdone with ⟨_, _, h⟩ | ⟨h, _⟩ | h <;> cases h

end DbPivot.Control.Takeover
