import DbPivot.Control.Server

/-!
# Calls over the control socket

The command line tool writes a request, the daemon reads it, carries it out and writes a response,
and the tool reads that. Either of the two may be cut off in the middle of its line. A line that
was cut off is not taken for a line, so a request is carried out as a whole or not at all, and a
call that returns a response returns the one the daemon gave.
-/

namespace DbPivot.Control

open DbPivot.Go
open DbPivot.Mongo (Env)

/-- The second half of `Call`, with the error `json.Unmarshal` would return. -/
def readResponse (parseError : GoError) : SocketM Response := do
  let text ← SocketM.wrap (wrapf "read response: %w" []) (readBytes 0x0A)
  match Response.codec.unmarshal text with
  | none => SocketM.lift (fail (wrapf "parse response: %w (raw=%s)" [.text text] parseError))
  | some resp => pure resp

/-- `Call` on the connection it has dialled. -/
def call (parseError : GoError) (req : Request) : SocketM Response := do
  write (line Request.codec req)
  readResponse parseError

/-- A call of a client and what the daemon does on the other end of the connection: each end reads
what the other one has written before it gave up or was done. -/
def Exchange (env : Env) (choices : Choices) (parseError : GoError)
    (clientRoom serverRoom : Option ℕ) (d : Daemon) (req : Request) (d' : Daemon)
    (result : GoM GoError Response) : Prop :=
  ∃ client server,
    (call parseError req).run ⟨server.output, [], clientRoom⟩ = (result, client) ∧
      handle env choices d ⟨client.output, [], serverRoom⟩ = (d', server)

/-! ## The two ends -/

variable {env : Env} {choices : Choices} {parseError : GoError} {clientRoom serverRoom : Option ℕ}
  {d d' : Daemon} {req : Request} {result : GoM GoError Response}

/-- A response that was cut off is an error. -/
theorem readResponse_of_notMem (parseError : GoError) {c : Socket} (h : (0x0A : UInt8) ∉ c.input) :
    Errs ((readResponse parseError).run c).1 := by
  have hread : (SocketM.wrap (wrapf "read response: %w" []) (readBytes 0x0A)).run c =
      (fail (wrapf "read response: %w" [] eof), { c with input := [] }) := by
    rw [SocketM.wrap]
    simp only [readBytes_of_notMem h]
    rfl
  rw [readResponse, SocketM.bind_of_fail hread]
  exact errs_fail _

/-- A whole response is read with its texts in UTF-8. -/
theorem readResponse_line (parseError : GoError) (resp : Response) (output : Bytes)
    (room : Option ℕ) :
    (readResponse parseError).run ⟨line Response.codec resp, output, room⟩ =
      (.ok resp.coerce, ⟨[], output, room⟩) := by
  have hread : (SocketM.wrap (wrapf "read response: %w" []) (readBytes 0x0A)).run
      ⟨line Response.codec resp, output, room⟩ =
        (.ok (line Response.codec resp), ⟨[], output, room⟩) :=
    SocketM.wrap_eq_ok.mpr (readBytes_line resp.newline_notMem output room)
  rw [readResponse, SocketM.bind_of_ok hread, resp.unmarshal_line]
  rfl

theorem silent_readResponse (parseError : GoError) : (readResponse parseError).Silent := by
  refine SocketM.Silent.bind (fun c ↦ output_readBytes 0x0A c) fun text c ↦ ?_
  split <;> rfl

/-- A client writes a beginning of its request, all of it unless it gives up. -/
theorem call_run (parseError : GoError) (req : Request) (input : Bytes) (room : Option ℕ) :
    (Errs ((call parseError req).run ⟨input, [], room⟩).1 ∧
      ((call parseError req).run ⟨input, [], room⟩).2.output <+: line Request.codec req) ∨
    ∃ room', (call parseError req).run ⟨input, [], room⟩ =
        (readResponse parseError).run ⟨input, line Request.codec req, room'⟩ := by
  have hreturns := returns_write (line Request.codec req) ⟨input, [], room⟩
  obtain ⟨written, hbegin, houtput, -, -⟩ := run_write (line Request.codec req) ⟨input, [], room⟩
  rcases hwrite : (write (line Request.codec req)).run ⟨input, [], room⟩ with ⟨fault | done, c⟩
  · rw [hwrite] at hreturns houtput
    cases fault with
    | panic => exact absurd hreturns id
    | outOfFuel => exact absurd hreturns id
    | err error =>
      left
      rw [call, SocketM.bind_of_fail hwrite]
      refine ⟨errs_fail _, ?_⟩
      rw [houtput]
      exact hbegin
  · right
    have htransfer := transfer_of_write hwrite
    obtain ⟨input', output', room'⟩ := c
    obtain rfl : input = input' := htransfer.input
    obtain rfl : output' = line Request.codec req := htransfer.output
    exact ⟨room', SocketM.bind_of_ok hwrite _⟩

/-- What the daemon does with a whole request: it serves it, and writes a beginning of the
response. -/
theorem handle_request (env : Env) (hchoices : choices.Valid d) (req : Request) (room : Option ℕ) :
    ∃ d' resp server, handle env choices d ⟨line Request.codec req, [], room⟩ = (d', server) ∧
      serve env choices d req.coerce = (d', some resp) ∧
      server.output <+: line Response.codec resp ∧
      (room = none → server.output = line Response.codec resp) := by
  obtain ⟨d', resp, hserve⟩ := exists_serve env hchoices req.coerce
  have hrespond : respond env choices d (line Request.codec req) = (d', some resp) := by
    rw [respond, req.unmarshal_line]
    exact hserve
  have hhandle : handle env choices d ⟨line Request.codec req, [], room⟩ =
      ((respond env choices d (line Request.codec req)).1,
        writeResp (respond env choices d (line Request.codec req)).2 ⟨[], [], room⟩) :=
    handle_line env req.newline_notMem
  rw [hrespond] at hhandle
  obtain ⟨written, hbegin, houtput, -, -⟩ := run_write (line Response.codec resp) ⟨[], [], room⟩
  refine ⟨d', resp, _, hhandle, hserve, ?_, ?_⟩
  · rw [writeResp, houtput]
    exact hbegin
  · rintro rfl
    rw [writeResp, write_of_room rfl]
    rfl

/-- A request is carried out as a whole or not at all, and a call that returns a response returns
the daemon's. -/
theorem exchange_atomic (hchoices : choices.Valid d)
    (h : Exchange env choices parseError clientRoom serverRoom d req d' result) :
    (d' = d ∧ Errs result) ∨
      ∃ resp, serve env choices d req.coerce = (d', some resp) ∧
        (result = .ok resp.coerce ∨ Errs result) := by
  obtain ⟨client, server, hclient, hserver⟩ := h
  rcases call_run parseError req server.output clientRoom with ⟨herrs, hbegin⟩ | ⟨room, hrun⟩
  · -- The client gave up; the daemon may have its request all the same.
    rw [hclient] at herrs hbegin
    rcases eq_or_notMem_of_prefix req.newline_notMem hbegin with hwhole | hcut
    · obtain ⟨d'', resp, server', hhandle, hserve, -⟩ :=
        handle_request env hchoices req serverRoom
      rw [← line] at hwhole
      rw [hwhole, hhandle] at hserver
      obtain ⟨rfl, rfl⟩ := Prod.mk.inj hserver
      exact .inr ⟨resp, hserve, .inr herrs⟩
    · rw [handle_of_notMem env hcut] at hserver
      exact .inl ⟨(Prod.mk.inj hserver).1.symm, herrs⟩
  · have hsent : client.output = line Request.codec req := by
      have hsilent := silent_readResponse parseError
        ⟨server.output, line Request.codec req, room⟩
      rw [← hrun, hclient] at hsilent
      exact hsilent
    obtain ⟨d'', resp, server', hhandle, hserve, hbegin, -⟩ :=
      handle_request env hchoices req serverRoom
    rw [hsent, hhandle] at hserver
    obtain ⟨rfl, rfl⟩ := Prod.mk.inj hserver
    refine .inr ⟨resp, hserve, ?_⟩
    rcases eq_or_notMem_of_prefix resp.newline_notMem hbegin with hwhole | hcut
    · left
      rw [← line] at hwhole
      rw [hwhole, readResponse_line] at hrun
      rw [hwhole, hrun] at hclient
      exact (Prod.mk.inj hclient).1.symm
    · right
      have herrs : Errs ((readResponse parseError).run
          ⟨server'.output, line Request.codec req, room⟩).1 := readResponse_of_notMem _ hcut
      rw [← hrun, hclient] at herrs
      exact herrs

/-- A connection that takes everything carries the request and the response. -/
theorem exchange_whole (hchoices : choices.Valid d) :
    Exchange env choices parseError none none d req d' result ↔
      ∃ resp, serve env choices d req.coerce = (d', some resp) ∧ result = .ok resp.coerce := by
  obtain ⟨d'', resp, server', hhandle, hserve, -, hwhole⟩ := handle_request env hchoices req none
  have hrun (input : Bytes) : (call parseError req).run ⟨input, [], none⟩ =
      (readResponse parseError).run ⟨input, line Request.codec req, none⟩ :=
    SocketM.bind_of_ok (write_of_room rfl) _
  have hanswer : (readResponse parseError).run ⟨server'.output, line Request.codec req, none⟩ =
      (.ok resp.coerce, ⟨[], line Request.codec req, none⟩) := by
    rw [hwhole rfl]
    exact readResponse_line parseError resp _ _
  constructor
  · rintro ⟨client, server, hclient, hserver⟩
    have hsent : client.output = line Request.codec req := by
      have hsilent := silent_readResponse parseError ⟨server.output, line Request.codec req, none⟩
      rw [← hrun, hclient] at hsilent
      exact hsilent
    rw [hsent, hhandle] at hserver
    obtain ⟨rfl, rfl⟩ := Prod.mk.inj hserver
    rw [hrun, hanswer] at hclient
    exact ⟨resp, hserve, (Prod.mk.inj hclient).1.symm⟩
  · rintro ⟨resp', hserve', rfl⟩
    rw [hserve] at hserve'
    obtain ⟨rfl, hresp⟩ := Prod.mk.inj hserve'
    obtain rfl := Option.some.inj hresp
    exact ⟨_, server', (hrun _).trans hanswer, hhandle⟩

/-- The control socket is transparent. Over a connection that takes everything, a call is the same
as asking the daemon directly, with the texts in UTF-8. If either end is cut off, the request is
still carried out as a whole or not at all, and the client has the daemon's response or an error. -/
theorem call_transparent (env : Env) (parseError : GoError) (hchoices : choices.Valid d)
    (req : Request) :
    (∀ d' result, Exchange env choices parseError none none d req d' result ↔
      ∃ resp, serve env choices d req.coerce = (d', some resp) ∧ result = .ok resp.coerce) ∧
    (∀ clientRoom serverRoom d' result,
      Exchange env choices parseError clientRoom serverRoom d req d' result →
      (d' = d ∧ Errs result) ∨
        ∃ resp, serve env choices d req.coerce = (d', some resp) ∧
          (result = .ok resp.coerce ∨ Errs result)) ∧
    (req.coerce = req ↔ req.Utf8) :=
  ⟨fun _ _ ↦ exchange_whole hchoices, fun _ _ _ _ h ↦ exchange_atomic hchoices h,
    Request.coerce_eq_self_iff⟩

/-- Asking the daemon with one database for its status. -/
theorem call_transparent_status :
    Request.Utf8 { cmd := cmdStatus } ∧
      Exchange Mongo.openEnv singleChoices eof none none singleDaemon { cmd := cmdStatus }
        singleDaemon (.ok (handleStatus singleChoices singleDaemon).coerce) := by
  have hutf8 : Request.Utf8 { cmd := cmdStatus } := by
    refine ⟨by decide, by decide, fun key value hget ↦ ?_⟩
    rw [GoMap.get_empty] at hget
    exact absurd hget (Option.some_ne_none _).symm
  have htransparent :=
    call_transparent Mongo.openEnv eof singleDaemon_valid { cmd := cmdStatus }
  refine ⟨hutf8, (htransparent.1 _ _).mpr ⟨_, ?_, rfl⟩⟩
  rw [htransparent.2.2.mpr hutf8]
  rfl

end DbPivot.Control
