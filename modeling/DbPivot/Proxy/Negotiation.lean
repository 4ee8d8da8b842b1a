import DbPivot.Go.Lockstep
import DbPivot.Proxy.Tunnel

/-!
# From the first byte of a PostgreSQL client to its StartupMessage

A client may ask for GSSAPI encryption, for TLS, or for one after the other, and is told `N` each
time; then it sends its StartupMessage. `dispatch` reads two messages at most. A client that asks
twice has used them up when it starts.

The request itself is told by its code alone. One that says it is longer than eight bytes is
answered as well, and what it says is not skipped.
-/

namespace DbPivot.Proxy.Negotiation

open DbPivot.Go DbPivot.Config DbPivot.System
open DbPivot.Mongo (Env)
open DbPivot.Mysql (Crypto)
open DbPivot.Postgres (ascii)
open Net (SameUpstream)
open Tunnel (Preamble StartupMessage)

/-! ## Up to `handleStartup` -/

/-- The `switch` of `dispatch` up to its call of `handleStartup`: the length that is passed there, or
nothing when the connection is over without an error. -/
def switch (msgLen code : UInt32) (next : HandlerM (Option ℕ)) : HandlerM (Option ℕ) :=
  if code = Postgres.sslRequestCode ∨ code = Postgres.gssencRequestCode then do
    onError (wrapf "write SSL/GSS rejection: %w" []) (Handler.write .client [ascii 'N'])
    next
  else if code = Postgres.cancelRequestCode then do
    let _ ← onError (fun _ ↦ eof) (Handler.readFull (msgLen.toNat - 8))
    pure none
  else if code = Postgres.protocolV3 then pure (some msgLen.toNat)
  else .lift (fail (errorf "unsupported pg protocol code 0x%08x" [.number code.toNat]))

/-- `dispatch` up to its call of `handleStartup`. -/
def negotiate : ℕ → HandlerM (Option ℕ)
  | 0 => .lift (fail (errorf "client did not send StartupMessage after preamble" []))
  | attempts + 1 => do
    let msgLen ← onError (wrapf "read length: %w" []) readUint32
    .lift (refuse (msgLen.toNat < 8 ∨ Postgres.maxStartupLen < msgLen.toNat)
      (errorf "startup length out of range: %d" [.number msgLen.toNat]))
    let code ← onError (wrapf "read code: %w" []) readUint32
    switch msgLen code (negotiate attempts)

/-- The call of `handleStartup`. -/
def startup (env : Env) : Option ℕ → HandlerM Unit
  | some msgLen => handleStartup env msgLen
  | none => pure ()

theorem dispatchLoop_eq (env : Env) (attempts : ℕ) :
    dispatchLoop env attempts = negotiate attempts >>= startup env := by
  induction attempts with
  | zero => rfl
  | succ attempts ih =>
    rw [dispatchLoop, negotiate, ih]
    simp only [bind_assoc]
    congr 1
    funext msgLen
    congr 1
    funext _
    congr 1
    funext code
    rw [switch]
    split
    · rw [bind_assoc]
    · split
      · rw [bind_assoc]
        rfl
      · split
        · rfl
        · rfl

/-- The call that `dispatch` makes. -/
theorem exec_dispatch_of_negotiate {Key : Type} {crypto : Crypto Key} {env : Env} {fuel n : ℕ}
    {s called : Net}
    (h : (negotiate 2).exec (Net.handler crypto env fuel) s = (.ok (some n), called)) :
    (dispatch env).exec (Net.handler crypto env fuel) s =
      (handleStartup env n).exec (Net.handler crypto env fuel) called := by
  rw [dispatch, dispatchLoop_eq, Program.exec_bind_of_ok h]
  rfl

/-! ## What a client may send -/

/-- A client that asks for each kind of encryption once at most, sends its StartupMessage, and goes
on with anything. -/
structure Opening where
  requests : List Preamble
  nodup : requests.Nodup
  startup : StartupMessage
  fits : 8 + startup.body.length ≤ Postgres.maxStartupLen
  rest : Bytes

namespace Opening

/-- Everything the client sends. -/
def stream (o : Opening) : Bytes :=
  o.requests.flatMap Preamble.frame ++ (o.startup.frame ++ o.rest)

/-- What it is answered before it is started. -/
def answers (o : Opening) : Bytes := o.requests.map fun _ ↦ ascii 'N'

end Opening

/-- A length `dispatch` goes on with. -/
def InRange (msgLen : UInt32) : Prop := 8 ≤ msgLen.toNat ∧ msgLen.toNat ≤ Postgres.maxStartupLen

theorem isRequest_code (request : Preamble) : request.code = Postgres.sslRequestCode ∨
    request.code = Postgres.gssencRequestCode := by
  cases request with
  | ssl => exact .inl rfl
  | gssenc => exact .inr rfl

theorem toNat_length (startup : StartupMessage) :
    (UInt32.ofNat (8 + startup.body.length)).toNat = 8 + startup.body.length := by
  rw [UInt32.toNat_ofNat', Nat.mod_eq_of_lt startup.length_lt]

/-- A request that claims to be longer than it is, and a StartupMessage. -/
def OversizedRequest (stream : Bytes) : Prop :=
  ∃ (msgLen : UInt32) (request : Preamble) (startup : StartupMessage) (rest : Bytes),
    msgLen ≠ 8 ∧ InRange msgLen ∧ 8 + startup.body.length ≤ Postgres.maxStartupLen ∧
    stream = be32 msgLen ++ (be32 request.code ++ (startup.frame ++ rest))

variable {Key α β : Type}

section Law

variable (crypto : Crypto Key) (env : Env) (fuel : ℕ)

/-- `handleStartup` is called with the length and reads the body from the client. -/
def StartsWith (s : Net) (msgLen : ℕ) (called : Net) (body : Bytes) (started : Net) : Prop :=
  (negotiate 2).exec (Net.handler crypto env fuel) s = (.ok (some msgLen), called) ∧
  (Handler.readFull (msgLen - 8)).exec (Net.handler crypto env fuel) called = (.ok body, started)

/-- What `dispatch` has to do with a client. -/
structure Conforms (s : Net) : Prop where
  legal : ∀ o : Opening, s.client.stream = o.stream → ∃ called started,
    StartsWith crypto env fuel s (8 + o.startup.body.length) called o.startup.body started ∧
    (dispatch env).exec (Net.handler crypto env fuel) s =
      (handleStartup env (8 + o.startup.body.length)).exec (Net.handler crypto env fuel) called ∧
    called.client.conn.output = s.client.conn.output ++ o.answers ∧
    started.client.stream = o.rest
  other : (∀ o : Opening, s.client.stream ≠ o.stream) →
    Returns ((dispatch env).exec (Net.handler crypto env fuel) s).1 ∧
    ∀ msgLen called body started, ¬ StartsWith crypto env fuel s msgLen called body started

end Law

/-! ## Reading from the client -/

/-- A client that keeps its connection open, what it is going to send, and what it was told. The rest
of the state is as it was in `net`. -/
structure Client (net : Net) (stream output : Bytes) (s : Net) : Prop where
  same : SameUpstream net s
  stream : s.client.stream = stream
  output : s.client.conn.output = output
  room : s.client.conn.room = none

variable {net s s' : Net} {stream rest output : Bytes}

section Forward

variable (crypto : Crypto Key) (env : Env) (fuel : ℕ)

theorem exec_readFull_spec (n : ℕ) (hs : Client net stream output s) :
    (∃ s', (Handler.readFull n).exec (Net.handler crypto env fuel) s = (.ok (stream.take n), s') ∧
      n ≤ stream.length ∧ Client net (stream.drop n) output s') ∨
    ∃ error s', (Handler.readFull n).exec (Net.handler crypto env fuel) s = (fail error, s') ∧
      stream.length < n := by
  have hexec : (Handler.readFull n).exec (Net.handler crypto env fuel) s =
      ((s.client.readFull n).1, { s with client := (s.client.readFull n).2 }) := rfl
  rw [hexec, ← hs.stream]
  rcases Bufio.readFull_spec s.client n with ⟨b, hread, henough, htook⟩ | ⟨error, b, hread, hshort, -⟩
  · rw [hread]
    refine .inl ⟨_, rfl, henough, hs.same.trans ⟨b, s.connID, rfl⟩, ?_, htook.output.trans hs.output,
      htook.room.trans hs.room⟩
    have hstream := htook.stream
    nth_rewrite 1 [← List.take_append_drop n s.client.stream] at hstream
    exact (List.append_cancel_left hstream).symm
  · rw [hread]
    exact .inr ⟨error, _, rfl, hshort⟩

/-- Whatever the chunks, the next bytes of the client are read. -/
theorem exec_readFull {bytes : Bytes} {n : ℕ} (hn : bytes.length = n)
    (hs : Client net (bytes ++ rest) output s) :
    ∃ s', (Handler.readFull n).exec (Net.handler crypto env fuel) s = (.ok bytes, s') ∧
      Client net rest output s' := by
  subst hn
  rcases exec_readFull_spec crypto env fuel bytes.length hs with
    ⟨s', hexec, -, hs'⟩ | ⟨_, _, -, hshort⟩
  · rw [List.take_left] at hexec
    rw [List.drop_left] at hs'
    exact ⟨s', hexec, hs'⟩
  · rw [List.length_append] at hshort
    omega

theorem exec_readUint32 {word : UInt32} (hs : Client net (be32 word ++ rest) output s) :
    ∃ s', readUint32.exec (Net.handler crypto env fuel) s = (.ok word, s') ∧
      Client net rest output s' := by
  obtain ⟨s', hexec, hs'⟩ := exec_readFull crypto env fuel (length_be32 word) hs
  refine ⟨s', ?_, hs'⟩
  rw [readUint32, Program.exec_bind_of_ok hexec, uint32BE_be32]
  rfl

theorem exec_reject (hs : Client net stream output s) :
    ∃ s', (Handler.write .client [ascii 'N']).exec (Net.handler crypto env fuel) s = (.ok (), s') ∧
      Client net stream (output ++ [ascii 'N']) s' := by
  have hexec : (Handler.write .client [ascii 'N']).exec (Net.handler crypto env fuel) s =
      (((write [ascii 'N']).run s.client.conn).1, { s with client := { s.client with
        conn := ((write [ascii 'N']).run s.client.conn).2 } }) := rfl
  rw [write_of_room hs.room] at hexec
  exact ⟨_, hexec, hs.same.trans ⟨_, _, rfl⟩, hs.stream, congrArg (· ++ [ascii 'N']) hs.output,
    hs.room⟩

/-- The code of a message is read if its length is in range. -/
theorem exec_header (attempts : ℕ) {msgLen code : UInt32} (hrange : InRange msgLen)
    (hs : Client net (be32 msgLen ++ (be32 code ++ rest)) output s) :
    ∃ s', Client net rest output s' ∧
      (negotiate (attempts + 1)).exec (Net.handler crypto env fuel) s =
        (switch msgLen code (negotiate attempts)).exec (Net.handler crypto env fuel) s' := by
  obtain ⟨s₁, hlen, hs₁⟩ := exec_readUint32 crypto env fuel hs
  obtain ⟨s₂, hcode, hs₂⟩ := exec_readUint32 crypto env fuel hs₁
  refine ⟨s₂, hs₂, ?_⟩
  have hpass : refuse (msgLen.toNat < 8 ∨ Postgres.maxStartupLen < msgLen.toNat)
      (errorf "startup length out of range: %d" [.number msgLen.toNat]) = .ok () := by
    rw [refuse_eq_ok]
    have := hrange.1
    have := hrange.2
    omega
  have hlift (next : Unit → HandlerM (Option ℕ)) :
      (Program.lift (.ok ()) >>= next) = next () := rfl
  rw [negotiate, Program.exec_bind_of_ok (exec_onError_eq_ok.mpr hlen), hpass, hlift,
    Program.exec_bind_of_ok (exec_onError_eq_ok.mpr hcode)]

/-- A request is answered, whatever its length, and uses up an attempt. -/
theorem exec_request (attempts : ℕ) {msgLen : UInt32} {request : Preamble} (hrange : InRange msgLen)
    (hs : Client net (be32 msgLen ++ (be32 request.code ++ rest)) output s) :
    ∃ s', Client net rest (output ++ [ascii 'N']) s' ∧
      (negotiate (attempts + 1)).exec (Net.handler crypto env fuel) s =
        (negotiate attempts).exec (Net.handler crypto env fuel) s' := by
  obtain ⟨s₁, hs₁, hexec⟩ := exec_header crypto env fuel attempts hrange hs
  obtain ⟨s₂, hreject, hs₂⟩ := exec_reject crypto env fuel hs₁
  refine ⟨s₂, hs₂, ?_⟩
  rw [hexec, switch, if_pos (isRequest_code request),
    Program.exec_bind_of_ok (exec_onError_eq_ok.mpr hreject)]

/-- A StartupMessage leads to `handleStartup`. -/
theorem exec_startup (attempts : ℕ) {startup : StartupMessage}
    (hfits : 8 + startup.body.length ≤ Postgres.maxStartupLen)
    (hs : Client net (startup.frame ++ rest) output s) :
    ∃ called, Client net (startup.body ++ rest) output called ∧
      (negotiate (attempts + 1)).exec (Net.handler crypto env fuel) s =
        (.ok (some (8 + startup.body.length)), called) := by
  have hword := toNat_length startup
  rw [StartupMessage.frame, List.append_assoc, List.append_assoc] at hs
  have hrange : InRange (UInt32.ofNat (8 + startup.body.length)) := by
    rw [InRange, hword]
    omega
  obtain ⟨called, hcalled, hexec⟩ := exec_header crypto env fuel attempts hrange hs
  refine ⟨called, hcalled, ?_⟩
  rw [hexec, switch, if_neg (by decide), if_neg (by decide), if_pos rfl, hword]
  rfl

theorem inRange_eight : InRange 8 := ⟨by decide, by decide⟩

/-- A client that makes one request at most is answered and started. -/
theorem exec_opening {o : Opening} (hone : o.requests.length ≤ 1)
    (hs : Client net o.stream output s) :
    ∃ called, Client net (o.startup.body ++ o.rest) (output ++ o.answers) called ∧
      (negotiate 2).exec (Net.handler crypto env fuel) s =
        (.ok (some (8 + o.startup.body.length)), called) := by
  match o, hone with
  | ⟨[], _, startup, hfits, rest⟩, _ =>
    obtain ⟨called, hcalled, hexec⟩ := exec_startup crypto env fuel 1 hfits hs
    refine ⟨called, ?_, hexec⟩
    rw [Opening.answers, List.map_nil, List.append_nil]
    exact hcalled
  | ⟨[request], _, startup, hfits, rest⟩, _ =>
    rw [Opening.stream, List.flatMap_singleton, Preamble.frame, List.append_assoc] at hs
    obtain ⟨s₁, hs₁, hrequest⟩ := exec_request crypto env fuel 1 inRange_eight hs
    obtain ⟨called, hcalled, hexec⟩ := exec_startup crypto env fuel 0 hfits hs₁
    exact ⟨called, hcalled, hrequest.trans hexec⟩

/-- A client that makes two requests has no attempt left for its StartupMessage. -/
theorem exec_two_requests {o : Opening} (htwo : ¬ o.requests.length ≤ 1)
    (hs : Client net o.stream output s) :
    ∃ error, ((negotiate 2).exec (Net.handler crypto env fuel) s).1 = fail error := by
  match o, htwo with
  | ⟨[], _, _, _, _⟩, htwo => exact absurd (Nat.zero_le 1) htwo
  | ⟨[_], _, _, _, _⟩, htwo => exact absurd (Nat.le_refl 1) htwo
  | ⟨first :: second :: others, _, _, _, _⟩, _ =>
    simp only [Opening.stream, List.flatMap_cons, Preamble.frame, List.append_assoc] at hs
    obtain ⟨s₁, hs₁, hfirst⟩ := exec_request crypto env fuel 1 inRange_eight hs
    obtain ⟨s₂, _, hsecond⟩ := exec_request crypto env fuel 0 inRange_eight hs₁
    rw [hfirst, hsecond]
    exact ⟨_, rfl⟩

end Forward

/-! ## What was read from the client -/

variable {crypto : Crypto Key} {env : Env} {fuel : ℕ}

theorem readFull_eq_ok {n : ℕ} {bytes : Bytes} (hs : Client net stream output s)
    (h : (Handler.readFull n).exec (Net.handler crypto env fuel) s = (.ok bytes, s')) :
    bytes.length = n ∧ ∃ rest, stream = bytes ++ rest ∧ Client net rest output s' := by
  rcases exec_readFull_spec crypto env fuel n hs with ⟨t, hexec, henough, ht⟩ | ⟨_, _, hexec, -⟩
  · obtain ⟨hvalue, rfl⟩ := Prod.mk.inj (hexec.symm.trans h)
    obtain rfl := Except.ok.inj hvalue
    exact ⟨List.length_take_of_le henough, _, (List.take_append_drop n stream).symm, ht⟩
  · exact nomatch hexec.symm.trans h

theorem readUint32_eq_ok {word : UInt32} (hs : Client net stream output s)
    (h : readUint32.exec (Net.handler crypto env fuel) s = (.ok word, s')) :
    ∃ rest, stream = be32 word ++ rest ∧ Client net rest output s' := by
  obtain ⟨bytes, _, hread, hpure⟩ := Program.exec_bind_eq_ok.mp h
  obtain ⟨hword, rfl⟩ := Prod.mk.inj hpure
  obtain ⟨hlength, rest, hstream, hs'⟩ := readFull_eq_ok hs hread
  refine ⟨rest, ?_, hs'⟩
  rw [hstream, ← Except.ok.inj hword, be32_uint32BE bytes hlength]

/-- The `switch` gets to `handleStartup` at once or after a rejection. -/
theorem switch_eq_some {msgLen code : UInt32} {next : HandlerM (Option ℕ)} {n : ℕ}
    (hs : Client net stream output s)
    (h : (switch msgLen code next).exec (Net.handler crypto env fuel) s = (.ok (some n), s')) :
    (code = Postgres.protocolV3 ∧ n = msgLen.toNat ∧ Client net stream output s') ∨
    ∃ request : Preamble, code = request.code ∧ ∃ t, Client net stream (output ++ [ascii 'N']) t ∧
      next.exec (Net.handler crypto env fuel) t = (.ok (some n), s') := by
  rw [switch] at h
  split at h
  · next hcode =>
    obtain ⟨t, hreject, ht⟩ := exec_reject crypto env fuel hs
    rw [Program.exec_bind_of_ok (exec_onError_eq_ok.mpr hreject)] at h
    rcases hcode with hssl | hgssenc
    · exact .inr ⟨.ssl, hssl, t, ht, h⟩
    · exact .inr ⟨.gssenc, hgssenc, t, ht, h⟩
  · split at h
    · obtain ⟨_, _, -, hnone⟩ := Program.exec_bind_eq_ok.mp h
      exact nomatch hnone
    · split at h
      · next hcode =>
        obtain ⟨hvalue, rfl⟩ := Prod.mk.inj h
        exact .inl ⟨hcode, (Option.some.inj (Except.ok.inj hvalue)).symm, hs⟩
      · exact nomatch h

theorem negotiate_eq_some {attempts n : ℕ} (hs : Client net stream output s)
    (h : (negotiate (attempts + 1)).exec (Net.handler crypto env fuel) s = (.ok (some n), s')) :
    ∃ msgLen rest, InRange msgLen ∧
      ((stream = be32 msgLen ++ (be32 Postgres.protocolV3 ++ rest) ∧ n = msgLen.toNat ∧
        Client net rest output s') ∨
      ∃ request : Preamble, stream = be32 msgLen ++ (be32 request.code ++ rest) ∧
        ∃ t, Client net rest (output ++ [ascii 'N']) t ∧
          (negotiate attempts).exec (Net.handler crypto env fuel) t = (.ok (some n), s')) := by
  obtain ⟨msgLen, s₁, hlen, h⟩ := Program.exec_bind_eq_ok.mp h
  obtain ⟨afterLen, rfl, hs₁⟩ := readUint32_eq_ok hs (exec_onError_eq_ok.mp hlen)
  obtain ⟨_, _, hpass, h⟩ := Program.exec_bind_eq_ok.mp h
  obtain ⟨hrange, rfl⟩ := Prod.mk.inj hpass
  rw [refuse_eq_ok] at hrange
  obtain ⟨code, s₂, hcode, h⟩ := Program.exec_bind_eq_ok.mp h
  obtain ⟨rest, rfl, hs₂⟩ := readUint32_eq_ok hs₁ (exec_onError_eq_ok.mp hcode)
  refine ⟨msgLen, rest, ⟨by omega, by omega⟩, ?_⟩
  rcases switch_eq_some hs₂ h with ⟨rfl, hn, hs'⟩ | ⟨request, rfl, hnext⟩
  · exact .inl ⟨rfl, hn, hs'⟩
  · exact .inr ⟨request, rfl, hnext⟩

/-- A header and the body it announces are a StartupMessage. -/
theorem exists_startup {msgLen : UInt32} {body : Bytes} (hrange : InRange msgLen)
    (hbody : body.length = msgLen.toNat - 8) (rest : Bytes) :
    ∃ startup : StartupMessage, 8 + startup.body.length ≤ Postgres.maxStartupLen ∧
      be32 msgLen ++ (be32 Postgres.protocolV3 ++ (body ++ rest)) = startup.frame ++ rest := by
  have hlength : 8 + body.length = msgLen.toNat := by
    have := hrange.1
    omega
  have hlt : 8 + body.length < 2 ^ 32 := by
    rw [hlength]
    exact msgLen.toNat_lt
  have hfits : 8 + body.length ≤ Postgres.maxStartupLen := by
    rw [hlength]
    exact hrange.2
  have hword : UInt32.ofNat (8 + body.length) = msgLen := by rw [hlength, UInt32.ofNat_toNat]
  refine ⟨⟨body, hlt⟩, hfits, ?_⟩
  rw [StartupMessage.frame, hword, List.append_assoc, List.append_assoc]

/-- A client that is started has sent its StartupMessage, or it after one request. -/
theorem stream_of_startsWith {n : ℕ} {called started : Net} {body : Bytes}
    (hs : Client net stream output s) (h : StartsWith crypto env fuel s n called body started) :
    (∃ o : Opening, stream = o.stream) ∨ OversizedRequest stream := by
  obtain ⟨hcall, hbody⟩ := h
  obtain ⟨msgLen, rest, hrange, ⟨rfl, rfl, hs₁⟩ | ⟨request, rfl, t, ht, hcall⟩⟩ :=
    negotiate_eq_some hs hcall
  · obtain ⟨hlength, rest, rfl, -⟩ := readFull_eq_ok hs₁ hbody
    obtain ⟨startup, hfits, hframe⟩ := exists_startup hrange hlength rest
    rw [hframe]
    exact .inl ⟨⟨[], .nil, startup, hfits, rest⟩, rfl⟩
  · obtain ⟨startLen, rest, hstart, ⟨rfl, rfl, hs₁⟩ | ⟨_, -, _, -, hcall⟩⟩ :=
      negotiate_eq_some ht hcall
    · obtain ⟨hlength, rest, rfl, -⟩ := readFull_eq_ok hs₁ hbody
      obtain ⟨startup, hfits, hframe⟩ := exists_startup hstart hlength rest
      rw [hframe]
      by_cases hlen : msgLen = 8
      · refine .inl ⟨⟨[request], List.nodup_singleton request, startup, hfits, rest⟩, ?_⟩
        rw [hlen, Opening.stream, List.flatMap_singleton, Preamble.frame, List.append_assoc]
      · exact .inr ⟨msgLen, request, startup, rest, hlen, hrange, hfits, rfl⟩
    · exact nomatch hcall

/-! ## `dispatch` returns -/

theorem returns_readFull (n : ℕ) (s : Net) :
    Returns ((Handler.readFull n).exec (Net.handler crypto env fuel) s).1 := by
  change Returns (s.client.readFull n).1
  rcases Bufio.readFull_spec s.client n with ⟨b, hread, -⟩ | ⟨error, b, hread, -⟩
  · rw [hread]
    trivial
  · rw [hread]
    trivial

theorem returns_onError {change : GoError → GoError} {program : HandlerM α}
    (h : Returns (program.exec (Net.handler crypto env fuel) s).1) :
    Returns ((onError change program).exec (Net.handler crypto env fuel) s).1 := by
  rw [exec_onError]
  exact returns_mapErr.mpr h

theorem returns_readUint32 (s : Net) :
    Returns (readUint32.exec (Net.handler crypto env fuel) s).1 :=
  returns_exec_bind (returns_readFull 4 s) fun _ _ _ ↦ trivial

theorem returns_negotiate (attempts : ℕ) (hs : Client net stream output s) :
    Returns ((negotiate attempts).exec (Net.handler crypto env fuel) s).1 := by
  induction attempts generalizing stream output s with
  | zero => trivial
  | succ attempts ih =>
    apply returns_exec_bind (returns_onError (returns_readUint32 s))
    intro msgLen s₁ hlen
    obtain ⟨_, -, hs₁⟩ := readUint32_eq_ok hs (exec_onError_eq_ok.mp hlen)
    apply returns_exec_bind
    · exact returns_refuse _ _
    intro _ _ hpass
    obtain ⟨-, rfl⟩ := Prod.mk.inj hpass
    apply returns_exec_bind (returns_onError (returns_readUint32 s₁))
    intro code s₂ hcode
    obtain ⟨_, -, hs₂⟩ := readUint32_eq_ok hs₁ (exec_onError_eq_ok.mp hcode)
    rw [switch]
    split
    · obtain ⟨s₃, hreject, hs₃⟩ := exec_reject crypto env fuel hs₂
      rw [Program.exec_bind_of_ok (exec_onError_eq_ok.mpr hreject)]
      exact ih hs₃
    · split
      · exact returns_exec_bind (returns_onError (returns_readFull _ s₂)) fun _ _ _ ↦ trivial
      · split
        · trivial
        · trivial

/-- A client that is not started is told nothing more: `dispatch` returns. -/
theorem returns_dispatch (hs : Client net stream output s)
    (hnever : ∀ n called body started, ¬ StartsWith crypto env fuel s n called body started) :
    Returns ((dispatch env).exec (Net.handler crypto env fuel) s).1 := by
  rw [dispatch, dispatchLoop_eq]
  apply returns_exec_bind (returns_negotiate 2 hs)
  intro msgLen called hcall
  match msgLen with
  | none => trivial
  | some n =>
    apply returns_exec_bind (returns_onError (returns_readFull _ called))
    intro body started hbody
    exact absurd ⟨hcall, exec_onError_eq_ok.mp hbody⟩ (hnever n called body started)

/-! ## When `dispatch` conforms -/

theorem be32_append_inj {word word' : UInt32} {tail tail' : Bytes}
    (h : be32 word ++ tail = be32 word' ++ tail') : word = word' ∧ tail = tail' := by
  obtain ⟨hword, htail⟩ := List.append_inj h (by rw [length_be32, length_be32])
  refine ⟨?_, htail⟩
  rw [← uint32BE_be32 word, hword, uint32BE_be32]

theorem code_ne_protocolV3 (request : Preamble) : request.code ≠ Postgres.protocolV3 := by
  cases request with
  | ssl => decide
  | gssenc => decide

theorem code_injective : Function.Injective Preamble.code := by
  intro request request' h
  cases request with
  | ssl =>
    cases request' with
    | ssl => rfl
    | gssenc => exact absurd h (by decide)
  | gssenc =>
    cases request' with
    | ssl => exact absurd h (by decide)
    | gssenc => rfl

/-- A StartupMessage is no request. -/
theorem frame_ne_startup (request : Preamble) (startup : StartupMessage) (tail tail' : Bytes) :
    request.frame ++ tail ≠ startup.frame ++ tail' := by
  intro h
  rw [Preamble.frame, StartupMessage.frame, List.append_assoc, List.append_assoc,
    List.append_assoc] at h
  obtain ⟨-, h⟩ := be32_append_inj h
  exact code_ne_protocolV3 request (be32_append_inj h).1

theorem requests_eq {requests requests' : List Preamble} {startup startup' : StartupMessage}
    {rest rest' : Bytes}
    (h : requests.flatMap Preamble.frame ++ (startup.frame ++ rest) =
      requests'.flatMap Preamble.frame ++ (startup'.frame ++ rest')) : requests = requests' := by
  induction requests generalizing requests' with
  | nil =>
    cases requests' with
    | nil => rfl
    | cons request' requests' =>
      rw [List.flatMap_nil, List.nil_append, List.flatMap_cons, List.append_assoc] at h
      exact absurd h.symm (frame_ne_startup request' startup _ _)
  | cons request requests ih =>
    cases requests' with
    | nil =>
      rw [List.flatMap_nil, List.nil_append, List.flatMap_cons, List.append_assoc] at h
      exact absurd h (frame_ne_startup request startup' _ _)
    | cons request' requests' =>
      rw [List.flatMap_cons, List.append_assoc, List.flatMap_cons, List.append_assoc,
        Preamble.frame, Preamble.frame, List.append_assoc, List.append_assoc] at h
      obtain ⟨-, h⟩ := be32_append_inj h
      obtain ⟨hcode, h⟩ := be32_append_inj h
      rw [code_injective hcode, ih h]

/-- What a legal client asks for can be told from what it sends. -/
theorem Opening.requests_eq_of_stream {o o' : Opening} (h : o.stream = o'.stream) :
    o.requests = o'.requests := requests_eq h

/-- No legal client says that its request is longer. -/
theorem stream_ne_of_length {msgLen : UInt32} {request : Preamble} (hlength : msgLen ≠ 8)
    (o : Opening) : be32 msgLen ++ (be32 request.code ++ rest) ≠ o.stream := by
  intro h
  obtain ⟨requests, nodup, startup, hfits, after⟩ := o
  cases requests with
  | nil =>
    rw [Opening.stream, List.flatMap_nil, List.nil_append, StartupMessage.frame, List.append_assoc,
      List.append_assoc] at h
    obtain ⟨-, h⟩ := be32_append_inj h
    exact code_ne_protocolV3 request (be32_append_inj h).1
  | cons first others =>
    rw [Opening.stream, List.flatMap_cons, Preamble.frame, List.append_assoc,
      List.append_assoc] at h
    exact hlength (be32_append_inj h).1

/-- `dispatch` does what it should exactly with the clients that make one request at most, of the
length a request has. -/
theorem conforms_iff (crypto : Crypto Key) (env : Env) (fuel : ℕ) (s : Net)
    (hroom : s.client.conn.room = none) :
    Conforms crypto env fuel s ↔
      (∀ o : Opening, s.client.stream = o.stream → o.requests.length ≤ 1) ∧
        ¬ OversizedRequest s.client.stream := by
  have hs : Client s s.client.stream s.client.conn.output s :=
    ⟨SameUpstream.refl s, rfl, rfl, hroom⟩
  constructor
  · intro hconforms
    constructor
    · intro o hstream
      by_contra htwo
      obtain ⟨_, _, ⟨hcall, -⟩, -⟩ := hconforms.legal o hstream
      rw [hstream] at hs
      obtain ⟨_, hfail⟩ := exec_two_requests crypto env fuel htwo hs
      rw [hcall] at hfail
      exact nomatch hfail
    · rintro ⟨msgLen, request, startup, rest, hlength, hrange, hfits, hstream⟩
      rw [hstream] at hs
      obtain ⟨s₁, hs₁, hrequest⟩ := exec_request crypto env fuel 1 hrange hs
      obtain ⟨called, hcalled, hstart⟩ := exec_startup crypto env fuel 0 hfits hs₁
      obtain ⟨started, hbody, -⟩ := exec_readFull crypto env fuel (Nat.add_sub_cancel_left 8 _).symm hcalled
      refine (hconforms.other fun o ↦ ?_).2 _ called _ started ⟨hrequest.trans hstart, hbody⟩
      rw [hstream]
      exact stream_ne_of_length hlength o
  · rintro ⟨hone, hsized⟩
    constructor
    · intro o hstream
      rw [hstream] at hs
      obtain ⟨called, hcalled, hcall⟩ := exec_opening crypto env fuel (hone o hstream) hs
      obtain ⟨started, hbody, hstarted⟩ :=
        exec_readFull crypto env fuel (Nat.add_sub_cancel_left 8 _).symm hcalled
      exact ⟨called, started, ⟨hcall, hbody⟩, exec_dispatch_of_negotiate hcall, hcalled.output,
        hstarted.stream⟩
    · intro hother
      have hnever (n : ℕ) (called : Net) (body : Bytes) (started : Net) :
          ¬ StartsWith crypto env fuel s n called body started := by
        intro hstarts
        rcases stream_of_startsWith hs hstarts with ⟨o, hstream⟩ | hoversized
        · exact hother o hstream
        · exact hsized hoversized
      exact ⟨returns_dispatch hs hnever, hnever⟩

/-- A client that prefers TLS. -/
def preferringTLS : Opening := ⟨[.ssl], List.nodup_singleton _, Tunnel.eagerClient, by decide, []⟩

/-- It is started after it was told `N`. -/
theorem conforms_iff_preferringTLS :
    Conforms Net.openCrypto Mongo.openEnv 0
      ((Net.reaching (.error eof)).accept preferringTLS.stream none [5]) := by
  refine (conforms_iff Net.openCrypto Mongo.openEnv 0 _ rfl).mpr ⟨?_, ?_⟩
  · intro o hstream
    rw [← Opening.requests_eq_of_stream hstream]
    exact Nat.le_refl 1
  · rintro ⟨msgLen, request, startup, rest, hlength, -, -, hstream⟩
    exact stream_ne_of_length hlength preferringTLS hstream.symm

/-- A client that prefers GSSAPI encryption, then TLS, and does without in the end. -/
def preferringEncryption : Opening :=
  ⟨[.gssenc, .ssl], by simp, Tunnel.eagerClient, by decide, []⟩

/-- It is not started. -/
theorem preferringEncryption_refused :
    ((dispatch Mongo.openEnv).exec (Net.handler Net.openCrypto Mongo.openEnv 0)
        ((Net.reaching (.error eof)).accept preferringEncryption.stream none [])).1 =
      fail (errorf "client did not send StartupMessage after preamble" []) ∧
    ¬ Conforms Net.openCrypto Mongo.openEnv 0
      ((Net.reaching (.error eof)).accept preferringEncryption.stream none []) := by
  refine ⟨rfl, fun hconforms ↦ ?_⟩
  obtain ⟨_, _, ⟨hcall, -⟩, -⟩ := hconforms.legal preferringEncryption rfl
  exact nomatch hcall

end DbPivot.Proxy.Negotiation
