import DbPivot.Mysql.Auth

/-!
# Sequence ids

Both sides of a MySQL link number their packets with one counter: a packet carries the id after that
of the last packet on the link, whoever sent it, and the counter wraps at 256. A side that breaks
the count is disconnected.

The traffic of a link is recorded frame by frame. A read gives the id of the last frame of a packet,
and a write that fails may have put any number of whole frames on the link.
-/

namespace DbPivot.Mysql

open DbPivot.Go DbPivot.System

/-- What went over a link: the id of a packet that was read, or of a frame that was written. -/
inductive Traffic where
  | received (seq : UInt8)
  | sent (seq : UInt8)
deriving DecidableEq

def Traffic.seq : Traffic → UInt8
  | .received seq => seq
  | .sent seq => seq

/-- The id of the last packet on a link; `start` stands for it before the first one. -/
def lastId (start : Option UInt8) (log : List Traffic) : Option UInt8 :=
  match log.getLast? with
  | some entry => some entry.seq
  | none => start

/-- Every frame that was written carries the id after that of the entry before it. -/
inductive Continuous (start : Option UInt8) : List Traffic → Prop where
  | nil : Continuous start []
  | received {log : List Traffic} (h : Continuous start log) (seq : UInt8) :
      Continuous start (log ++ [.received seq])
  | sent {log : List Traffic} {last : UInt8} (h : Continuous start log)
      (hlast : lastId start log = some last) : Continuous start (log ++ [.sent (last + 1)])

/-- The frames of a packet as traffic. -/
def sentFrames (seq : UInt8) (payload : Bytes) : List Traffic :=
  (frames seq payload).map fun frame ↦ .sent frame.seq

variable {start : Option UInt8} {log : List Traffic}

@[simp]
theorem lastId_concat (log : List Traffic) (entry : Traffic) :
    lastId start (log ++ [entry]) = some entry.seq := by
  rw [lastId, List.getLast?_concat]

/-- Some frames in a row, numbered from the id after the last one on. -/
theorem continuous_range (h : Continuous start log) {last : UInt8}
    (hlast : lastId start log = some last) (count : ℕ) :
    Continuous start (log ++ (List.range count).map fun i ↦ .sent (last + 1 + UInt8.ofNat i)) ∧
      lastId start (log ++ (List.range count).map fun i ↦ .sent (last + 1 + UInt8.ofNat i)) =
        some (last + UInt8.ofNat count) := by
  induction count with
  | zero =>
    rw [List.range_zero, List.map_nil, List.append_nil]
    exact ⟨h, hlast.trans (congrArg some (UInt8.add_zero last).symm)⟩
  | succ count ih =>
    have hnext : last + 1 + UInt8.ofNat count = last + UInt8.ofNat count + 1 := by
      rw [UInt8.add_assoc, UInt8.add_comm 1, ← UInt8.add_assoc]
    have hsplit : log ++ (List.range (count + 1)).map (fun i ↦ Traffic.sent (last + 1 + UInt8.ofNat i)) =
        log ++ (List.range count).map (fun i ↦ Traffic.sent (last + 1 + UInt8.ofNat i)) ++
          [.sent (last + UInt8.ofNat count + 1)] := by
      rw [List.range_succ, List.map_append, List.append_assoc, List.map_singleton, hnext]
    rw [hsplit, lastId_concat]
    refine ⟨ih.1.sent ih.2, ?_⟩
    rw [Traffic.seq, UInt8.add_assoc, UInt8.ofNat_add]
    rfl

theorem sentFrames_eq (seq : UInt8) (payload : Bytes) :
    sentFrames seq payload =
      (List.range (frameCount payload)).map fun i ↦ .sent (seq + UInt8.ofNat i) := by
  rw [sentFrames, frames, List.map_map]
  rfl

/-- The first frames of a packet with the right id go on with the count. -/
theorem continuous_sentFrames (h : Continuous start log) {last : UInt8}
    (hlast : lastId start log = some last) {payload : Bytes} {part : List Traffic}
    (hpart : part <+: sentFrames (last + 1) payload) : Continuous start (log ++ part) := by
  rw [sentFrames_eq] at hpart
  have htake : part = (List.range part.length).map fun i ↦ .sent (last + 1 + UInt8.ofNat i) := by
    have hlength := hpart.length_le
    rw [List.length_map, List.length_range] at hlength
    rw [List.prefix_iff_eq_take] at hpart
    nth_rewrite 1 [hpart]
    rw [← List.map_take, List.take_range, Nat.min_eq_left hlength]
  rw [htake]
  exact (continuous_range h hlast part.length).1

/-- After a whole packet the next id is the one `WritePacket` returns. -/
theorem lastId_sentFrames (h : Continuous start log) {last : UInt8}
    (hlast : lastId start log = some last) (payload : Bytes) :
    lastId start (log ++ sentFrames (last + 1) payload) =
      some (lastSeq (last + 1) payload) := by
  rw [sentFrames_eq, (continuous_range h hlast (frameCount payload)).2, lastSeq, nextSeq,
    UInt8.add_assoc, UInt8.add_comm 1, ← UInt8.add_assoc, UInt8.add_sub_cancel]

/-! ## The traffic of a login -/

/-- A world that answers a login in any way and records its traffic. -/
def Logged (log : List Traffic) :
    (c : LoginCall) → loginInterface.Reply c → List Traffic → Prop
  | .readPacket _, .ok (seq, _), log' => log' = log ++ [.received seq]
  | .readPacket _, .error _, log' => log' = log
  | .writePacket _ seq payload, .ok _, log' => log' = log ++ sentFrames seq payload
  | .writePacket _ seq payload, .error _, log' =>
    ∃ part, part <+: sentFrames seq payload ∧ log' = log ++ part
  | .handshake _, _, log' => log' = log
  | .entropy, _, log' => log' = log

/-- The id that a next packet has to carry. -/
def Next (start : Option UInt8) (seq : UInt8) (log : List Traffic) : Prop :=
  ∃ last, lastId start log = some last ∧ seq = last + 1

/-- The program keeps the count, and its value meets the postcondition. -/
abbrev Counts {α : Type} (program : LoginM α) (post : α → List Traffic → Prop)
    (log : List Traffic) : Prop :=
  Ensures (.still Logged) (Continuous none)
    (OnValue fun value log ↦ Continuous none log ∧ post value log) program log

theorem counts_bind {α β : Type} {first : LoginM α} {next : α → LoginM β}
    {middle : α → List Traffic → Prop} {post : β → List Traffic → Prop}
    (hfirst : Counts first middle log)
    (hnext : ∀ value log, Continuous none log → middle value log → Counts (next value) post log) :
    Counts (first >>= next) post log := by
  apply Ensures.bindValue
  apply hfirst.mono
  intro result log hresult
  cases result with
  | ok value => exact hnext value log hresult.1 hresult.2
  | error fault => trivial

theorem counts_lift {α : Type} {result : GoM GoError α} {post : α → List Traffic → Prop}
    (h : Continuous none log) (hpost : ∀ value, result = .ok value → post value log) :
    Counts (Program.lift result) post log :=
  Ensures.lift h fun value hvalue ↦ ⟨h, hpost value hvalue⟩

theorem counts_lift_bind {α β : Type} {result : GoM GoError α} {next : α → LoginM β}
    {post : β → List Traffic → Prop} (h : Continuous none log)
    (hnext : ∀ value, Counts (next value) post log) :
    Counts (Program.lift result >>= next) post log :=
  Ensures.liftBind h fun value _ ↦ hnext value

theorem counts_readPacket (h : Continuous none log) (conn : Layer) (context : String) :
    Counts (Login.readPacket conn context) (fun value log ↦ Next none (value.1 + 1) log) log := by
  apply Ensures.call h
  intro reply log' hlog'
  match reply, hlog' with
  | .ok (seq, payload), hlog' =>
    have hlog' : log' = log ++ [.received seq] := hlog'
    rw [hlog']
    have hnext := h.received seq
    exact ⟨hnext, hnext, seq, lastId_concat _ _, rfl⟩
  | .error fault, hlog' =>
    have hlog' : log' = log := hlog'
    rw [hlog']
    refine ⟨h, ?_⟩
    cases fault <;> trivial

theorem counts_writePacket (h : Continuous none log) {seq : UInt8} (hseq : Next none seq log)
    (conn : Layer) (payload : Bytes) (change : GoError → GoError) :
    Counts (Login.writePacket conn seq payload change) (Next none) log := by
  obtain ⟨last, hlast, rfl⟩ := hseq
  apply Ensures.call h
  intro reply log' hlog'
  match reply, hlog' with
  | .ok (), hlog' =>
    have hlog' : log' = log ++ sentFrames (last + 1) payload := hlog'
    rw [hlog']
    have hnext := continuous_sentFrames h hlast (List.prefix_refl (sentFrames (last + 1) payload))
    exact ⟨hnext, hnext, _, lastId_sentFrames h hlast payload, (lastSeq_add_one _ _).symm⟩
  | .error fault, hlog' =>
    obtain ⟨part, hpart, rfl⟩ : ∃ part, part <+: sentFrames (last + 1) payload ∧
      log' = log ++ part := hlog'
    refine ⟨continuous_sentFrames h hlast hpart, ?_⟩
    cases fault <;> trivial

/-- A handshake and a random number leave the count alone. -/
theorem counts_handshake (h : Continuous none log) {seq : UInt8} (hseq : Next none seq log)
    (serverName : Bytes) :
    Counts (Login.handshake serverName) (fun _ ↦ Next none seq) log := by
  apply Ensures.call h
  rintro reply _ rfl
  refine ⟨h, ?_⟩
  match reply with
  | .ok () => exact ⟨h, hseq⟩
  | .error fault => cases fault <;> trivial

theorem counts_entropy (h : Continuous none log) {seq : UInt8} (hseq : Next none seq log) :
    Counts Login.entropy (fun _ ↦ Next none seq) log := by
  apply Ensures.call h
  rintro reply _ rfl
  exact ⟨h, h, hseq⟩

variable {Key : Type} {crypto : Crypto Key} {password : Bytes}

theorem counts_mysqlCachingSHA2RSA (h : Continuous none log) {seq : UInt8}
    (hseq : Next none seq log) (conn : Layer) (salt : Bytes) :
    Counts (mysqlCachingSHA2RSA crypto conn seq password salt) (Next none) log := by
  apply counts_bind (counts_writePacket h hseq conn _ _)
  intro _ log h _
  apply counts_bind (counts_readPacket h conn _)
  rintro ⟨rseq, payload⟩ log h hseq
  apply counts_lift_bind h
  intro _
  apply counts_lift_bind h
  intro pub
  apply counts_bind (counts_entropy h hseq)
  intro seed log h hseq
  apply counts_lift_bind h
  intro enc
  exact counts_writePacket h hseq conn enc _

theorem counts_mysqlCachingSHA2More (h : Continuous none log) {seq : UInt8}
    (hseq : Next none seq log) (conn : Layer) (payload salt : Bytes) (secure : Bool) :
    Counts (mysqlCachingSHA2More crypto conn seq payload password salt secure) (Next none) log := by
  match payload with
  | [] => exact counts_lift h fun _ hok ↦ absurd hok (fail_ne_ok _ _)
  | [_] => exact counts_lift h fun _ hok ↦ absurd hok (fail_ne_ok _ _)
  | _ :: marker :: _ =>
    rw [mysqlCachingSHA2More]
    split
    · exact counts_lift h fun _ hok ↦ Except.ok.inj hok ▸ hseq
    · split
      · split
        · exact counts_writePacket h hseq conn _ _
        · split
          · exact counts_writePacket h hseq conn _ _
          · exact counts_mysqlCachingSHA2RSA h hseq conn salt
      · exact counts_lift h fun _ hok ↦ absurd hok (fail_ne_ok _ _)

theorem counts_mysqlFinishAuth (conn : Layer) (secure : Bool) (fuel : ℕ) (seq : UInt8)
    (plugin salt : Bytes) (h : Continuous none log) :
    Counts (mysqlFinishAuth crypto conn password secure fuel seq plugin salt) (fun _ _ ↦ True)
      log := by
  induction fuel generalizing seq plugin salt log with
  | zero => exact counts_lift h fun _ _ ↦ trivial
  | succ fuel ih =>
    apply counts_bind (counts_readPacket h conn _)
    rintro ⟨rseq, payload⟩ log h hseq
    match payload with
    | [] => exact counts_lift h fun _ _ ↦ trivial
    | header :: rest =>
      dsimp only
      split
      · exact counts_lift h fun _ _ ↦ trivial
      · split
        · exact counts_lift h fun _ _ ↦ trivial
        · split
          · apply counts_lift_bind h
            rintro ⟨newPlugin, np⟩
            apply counts_lift_bind h
            intro authResp
            apply counts_bind (counts_writePacket h hseq conn authResp _)
            intro next log h _
            exact ih next _ _ h
          · split
            · apply counts_lift_bind h
              intro _
              apply counts_bind (counts_mysqlCachingSHA2More h hseq conn _ salt secure)
              intro next log h _
              exact ih next _ _ h
            · exact counts_lift h fun _ _ ↦ trivial

theorem counts_upgrade (h : Continuous none log) {seq : UInt8} (hseq : Next none (seq + 1) log)
    (conn : Layer) (hs : HandshakeV10) (caps : UInt32) (secure : Bool) (tlsConfig : Option Bytes) :
    Counts (upgrade conn hs caps seq secure tlsConfig) (fun value ↦ Next none value.2.2.1) log := by
  cases tlsConfig with
  | none => exact counts_lift h fun _ hok ↦ Except.ok.inj hok ▸ hseq
  | some serverName =>
    apply counts_lift_bind h
    intro _
    apply counts_bind (counts_writePacket h hseq conn _ _)
    intro next log h hseq
    apply counts_bind (counts_handshake h hseq serverName)
    intro _ log h hseq
    exact counts_lift h fun _ hok ↦ Except.ok.inj hok ▸ hseq

/-- The whole login keeps the count. -/
theorem counts_authenticateUpstreamMySQL (fuel : ℕ) (conn : Layer) (user database : Bytes)
    (secure : Bool) (tlsConfig : Option Bytes) :
    Counts (authenticateUpstreamMySQL crypto fuel conn user password database secure tlsConfig)
      (fun _ _ ↦ True) [] := by
  apply counts_bind (counts_readPacket .nil conn _)
  rintro ⟨seq, payload⟩ log h hseq
  apply counts_lift_bind h
  intro _
  apply counts_lift_bind h
  intro hs
  apply counts_bind (counts_upgrade h hseq conn hs _ secure tlsConfig)
  rintro ⟨conn, caps, seq, secure⟩ log h hseq
  apply counts_lift_bind h
  intro authResp
  apply counts_bind (counts_writePacket h hseq conn _ _)
  intro next log h _
  apply counts_bind (counts_mysqlFinishAuth conn secure fuel next _ _ h)
  intro _ log h _
  exact counts_lift h fun _ _ ↦ trivial

end DbPivot.Mysql
