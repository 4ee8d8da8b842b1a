import DbPivot.System.Run
import DbPivot.System.Token
import Mathlib.Data.Finset.Card
import Mathlib.Data.Finset.Insert

/-!
# The registry of connections

A database keeps its connections in a set under a mutex. A handler registers its connection, copies
bytes until one side is gone, and closes the connection; a switch or a shutdown takes a snapshot of
the set and closes everything in it. So a connection may be closed by several threads at once. Its
`sync.Once` lets one of them run the body and holds the others until the body has finished, and the
body takes the mutex to leave the set.

Every atomic step of every thread is a transition here. The mutex and the right to run a body are
tokens; a thread that has the mutex never waits, and a thread that runs a body waits only for the
mutex.
-/

namespace DbPivot.Proxy.Registry

open DbPivot.System

/-! ## Threads -/

abbrev ConnId := ℕ

/-- The handler of a connection, or one call of `dropAll`. -/
inductive Thread where
  | handler (c : ConnId)
  | pass (k : ℕ)
deriving DecidableEq

/-- `sync.Once`. -/
inductive Once where
  | fresh
  | running (runner : Thread)
  | done
deriving DecidableEq

def Once.runner : Once → Option Thread
  | .running t => some t
  | _ => none

/-- A `Conn`: whether its two sockets are open, whether `Register` has set its database, and its
`sync.Once`. The counters are of the bodies of `Close` that were begun and of the calls of `Close`
that have returned. -/
structure Conn where
  client : Bool
  upstream : Bool
  database : Bool
  closeOnce : Once
  bodies : ℕ
  returns : ℕ

/-- A `Database` as far as its connections go. -/
structure Shared where
  mu : Option Thread
  conns : Finset ConnId
  conn : ConnId → Conn

/-- `ActiveConns`. -/
def Shared.activeConns (s : Shared) : ℕ := s.conns.card

def Shared.modify (s : Shared) (c : ConnId) (change : Conn → Conn) : Shared :=
  { s with conn := Function.update s.conn c (change (s.conn c)) }

/-- The next step of a call of `Close`: `Do`, the two sockets, the test of `c.database`, the three
steps of `deregister`, and the end of the body. -/
inductive Stage where
  | enter
  | client
  | upstream
  | check
  | lock
  | delete
  | unlock
  | finish
deriving DecidableEq

/-- The next step of a thread. A handler binds, locks, inserts and unlocks in `Register`; a pass
locks, takes its snapshot and unlocks in `dropAll`; either then closes one connection after
another. -/
inductive Pc where
  | idle
  | bind
  | lock
  | insert
  | unlock
  | pipe
  | dropLock
  | dropSnapshot
  | dropUnlock (snapshot : List ConnId)
  | closing (c : ConnId) (stage : Stage) (rest : List ConnId)
  | returned
deriving DecidableEq

/-- Go on with the connections that are left to close. -/
def closeNext : List ConnId → Pc
  | [] => .returned
  | c :: rest => .closing c .enter rest

/-- One step of a thread on what is shared. -/
inductive Action (t : Thread) (s : Shared) : Pc → Shared → Pc → Prop where
  | accept {c : ConnId} (ht : t = .handler c) : Action t s .idle s .bind
  | call {k : ℕ} (ht : t = .pass k) : Action t s .idle s .dropLock
  | bind {c : ConnId} (ht : t = .handler c) :
      Action t s .bind (s.modify c fun conn ↦ { conn with database := true }) .lock
  | lock (hfree : s.mu = none) : Action t s .lock { s with mu := some t } .insert
  | insert {c : ConnId} (ht : t = .handler c) :
      Action t s .insert { s with conns := insert c s.conns } .unlock
  | unlock : Action t s .unlock { s with mu := none } .pipe
  | pipe {c : ConnId} (ht : t = .handler c) :
      Action t s .pipe (s.modify c fun conn ↦ { conn with client := false, upstream := false })
        (closeNext [c])
  | dropLock (hfree : s.mu = none) : Action t s .dropLock { s with mu := some t } .dropSnapshot
  | dropSnapshot {snapshot : List ConnId} (hnodup : snapshot.Nodup)
      (hsnapshot : ∀ c, c ∈ snapshot ↔ c ∈ s.conns) :
      Action t s .dropSnapshot s (.dropUnlock snapshot)
  | dropUnlock {snapshot : List ConnId} :
      Action t s (.dropUnlock snapshot) { s with mu := none } (closeNext snapshot)
  | skip {c : ConnId} {rest : List ConnId} (honce : (s.conn c).closeOnce = .done) :
      Action t s (.closing c .enter rest)
        (s.modify c fun conn ↦ { conn with returns := conn.returns + 1 }) (closeNext rest)
  | enter {c : ConnId} {rest : List ConnId} (honce : (s.conn c).closeOnce = .fresh) :
      Action t s (.closing c .enter rest)
        (s.modify c fun conn ↦ { conn with closeOnce := .running t, bodies := conn.bodies + 1 })
        (.closing c .client rest)
  | client {c : ConnId} {rest : List ConnId} :
      Action t s (.closing c .client rest) (s.modify c fun conn ↦ { conn with client := false })
        (.closing c .upstream rest)
  | upstream {c : ConnId} {rest : List ConnId} :
      Action t s (.closing c .upstream rest)
        (s.modify c fun conn ↦ { conn with upstream := false }) (.closing c .check rest)
  | check {c : ConnId} {rest : List ConnId} (hdatabase : (s.conn c).database) :
      Action t s (.closing c .check rest) s (.closing c .lock rest)
  | unbound {c : ConnId} {rest : List ConnId} (hdatabase : (s.conn c).database = false) :
      Action t s (.closing c .check rest) s (.closing c .finish rest)
  | closeLock {c : ConnId} {rest : List ConnId} (hfree : s.mu = none) :
      Action t s (.closing c .lock rest) { s with mu := some t } (.closing c .delete rest)
  | delete {c : ConnId} {rest : List ConnId} :
      Action t s (.closing c .delete rest) { s with conns := s.conns.erase c }
        (.closing c .unlock rest)
  | closeUnlock {c : ConnId} {rest : List ConnId} :
      Action t s (.closing c .unlock rest) { s with mu := none } (.closing c .finish rest)
  | finish {c : ConnId} {rest : List ConnId} :
      Action t s (.closing c .finish rest)
        (s.modify c fun conn ↦ { conn with closeOnce := .done, returns := conn.returns + 1 })
        (closeNext rest)

/-- A database and all its threads. -/
structure State where
  shared : Shared
  pc : Thread → Pc

/-- One step of one thread. -/
inductive Step (s : State) (t : Thread) : State → Prop where
  | act {shared : Shared} {p : Pc} (haction : Action t s.shared (s.pc t) shared p) :
      Step s t ⟨shared, Function.update s.pc t p⟩

/-- No connection and no thread yet. -/
def initial : State where
  shared :=
    { mu := none, conns := ∅, conn := fun _ ↦ ⟨true, true, false, .fresh, 0, 0⟩ }
  pc _ := .idle

/-- The thread has begun and has not returned. -/
def State.Unfinished (s : State) (t : Thread) : Prop := s.pc t ≠ .idle ∧ s.pc t ≠ .returned

/-! ## Positions -/

namespace Pc

/-- The thread has the mutex. -/
def HoldsMutex : Pc → Prop
  | .insert => True
  | .unlock => True
  | .dropSnapshot => True
  | .dropUnlock _ => True
  | .closing _ .delete _ => True
  | .closing _ .unlock _ => True
  | _ => False

/-- The thread runs the body of `Close` for the connection. -/
def InBody (c : ConnId) : Pc → Prop
  | .closing _ .enter _ => False
  | .closing d _ _ => d = c
  | _ => False

/-- The body has taken the connection out of the set. -/
def Deleted (c : ConnId) : Pc → Prop
  | .closing d .unlock _ => d = c
  | .closing d .finish _ => d = c
  | _ => False

/-- A handler has put its connection into the set. -/
def Registered : Pc → Prop
  | .idle => False
  | .bind => False
  | .lock => False
  | .insert => False
  | _ => True

/-- `Register` has set the database of the connection. -/
def Bound : Pc → Prop
  | .idle => False
  | .bind => False
  | _ => True

/-- The position is one of the thread's own program: a handler closes its connection and nothing
else, and a pass registers nothing. -/
def Own : Thread → Pc → Prop
  | .handler c, .closing d _ rest => d = c ∧ rest = []
  | .handler _, .dropLock => False
  | .handler _, .dropSnapshot => False
  | .handler _, .dropUnlock _ => False
  | .pass _, .bind => False
  | .pass _, .lock => False
  | .pass _, .insert => False
  | .pass _, .unlock => False
  | .pass _, .pipe => False
  | _, _ => True

/-- The body has closed the client's socket. -/
def PastClient (c : ConnId) : Pc → Prop
  | .closing _ .enter _ => False
  | .closing _ .client _ => False
  | .closing d _ _ => d = c
  | _ => False

/-- The body has closed both sockets. -/
def PastUpstream (c : ConnId) : Pc → Prop
  | .closing _ .upstream _ => False
  | p => p.PastClient c

/-- The connections a thread is closing or going to close. -/
def pending : Pc → List ConnId
  | .dropUnlock snapshot => snapshot
  | .closing c _ rest => c :: rest
  | _ => []

theorem not_holdsMutex_closeNext (rest : List ConnId) : ¬ (closeNext rest).HoldsMutex := by
  cases rest <;> exact id

theorem not_inBody_closeNext (c : ConnId) (rest : List ConnId) : ¬ (closeNext rest).InBody c := by
  cases rest <;> exact id

theorem not_deleted_closeNext (c : ConnId) (rest : List ConnId) : ¬ (closeNext rest).Deleted c := by
  cases rest <;> exact id

theorem registered_closeNext (rest : List ConnId) : (closeNext rest).Registered := by
  cases rest <;> trivial

theorem mem_of_mem_pending_closeNext {c : ConnId} {rest : List ConnId}
    (h : c ∈ (closeNext rest).pending) : c ∈ rest := by
  cases rest with
  | nil => exact h
  | cons d rest => exact h

theorem not_pastClient_closeNext (c : ConnId) (rest : List ConnId) :
    ¬ (closeNext rest).PastClient c := by
  cases rest <;> exact id

theorem not_pastUpstream_closeNext (c : ConnId) (rest : List ConnId) :
    ¬ (closeNext rest).PastUpstream c := by
  cases rest <;> exact id

theorem Registered.bound {p : Pc} (h : p.Registered) : p.Bound := by
  cases p with
  | idle => exact h
  | bind => exact h
  | _ => trivial

theorem Deleted.inBody {c : ConnId} {p : Pc} (h : p.Deleted c) : p.InBody c := by
  match p, h with
  | .closing _ .unlock _, h => exact h
  | .closing _ .finish _, h => exact h

theorem Deleted.pastUpstream {c : ConnId} {p : Pc} (h : p.Deleted c) : p.PastUpstream c := by
  match p, h with
  | .closing _ .unlock _, h => exact h
  | .closing _ .finish _, h => exact h

theorem PastUpstream.pastClient {c : ConnId} {p : Pc} (h : p.PastUpstream c) : p.PastClient c := by
  match p, h with
  | .closing _ .check _, h => exact h
  | .closing _ .lock _, h => exact h
  | .closing _ .delete _, h => exact h
  | .closing _ .unlock _, h => exact h
  | .closing _ .finish _, h => exact h

theorem mem_pending_of_inBody {c : ConnId} {p : Pc} (h : p.InBody c) : c ∈ p.pending := by
  match p, h with
  | .closing d stage rest, h =>
    have hc : d = c := by
      cases stage with
      | enter => exact absurd h id
      | _ => exact h
    exact hc ▸ List.mem_cons_self

end Pc

/-! ## What a step does -/

section Views

variable {t : Thread} {s s' : Shared} {p p' : Pc}

theorem Shared.conn_modify (s : Shared) (c : ConnId) (change : Conn → Conn) :
    (s.modify c change).conn c = change (s.conn c) := Function.update_self ..

theorem Shared.conn_modify_of_ne (s : Shared) {c d : ConnId} (hne : d ≠ c)
    (change : Conn → Conn) : (s.modify c change).conn d = s.conn d := Function.update_of_ne hne ..

/-- A field that a change leaves alone is the same for all connections. -/
theorem Shared.modify_field {α : Type} (field : Conn → α) {change : Conn → Conn}
    (hchange : ∀ conn, field (change conn) = field conn) (s : Shared) (c d : ConnId) :
    field ((s.modify c change).conn d) = field (s.conn d) := by
  by_cases hsame : d = c
  · rw [hsame, s.conn_modify, hchange]
  · rw [s.conn_modify_of_ne hsame]

/-- What a change keeps of a connection it keeps for all of them. -/
theorem Shared.modify_holds (P : Conn → Prop) {change : Conn → Conn}
    (hchange : ∀ conn, P conn → P (change conn)) {s : Shared} {c d : ConnId} (h : P (s.conn d)) :
    P ((s.modify c change).conn d) := by
  by_cases hsame : d = c
  · subst hsame
    rw [s.conn_modify]
    exact hchange _ h
  · rwa [s.conn_modify_of_ne hsame]

theorem Action.mutex (h : Action t s p s' p') :
    Exchange Pc.HoldsMutex t s.mu s'.mu p p' := by
  cases h with
  | lock hfree => exact .take hfree rfl trivial
  | dropLock hfree => exact .take hfree rfl trivial
  | closeLock hfree => exact .take hfree rfl trivial
  | unlock => exact .give trivial rfl id
  | closeUnlock => exact .give trivial rfl id
  | dropUnlock => exact .give trivial rfl (Pc.not_holdsMutex_closeNext _)
  | skip _ => exact .keep rfl (iff_of_false (Pc.not_holdsMutex_closeNext _) id)
  | finish => exact .keep rfl (iff_of_false (Pc.not_holdsMutex_closeNext _) id)
  | _ => exact .keep rfl Iff.rfl

/-- What a step does to the `sync.Once` of a connection. -/
inductive OnceStep (t : Thread) (c : ConnId) (conn conn' : Conn) (p p' : Pc) : Prop where
  | keep (honce : conn'.closeOnce = conn.closeOnce) (hbodies : conn'.bodies = conn.bodies)
      (hbody : p'.InBody c ↔ p.InBody c)
  | enter (hfresh : conn.closeOnce = .fresh) (honce : conn'.closeOnce = .running t)
      (hbodies : conn'.bodies = conn.bodies + 1) (hpending : c ∈ p.pending) (hbody : p'.InBody c)
  | finish (hbody : p.InBody c) (hdeleted : p.Deleted c) (honce : conn'.closeOnce = .done)
      (hbodies : conn'.bodies = conn.bodies) (hafter : ¬ p'.InBody c)

/-- A step that changes nothing about the `sync.Once`. -/
theorem OnceStep.of_eq {c : ConnId} {conn conn' : Conn} (hconn : conn' = conn)
    (hbody : p'.InBody c ↔ p.InBody c) : OnceStep t c conn conn' p p' :=
  .keep (hconn ▸ rfl) (hconn ▸ rfl) hbody

theorem Action.once (h : Action t s p s' p') (c : ConnId) :
    OnceStep t c (s.conn c) (s'.conn c) p p' := by
  have hkeep {d : ConnId} {change : Conn → Conn} {q q' : Pc}
      (honce : ∀ conn, (change conn).closeOnce = conn.closeOnce)
      (hbodies : ∀ conn, (change conn).bodies = conn.bodies) (hbody : q'.InBody c ↔ q.InBody c) :
      OnceStep t c (s.conn c) ((s.modify d change).conn c) q q' :=
    .keep (s.modify_field Conn.closeOnce honce d c) (s.modify_field Conn.bodies hbodies d c) hbody
  cases h with
  | bind _ => exact hkeep (fun _ ↦ rfl) (fun _ ↦ rfl) Iff.rfl
  | pipe _ => exact hkeep (fun _ ↦ rfl) (fun _ ↦ rfl) Iff.rfl
  | client => exact hkeep (fun _ ↦ rfl) (fun _ ↦ rfl) Iff.rfl
  | upstream => exact hkeep (fun _ ↦ rfl) (fun _ ↦ rfl) Iff.rfl
  | skip _ =>
    exact hkeep (fun _ ↦ rfl) (fun _ ↦ rfl) (iff_of_false (Pc.not_inBody_closeNext _ _) id)
  | dropUnlock => exact .of_eq rfl (iff_of_false (Pc.not_inBody_closeNext _ _) id)
  | @enter d rest honce =>
    by_cases hsame : c = d
    · subst hsame
      rw [s.conn_modify]
      exact .enter honce rfl rfl List.mem_cons_self rfl
    · rw [s.conn_modify_of_ne hsame]
      exact .of_eq rfl (iff_of_false (fun heq ↦ hsame (Eq.symm heq)) id)
  | @finish d rest =>
    by_cases hsame : c = d
    · subst hsame
      rw [s.conn_modify]
      exact .finish rfl rfl rfl rfl (Pc.not_inBody_closeNext _ _)
    · rw [s.conn_modify_of_ne hsame]
      exact .of_eq rfl
        (iff_of_false (Pc.not_inBody_closeNext _ _) fun heq ↦ hsame (Eq.symm heq))
  | _ => exact .of_eq rfl Iff.rfl

theorem OnceStep.exchange {c : ConnId} {conn conn' : Conn} (h : OnceStep t c conn conn' p p') :
    Exchange (Pc.InBody c) t conn.closeOnce.runner conn'.closeOnce.runner p p' := by
  cases h with
  | keep honce _ hbody => exact .keep (congrArg Once.runner honce) hbody
  | enter hfresh honce _ _ hbody => exact .take (by rw [hfresh]; rfl) (by rw [honce]; rfl) hbody
  | finish hbody _ honce _ hafter => exact .give hbody (by rw [honce]; rfl) hafter

/-- A handler does not go back before its registration, and registers with its own insertion. -/
theorem Action.registered (h : Action t s p s' p') :
    (p.Registered → p'.Registered) ∧
      ∀ c, t = .handler c → p'.Registered → p.Registered ∨ p = .insert ∧ p' = .unlock := by
  cases h with
  | call ht =>
    refine ⟨False.elim, fun c hc ↦ ?_⟩
    cases ht.symm.trans hc
  | insert _ => exact ⟨False.elim, fun _ _ _ ↦ .inr ⟨rfl, rfl⟩⟩
  | skip _ => exact ⟨fun _ ↦ Pc.registered_closeNext _, fun _ _ _ ↦ .inl trivial⟩
  | finish => exact ⟨fun _ ↦ Pc.registered_closeNext _, fun _ _ _ ↦ .inl trivial⟩
  | dropUnlock => exact ⟨fun _ ↦ Pc.registered_closeNext _, fun _ _ _ ↦ .inl trivial⟩
  | accept _ => exact ⟨False.elim, fun _ _ hfalse ↦ hfalse.elim⟩
  | bind _ => exact ⟨False.elim, fun _ _ hfalse ↦ hfalse.elim⟩
  | lock _ => exact ⟨False.elim, fun _ _ hfalse ↦ hfalse.elim⟩
  | _ => exact ⟨fun _ ↦ trivial, fun _ _ _ ↦ .inl trivial⟩

/-- A thread goes on to close what it was closing, what it found in the set, or its own
connection. -/
theorem Action.pending (h : Action t s p s' p') {c : ConnId} (hc : c ∈ p'.pending) :
    c ∈ p.pending ∨ c ∈ s.conns ∨ t = .handler c ∧ p.Registered := by
  cases h with
  | pipe ht => exact .inr (.inr ⟨List.mem_singleton.mp hc ▸ ht, trivial⟩)
  | dropSnapshot _ hsnapshot => exact .inr (.inl ((hsnapshot c).mp hc))
  | dropUnlock => exact .inl (Pc.mem_of_mem_pending_closeNext hc)
  | skip _ => exact .inl (List.mem_cons_of_mem _ (Pc.mem_of_mem_pending_closeNext hc))
  | finish => exact .inl (List.mem_cons_of_mem _ (Pc.mem_of_mem_pending_closeNext hc))
  | enter _ => exact .inl hc
  | client => exact .inl hc
  | upstream => exact .inl hc
  | check _ => exact .inl hc
  | unbound _ => exact .inl hc
  | closeLock _ => exact .inl hc
  | delete => exact .inl hc
  | closeUnlock => exact .inl hc
  | _ => exact absurd hc List.not_mem_nil

/-- A connection comes into the set by the insertion of its handler. -/
theorem Action.mem_conns (h : Action t s p s' p') {c : ConnId} (hc : c ∈ s'.conns) :
    c ∈ s.conns ∨ t = .handler c ∧ p = .insert ∧ p' = .unlock := by
  cases h with
  | @insert d ht =>
    rcases Finset.mem_insert.mp hc with rfl | hold
    · exact .inr ⟨ht, rfl, rfl⟩
    · exact .inl hold
  | delete => exact .inl (Finset.mem_of_mem_erase hc)
  | _ => exact .inl hc

/-- A body is past its deletion when it was so before, when it has just deleted the connection, or
when the connection is in no database. -/
theorem Action.deleted (h : Action t s p s' p') {c : ConnId} (hc : p'.Deleted c) :
    p.Deleted c ∨ c ∉ s'.conns ∨ (s.conn c).database = false ∧ c ∈ p.pending := by
  cases h with
  | delete =>
    have hd := hc
    exact .inr (.inl (by subst hd; exact Finset.notMem_erase _ _))
  | unbound hdatabase =>
    have hd := hc
    exact .inr (.inr (by subst hd; exact ⟨hdatabase, List.mem_cons_self⟩))
  | closeUnlock => exact .inl hc
  | skip _ => exact absurd hc (Pc.not_deleted_closeNext _ _)
  | finish => exact absurd hc (Pc.not_deleted_closeNext _ _)
  | dropUnlock => exact absurd hc (Pc.not_deleted_closeNext _ _)
  | pipe _ => exact absurd hc (Pc.not_deleted_closeNext _ _)
  | _ => exact hc.elim

/-- A count of returned calls grows only once the body has finished. -/
theorem Action.returns (h : Action t s p s' p') (c : ConnId) :
    (s'.conn c).returns = (s.conn c).returns ∨ (s'.conn c).closeOnce = .done := by
  have hkeep {d : ConnId} {change : Conn → Conn}
      (hchange : ∀ conn, (change conn).returns = conn.returns) :
      ((s.modify d change).conn c).returns = (s.conn c).returns :=
    s.modify_field Conn.returns hchange d c
  cases h with
  | bind _ => exact .inl (hkeep fun _ ↦ rfl)
  | pipe _ => exact .inl (hkeep fun _ ↦ rfl)
  | enter _ => exact .inl (hkeep fun _ ↦ rfl)
  | client => exact .inl (hkeep fun _ ↦ rfl)
  | upstream => exact .inl (hkeep fun _ ↦ rfl)
  | @skip d rest honce =>
    by_cases hsame : c = d
    · subst hsame
      rw [s.conn_modify]
      exact .inr honce
    · rw [s.conn_modify_of_ne hsame]
      exact .inl rfl
  | @finish d rest =>
    by_cases hsame : c = d
    · subst hsame
      rw [s.conn_modify]
      exact .inr rfl
    · rw [s.conn_modify_of_ne hsame]
      exact .inl rfl
  | _ => exact .inl rfl

/-- A handler that is past the binding of its connection has bound it. -/
theorem Action.bound (h : Action t s p s' p') (c : ConnId) :
    ((s.conn c).database → (s'.conn c).database) ∧
      (t = .handler c → p'.Bound → p.Bound ∨ (s'.conn c).database) := by
  have hkeep {d : ConnId} {change : Conn → Conn}
      (hchange : ∀ conn, (change conn).database = conn.database) :
      (s.conn c).database → ((s.modify d change).conn c).database :=
    fun hdatabase ↦ (s.modify_field Conn.database hchange d c).trans hdatabase
  cases h with
  | accept _ => exact ⟨id, fun _ hfalse ↦ hfalse.elim⟩
  | call ht => exact ⟨id, fun hc ↦ Thread.noConfusion (ht.symm.trans hc)⟩
  | @bind d ht =>
    constructor
    · intro hdatabase
      by_cases hsame : c = d
      · rw [hsame, s.conn_modify]
      · rwa [s.conn_modify_of_ne hsame]
    · intro hc _
      rw [Thread.handler.inj (hc.symm.trans ht), s.conn_modify]
      exact .inr rfl
  | pipe _ => exact ⟨hkeep fun _ ↦ rfl, fun _ _ ↦ .inl trivial⟩
  | skip _ => exact ⟨hkeep fun _ ↦ rfl, fun _ _ ↦ .inl trivial⟩
  | enter _ => exact ⟨hkeep fun _ ↦ rfl, fun _ _ ↦ .inl trivial⟩
  | client => exact ⟨hkeep fun _ ↦ rfl, fun _ _ ↦ .inl trivial⟩
  | upstream => exact ⟨hkeep fun _ ↦ rfl, fun _ _ ↦ .inl trivial⟩
  | finish => exact ⟨hkeep fun _ ↦ rfl, fun _ _ ↦ .inl trivial⟩
  | _ => exact ⟨id, fun _ _ ↦ .inl trivial⟩

theorem Pc.own_closeNext {d : ConnId} {stage : Stage} {rest : List ConnId}
    (hown : (Pc.closing d stage rest).Own t) : (closeNext rest).Own t := by
  cases t with
  | handler c =>
    rw [hown.2]
    trivial
  | pass k => cases rest <;> trivial

theorem Action.own (h : Action t s p s' p') (hown : p.Own t) : p'.Own t := by
  cases h with
  | accept ht =>
    subst ht
    trivial
  | call ht =>
    subst ht
    trivial
  | bind ht =>
    subst ht
    trivial
  | pipe ht =>
    subst ht
    exact ⟨rfl, rfl⟩
  | skip _ => exact Pc.own_closeNext hown
  | finish => exact Pc.own_closeNext hown
  | @dropUnlock snapshot =>
    cases t with
    | handler c => exact hown.elim
    | pass k => cases snapshot <;> trivial
  | _ =>
    cases t with
    | handler c => exact hown
    | pass k => exact hown

/-- A handler returns when its connection is closed. -/
theorem Action.returned {c : ConnId} (h : Action (.handler c) s p s' p') (hown : p.Own (.handler c))
    (hreturned : p' = .returned) : (s'.conn c).closeOnce = .done := by
  cases h with
  | @skip d rest honce =>
    rw [hown.1, s.conn_modify]
    exact hown.1 ▸ honce
  | @finish d rest => rw [hown.1, s.conn_modify]
  | dropUnlock => exact hown.elim
  | _ => cases hreturned

/-- A closed socket stays closed, and a body that is past the client's socket has closed it. -/
theorem Action.clientClosed (h : Action t s p s' p') (c : ConnId) :
    ((s.conn c).client = false → (s'.conn c).client = false) ∧
      (p'.PastClient c → p.PastClient c ∨ (s'.conn c).client = false) := by
  have hkeep {d : ConnId} {change : Conn → Conn}
      (hchange : ∀ conn, conn.client = false → (change conn).client = false)
      (hclosed : (s.conn c).client = false) : ((s.modify d change).conn c).client = false :=
    Shared.modify_holds (fun conn ↦ conn.client = false) hchange hclosed
  cases h with
  | bind _ => exact ⟨hkeep fun _ ↦ id, False.elim⟩
  | pipe _ => exact ⟨hkeep fun _ _ ↦ rfl, False.elim⟩
  | skip _ => exact ⟨hkeep fun _ ↦ id, fun h ↦ absurd h (Pc.not_pastClient_closeNext _ _)⟩
  | finish => exact ⟨hkeep fun _ ↦ id, fun h ↦ absurd h (Pc.not_pastClient_closeNext _ _)⟩
  | dropUnlock => exact ⟨id, fun h ↦ absurd h (Pc.not_pastClient_closeNext _ _)⟩
  | enter _ => exact ⟨hkeep fun _ ↦ id, False.elim⟩
  | @client d rest =>
    refine ⟨hkeep fun _ _ ↦ rfl, fun hpast ↦ .inr ?_⟩
    have hd : d = c := hpast
    rw [hd, s.conn_modify]
  | upstream => exact ⟨hkeep fun _ ↦ id, .inl⟩
  | _ => exact ⟨id, .inl⟩

theorem Action.upstreamClosed (h : Action t s p s' p') (c : ConnId) :
    ((s.conn c).upstream = false → (s'.conn c).upstream = false) ∧
      (p'.PastUpstream c → p.PastUpstream c ∨ (s'.conn c).upstream = false) := by
  have hkeep {d : ConnId} {change : Conn → Conn}
      (hchange : ∀ conn, conn.upstream = false → (change conn).upstream = false)
      (hclosed : (s.conn c).upstream = false) : ((s.modify d change).conn c).upstream = false :=
    Shared.modify_holds (fun conn ↦ conn.upstream = false) hchange hclosed
  cases h with
  | bind _ => exact ⟨hkeep fun _ ↦ id, False.elim⟩
  | pipe _ => exact ⟨hkeep fun _ _ ↦ rfl, False.elim⟩
  | skip _ => exact ⟨hkeep fun _ ↦ id, fun h ↦ absurd h (Pc.not_pastUpstream_closeNext _ _)⟩
  | finish => exact ⟨hkeep fun _ ↦ id, fun h ↦ absurd h (Pc.not_pastUpstream_closeNext _ _)⟩
  | dropUnlock => exact ⟨id, fun h ↦ absurd h (Pc.not_pastUpstream_closeNext _ _)⟩
  | enter _ => exact ⟨hkeep fun _ ↦ id, False.elim⟩
  | client => exact ⟨hkeep fun _ ↦ id, False.elim⟩
  | @upstream d rest =>
    refine ⟨hkeep fun _ _ ↦ rfl, fun hpast ↦ .inr ?_⟩
    have hd : d = c := hpast
    rw [hd, s.conn_modify]
  | _ => exact ⟨id, .inl⟩

end Views

/-! ## What holds in every state -/

/-- The invariant of the registry. -/
structure Inv (s : State) : Prop where
  mutex : Owned Pc.HoldsMutex s.shared.mu s.pc
  body : ∀ c, Owned (Pc.InBody c) (s.shared.conn c).closeOnce.runner s.pc
  bodies : ∀ c, (s.shared.conn c).bodies = if (s.shared.conn c).closeOnce = .fresh then 0 else 1
  returns : ∀ c, 0 < (s.shared.conn c).returns → (s.shared.conn c).closeOnce = .done
  bound : ∀ c, (s.pc (.handler c)).Bound → (s.shared.conn c).database
  pending : ∀ t, ∀ c ∈ (s.pc t).pending, (s.pc (.handler c)).Registered
  started : ∀ c, (s.shared.conn c).closeOnce ≠ .fresh → (s.pc (.handler c)).Registered
  registered : ∀ c ∈ s.shared.conns, (s.pc (.handler c)).Registered
  deleted : ∀ t c, (s.pc t).Deleted c → c ∉ s.shared.conns
  done : ∀ c, (s.shared.conn c).closeOnce = .done → c ∉ s.shared.conns
  own : ∀ t, (s.pc t).Own t
  returned : ∀ c, s.pc (.handler c) = .returned → (s.shared.conn c).closeOnce = .done
  pastClient : ∀ t c, (s.pc t).PastClient c → (s.shared.conn c).client = false
  pastUpstream : ∀ t c, (s.pc t).PastUpstream c → (s.shared.conn c).upstream = false
  shut : ∀ c, (s.shared.conn c).closeOnce = .done →
    (s.shared.conn c).client = false ∧ (s.shared.conn c).upstream = false

theorem inv_initial : Inv initial where
  mutex _ := iff_of_false (fun h : none = some _ ↦ nomatch h) id
  body _ _ := iff_of_false (fun h : none = some _ ↦ nomatch h) id
  bodies _ := rfl
  returns _ h := absurd h (Nat.lt_irrefl 0)
  bound _ h := h.elim
  pending _ _ h := absurd h List.not_mem_nil
  started _ h := absurd rfl h
  registered _ h := absurd h (Finset.notMem_empty _)
  deleted _ _ h := h.elim
  done _ h := nomatch h
  own t := by cases t <;> trivial
  returned _ h := nomatch h
  pastClient _ _ h := h.elim
  pastUpstream _ _ h := h.elim
  shut _ h := nomatch h

section Preservation

variable {s : State} {t : Thread} {shared : Shared} {p : Pc}

/-- Nobody closes a connection before it is in the set. -/
theorem Inv.not_pending_of_insert (hs : Inv s) {c : ConnId} (hinsert : s.pc (.handler c) = .insert)
    (u : Thread) : c ∉ (s.pc u).pending := by
  intro hpending
  have hregistered := hs.pending u c hpending
  rw [hinsert] at hregistered
  exact hregistered

variable (hs : Inv s) (haction : Action t s.shared (s.pc t) shared p)

include haction

theorem registered_update {c : ConnId} (h : (s.pc (.handler c)).Registered) :
    (Function.update s.pc t p (.handler c)).Registered := by
  by_cases hsame : Thread.handler c = t
  · subst hsame
    rw [Function.update_self]
    exact haction.registered.1 h
  · rwa [Function.update_of_ne hsame]

theorem done_action {c : ConnId} (h : (s.shared.conn c).closeOnce = .done) :
    (shared.conn c).closeOnce = .done := by
  cases haction.once c with
  | keep honce => exact honce.trans h
  | enter hfresh => cases hfresh.symm.trans h
  | finish _ _ honce => exact honce

include hs

theorem bodies_action (c : ConnId) :
    (shared.conn c).bodies = if (shared.conn c).closeOnce = .fresh then 0 else 1 := by
  have hbodies := hs.bodies c
  cases haction.once c with
  | keep honce hkeep => rw [hkeep, honce, hbodies]
  | enter hfresh honce hnew =>
    rw [if_pos hfresh] at hbodies
    rw [hnew, hbodies, honce, if_neg Once.noConfusion]
  | finish hbody _ honce hkeep =>
    have hrunning : (s.shared.conn c).closeOnce ≠ .fresh := by
      intro hfresh
      have hrunner := (hs.body c t).mpr hbody
      rw [hfresh] at hrunner
      cases hrunner
    rw [if_neg hrunning] at hbodies
    rw [hkeep, hbodies, honce, if_neg Once.noConfusion]

theorem returns_action (c : ConnId) (h : 0 < (shared.conn c).returns) :
    (shared.conn c).closeOnce = .done := by
  rcases haction.returns c with heq | hdone
  · rw [heq] at h
    exact done_action haction (hs.returns c h)
  · exact hdone

theorem bound_action (c : ConnId) (h : (Function.update s.pc t p (.handler c)).Bound) :
    (shared.conn c).database := by
  by_cases hsame : Thread.handler c = t
  · rw [hsame, Function.update_self] at h
    rcases (haction.bound c).2 hsame.symm h with hbefore | hnow
    · exact (haction.bound c).1 (hs.bound c (hsame ▸ hbefore))
    · exact hnow
  · rw [Function.update_of_ne hsame] at h
    exact (haction.bound c).1 (hs.bound c h)

theorem pending_action (u : Thread) (c : ConnId) (h : c ∈ (Function.update s.pc t p u).pending) :
    (Function.update s.pc t p (.handler c)).Registered := by
  apply registered_update haction
  by_cases hsame : u = t
  · rw [hsame, Function.update_self] at h
    rcases haction.pending h with hbefore | hmem | ⟨rfl, hregistered⟩
    · exact hs.pending t c hbefore
    · exact hs.registered c hmem
    · exact hregistered
  · rw [Function.update_of_ne hsame] at h
    exact hs.pending u c h

theorem started_action (c : ConnId) (h : (shared.conn c).closeOnce ≠ .fresh) :
    (Function.update s.pc t p (.handler c)).Registered := by
  apply registered_update haction
  cases haction.once c with
  | keep honce => exact hs.started c (honce ▸ h)
  | enter _ _ _ hpending => exact hs.pending t c hpending
  | finish hbody => exact hs.pending t c (Pc.mem_pending_of_inBody hbody)

theorem registered_action (c : ConnId) (h : c ∈ shared.conns) :
    (Function.update s.pc t p (.handler c)).Registered := by
  rcases haction.mem_conns h with hmem | ⟨rfl, -, rfl⟩
  · exact registered_update haction (hs.registered c hmem)
  · rw [Function.update_self]
    trivial

theorem deleted_action (u : Thread) (c : ConnId) (h : (Function.update s.pc t p u).Deleted c) :
    c ∉ shared.conns := by
  intro hmem
  rcases haction.mem_conns hmem with hbefore | ⟨rfl, hinsert, rfl⟩
  · by_cases hsame : u = t
    · subst hsame
      rw [Function.update_self] at h
      rcases haction.deleted h with hold | hgone | ⟨hunbound, hpending⟩
      · exact hs.deleted u c hold hbefore
      · exact hgone hmem
      · have hbound := hs.bound c (hs.pending u c hpending).bound
        rw [hunbound] at hbound
        cases hbound
    · rw [Function.update_of_ne hsame] at h
      exact hs.deleted u c h hbefore
  · by_cases hsame : u = .handler c
    · rw [hsame, Function.update_self] at h
      exact h
    · rw [Function.update_of_ne hsame] at h
      exact hs.not_pending_of_insert hinsert u (Pc.mem_pending_of_inBody h.inBody)

theorem notMem_action (c : ConnId) (h : (shared.conn c).closeOnce = .done) : c ∉ shared.conns := by
  intro hmem
  rcases haction.mem_conns hmem with hbefore | ⟨rfl, hinsert, -⟩
  · cases haction.once c with
    | keep honce => exact hs.done c (honce.symm.trans h) hbefore
    | enter _ honce => cases honce.symm.trans h
    | finish _ hdeleted => exact hs.deleted t c hdeleted hbefore
  · have hnone := hs.not_pending_of_insert hinsert (.handler c)
    cases haction.once c with
    | keep honce =>
      have hregistered := hs.started c (by rw [← honce, h]; exact Once.noConfusion)
      rw [hinsert] at hregistered
      exact hregistered
    | enter _ _ _ hpending => exact hnone hpending
    | finish hbody => exact hnone (Pc.mem_pending_of_inBody hbody)

theorem own_action (u : Thread) : (Function.update s.pc t p u).Own u := by
  by_cases hsame : u = t
  · rw [hsame, Function.update_self]
    exact haction.own (hs.own t)
  · rw [Function.update_of_ne hsame]
    exact hs.own u

theorem returned_action (c : ConnId) (h : Function.update s.pc t p (.handler c) = .returned) :
    (shared.conn c).closeOnce = .done := by
  by_cases hsame : Thread.handler c = t
  · subst hsame
    rw [Function.update_self] at h
    exact haction.returned (hs.own _) h
  · rw [Function.update_of_ne hsame] at h
    exact done_action haction (hs.returned c h)

theorem pastClient_action (u : Thread) (c : ConnId)
    (h : (Function.update s.pc t p u).PastClient c) : (shared.conn c).client = false := by
  by_cases hsame : u = t
  · rw [hsame, Function.update_self] at h
    rcases (haction.clientClosed c).2 h with hbefore | hnow
    · exact (haction.clientClosed c).1 (hs.pastClient t c hbefore)
    · exact hnow
  · rw [Function.update_of_ne hsame] at h
    exact (haction.clientClosed c).1 (hs.pastClient u c h)

theorem pastUpstream_action (u : Thread) (c : ConnId)
    (h : (Function.update s.pc t p u).PastUpstream c) : (shared.conn c).upstream = false := by
  by_cases hsame : u = t
  · rw [hsame, Function.update_self] at h
    rcases (haction.upstreamClosed c).2 h with hbefore | hnow
    · exact (haction.upstreamClosed c).1 (hs.pastUpstream t c hbefore)
    · exact hnow
  · rw [Function.update_of_ne hsame] at h
    exact (haction.upstreamClosed c).1 (hs.pastUpstream u c h)

theorem shut_action (c : ConnId) (h : (shared.conn c).closeOnce = .done) :
    (shared.conn c).client = false ∧ (shared.conn c).upstream = false := by
  have hbefore : (s.shared.conn c).client = false ∧ (s.shared.conn c).upstream = false := by
    cases haction.once c with
    | keep honce => exact hs.shut c (honce.symm.trans h)
    | enter _ honce => cases honce.symm.trans h
    | finish _ hdeleted =>
      exact ⟨hs.pastClient t c hdeleted.pastUpstream.pastClient,
        hs.pastUpstream t c hdeleted.pastUpstream⟩
  exact ⟨(haction.clientClosed c).1 hbefore.1, (haction.upstreamClosed c).1 hbefore.2⟩

end Preservation

theorem inv_step {s s' : State} {t : Thread} (hs : Inv s) (hstep : Step s t s') : Inv s' := by
  cases hstep with
  | act haction =>
    exact
      { mutex := hs.mutex.exchange haction.mutex
        body := fun c ↦ (hs.body c).exchange (haction.once c).exchange
        bodies := bodies_action hs haction
        returns := returns_action hs haction
        bound := bound_action hs haction
        pending := pending_action hs haction
        started := started_action hs haction
        registered := registered_action hs haction
        deleted := deleted_action hs haction
        done := notMem_action hs haction
        own := own_action hs haction
        returned := returned_action hs haction
        pastClient := pastClient_action hs haction
        pastUpstream := pastUpstream_action hs haction
        shut := shut_action hs haction }

theorem inv_run {s : State} (hrun : Run Step initial s) : Inv s :=
  Run.invariant inv_initial (fun _ _ _ hs hstep ↦ inv_step hs hstep) hrun

/-! ## Nobody waits forever -/

/-- The thread can take a step. -/
def State.Enabled (s : State) (t : Thread) : Prop := ∃ s', Step s t s'

/-- Waiting for a body comes before waiting for the mutex. -/
def Pc.rank : Pc → ℕ
  | .lock => 1
  | .dropLock => 1
  | .closing _ .enter _ => 2
  | .closing _ .lock _ => 1
  | _ => 0

theorem Pc.HoldsMutex.rank_eq {p : Pc} (h : p.HoldsMutex) : p.rank = 0 := by
  match p, h with
  | .insert, _ => rfl
  | .unlock, _ => rfl
  | .dropSnapshot, _ => rfl
  | .dropUnlock _, _ => rfl
  | .closing _ .delete _, _ => rfl
  | .closing _ .unlock _, _ => rfl

theorem Pc.InBody.rank_le {c : ConnId} {p : Pc} (h : p.InBody c) : p.rank ≤ 1 := by
  match p, h with
  | .closing _ stage _, h =>
    cases stage with
    | enter => exact absurd h id
    | _ => simp only [Pc.rank, Nat.le_refl, Nat.zero_le]

theorem Pc.HoldsMutex.unfinished {s : State} {t : Thread} (h : (s.pc t).HoldsMutex) :
    s.Unfinished t := by
  constructor <;> intro heq <;> rw [heq] at h <;> exact h

theorem Pc.InBody.unfinished {s : State} {t : Thread} {c : ConnId} (h : (s.pc t).InBody c) :
    s.Unfinished t := by
  constructor <;> intro heq <;> rw [heq] at h <;> exact h

theorem Step.enabled {s : State} {t : Thread} {shared : Shared} {p p' : Pc} (hp : s.pc t = p)
    (haction : Action t s.shared p shared p') : s.Enabled t :=
  ⟨_, .act (hp ▸ haction)⟩

/-- A thread that needs the mutex gets it or waits for a thread that has it. -/
theorem lock_or_wait {s : State} (hs : Inv s) {t : Thread} {p p' : Pc} (hp : s.pc t = p)
    (hrank : p.rank = 1)
    (haction : s.shared.mu = none → Action t s.shared p { s.shared with mu := some t } p') :
    s.Enabled t ∨ ∃ u, s.Unfinished u ∧ (s.pc u).rank < (s.pc t).rank := by
  cases hmu : s.shared.mu with
  | none => exact .inl (Step.enabled hp (haction hmu))
  | some u =>
    have hholds := (hs.mutex u).mp hmu
    refine .inr ⟨u, hholds.unfinished, ?_⟩
    rw [hholds.rank_eq, hp, hrank]
    exact Nat.zero_lt_one

theorem close_or_wait {s : State} (hs : Inv s) {t : Thread} {c : ConnId} {rest : List ConnId}
    (hp : s.pc t = .closing c .enter rest) :
    s.Enabled t ∨ ∃ u, s.Unfinished u ∧ (s.pc u).rank < (s.pc t).rank := by
  cases honce : (s.shared.conn c).closeOnce with
  | fresh => exact .inl (Step.enabled hp (.enter honce))
  | done => exact .inl (Step.enabled hp (.skip honce))
  | running u =>
    have hbody : (s.pc u).InBody c := (hs.body c u).mp (by rw [honce]; rfl)
    refine .inr ⟨u, hbody.unfinished, ?_⟩
    rw [hp]
    exact Nat.lt_of_le_of_lt hbody.rank_le Nat.one_lt_two

theorem enabled_or_wait {s : State} (hs : Inv s) {t : Thread} (ht : s.Unfinished t) :
    s.Enabled t ∨ ∃ u, s.Unfinished u ∧ (s.pc u).rank < (s.pc t).rank := by
  have hown := hs.own t
  cases hp : s.pc t with
  | idle => exact absurd hp ht.1
  | returned => exact absurd hp ht.2
  | lock => exact hp ▸ lock_or_wait hs hp rfl Action.lock
  | dropLock => exact hp ▸ lock_or_wait hs hp rfl Action.dropLock
  | unlock => exact .inl (Step.enabled hp .unlock)
  | dropUnlock snapshot => exact .inl (Step.enabled hp .dropUnlock)
  | dropSnapshot =>
    exact .inl (Step.enabled hp (.dropSnapshot (Finset.nodup_toList _) fun _ ↦ Finset.mem_toList))
  | closing c stage rest =>
    cases stage with
    | enter => exact hp ▸ close_or_wait hs hp
    | client => exact .inl (Step.enabled hp .client)
    | upstream => exact .inl (Step.enabled hp .upstream)
    | check =>
      cases hdatabase : (s.shared.conn c).database with
      | true => exact .inl (Step.enabled hp (.check hdatabase))
      | false => exact .inl (Step.enabled hp (.unbound hdatabase))
    | lock => exact hp ▸ lock_or_wait hs hp rfl Action.closeLock
    | delete => exact .inl (Step.enabled hp .delete)
    | unlock => exact .inl (Step.enabled hp .closeUnlock)
    | finish => exact .inl (Step.enabled hp .finish)
  | bind =>
    cases t with
    | handler c => exact .inl (Step.enabled hp (.bind rfl))
    | pass k =>
      rw [hp] at hown
      exact hown.elim
  | insert =>
    cases t with
    | handler c => exact .inl (Step.enabled hp (.insert rfl))
    | pass k =>
      rw [hp] at hown
      exact hown.elim
  | pipe =>
    cases t with
    | handler c => exact .inl (Step.enabled hp (.pipe rfl))
    | pass k =>
      rw [hp] at hown
      exact hown.elim

/-! ## The registry -/

theorem done_run {s s' : State} (hrun : Run Step s s') {c : ConnId}
    (h : (s.shared.conn c).closeOnce = .done) : (s'.shared.conn c).closeOnce = .done := by
  induction hrun with
  | refl => exact h
  | step event _ hstep ih =>
    cases hstep with
    | act haction => exact done_action haction ih

/-- **The registry neither leaks nor deadlocks.** In every reachable state the body of `Close` has
run at most once for each connection; a connection for which a call of `Close` has returned is not
in the set, now or later, and both its sockets are closed; the set is empty when every handler that
was started has returned; and when some thread is unfinished, some unfinished thread can move. -/
theorem registry_sound {s : State} (hrun : Run Step initial s) :
    (∀ c, (s.shared.conn c).bodies ≤ 1) ∧
    (∀ c, 0 < (s.shared.conn c).returns →
      (s.shared.conn c).client = false ∧ (s.shared.conn c).upstream = false ∧
        ∀ s', Run Step s s' → c ∉ s'.shared.conns) ∧
    ((∀ c, s.pc (.handler c) = .idle ∨ s.pc (.handler c) = .returned) →
      s.shared.activeConns = 0) ∧
    ((∃ t, s.Unfinished t) → ∃ t, s.Unfinished t ∧ s.Enabled t) := by
  have hs := inv_run hrun
  refine ⟨fun c ↦ ?_, fun c hreturns ↦ ?_, fun hhandlers ↦ ?_, fun hunfinished ↦ ?_⟩
  · rw [hs.bodies c]
    split
    · exact Nat.zero_le 1
    · exact Nat.le_refl 1
  · have hdone := hs.returns c hreturns
    have hshut := hs.shut c hdone
    exact ⟨hshut.1, hshut.2, fun s' hafter ↦
      (inv_run (hrun.trans hafter)).done c (done_run hafter hdone)⟩
  · apply Finset.card_eq_zero.mpr
    apply Finset.eq_empty_of_forall_notMem
    intro c hmem
    rcases hhandlers c with hidle | hreturned
    · have hregistered := hs.registered c hmem
      rw [hidle] at hregistered
      exact hregistered
    · exact hs.done c (hs.returned c hreturned) hmem
  · obtain ⟨t, ht⟩ := hunfinished
    exact exists_enabled (fun t ↦ (s.pc t).rank) (fun t ht ↦ enabled_or_wait hs ht) ht

theorem run_act {s : State} {t : Thread} {shared : Shared} {p p' : Pc} (hrun : Run Step initial s)
    (hp : s.pc t = p) (haction : Action t s.shared p shared p') :
    Run Step initial ⟨shared, Function.update s.pc t p'⟩ :=
  hrun.step t (.act (hp ▸ haction))

/-- A pass closes a connection, and then its handler does. -/
theorem run_closedTwice : ∃ s, Run Step initial s ∧ (s.shared.conn 0).returns = 2 := by
  have hregistered := run_act (run_act (run_act (run_act (run_act .refl (t := .handler 0) rfl
    (.accept rfl)) (t := .handler 0) rfl (.bind rfl)) (t := .handler 0) rfl (.lock rfl))
    (t := .handler 0) rfl (.insert rfl)) (t := .handler 0) rfl .unlock
  have hdropping := run_act (run_act (run_act (run_act hregistered (t := .pass 0) rfl (.call rfl))
    (t := .pass 0) rfl (.dropLock rfl)) (t := .pass 0) rfl
    (.dropSnapshot (List.nodup_singleton 0) fun c ↦ by simp [initial, Shared.modify]))
    (t := .pass 0) rfl .dropUnlock
  have hlocked := run_act (run_act (run_act (run_act (run_act hdropping (t := .pass 0) rfl
    (.enter rfl)) (t := .pass 0) rfl .client) (t := .pass 0) rfl .upstream) (t := .pass 0) rfl
    (.check rfl)) (t := .pass 0) rfl (.closeLock rfl)
  have hclosed := run_act (run_act (run_act hlocked (t := .pass 0) rfl .delete)
    (t := .pass 0) rfl .closeUnlock) (t := .pass 0) rfl .finish
  have hreturned := run_act (run_act hclosed (t := .handler 0) rfl (.pipe rfl))
    (t := .handler 0) rfl (.skip rfl)
  exact ⟨_, hreturned, rfl⟩

theorem registry_sound_closedTwice : ∃ s, Run Step initial s ∧ (s.shared.conn 0).returns = 2 ∧
    (s.shared.conn 0).bodies ≤ 1 ∧ 0 ∉ s.shared.conns := by
  obtain ⟨s, hrun, hreturns⟩ := run_closedTwice
  have hsound := registry_sound hrun
  have hpos : 0 < (s.shared.conn 0).returns := by
    rw [hreturns]
    exact Nat.zero_lt_two
  exact ⟨s, hrun, hreturns, hsound.1 0, (hsound.2.1 0 hpos).2.2 s .refl⟩

end DbPivot.Proxy.Registry
