import DbPivot.Proxy.Database
import DbPivot.System.Run

/-!
# Handlers and switches on one database

Client handlers and `Apply` / `Clear` calls run concurrently on one database, any number of each. A
handler reads the current target, prepares its upstream connection, registers, pipes and closes; a
call stores the new target, takes a snapshot of the registered connections under the lock and closes
them one by one outside it. `Conn.Close` runs its body once: whoever comes second waits for the
first.

The target a handler connects with is read long before it registers. A connection registered in
that window, after every call in progress has taken its snapshot, outlives the switch; without such
a registration no connection does.
-/

namespace DbPivot.Proxy

open DbPivot.Go DbPivot.Config DbPivot.System

namespace Handover

/-! ## Threads -/

/-- The three client handlers. -/
inductive Kind where
  | postgres
  | mysql
  | mongo
deriving DecidableEq

/-- What a handler does between reading the target and registering; each of them can fail. -/
inductive Stage where
  | dial
  | negotiateUpstreamTLS
  | writeStartup
  | authenticateUpstream
  | writeAuthenticationOk
  | flushBuffered
  | checkCapabilities
  | writeOKPacket
  | forwardCommand
deriving DecidableEq

/-- The stages of `handleStartup`, `dispatchMySQL` and `routeMongo` with the target they read. -/
def stages : Kind → ResolvedTarget → List Stage
  | .postgres, rt =>
    [.dial] ++ (if rt.sslMode = sslModeRequire then [.negotiateUpstreamTLS] else []) ++
      [.writeStartup, .authenticateUpstream, .writeAuthenticationOk, .flushBuffered]
  | .mysql, _ => [.dial, .authenticateUpstream, .checkCapabilities, .writeOKPacket]
  | .mongo, _ => [.dial, .authenticateUpstream, .forwardCommand]

/-- Where a handler is. -/
inductive Handler where
  | accepted (kind : Kind)
  | preparing (rt : ResolvedTarget) (left : List Stage)
  | piping
  | closing
  | inClose
  | finished

/-- Where an `Apply` or `Clear` call is. The list holds the connections of its snapshot that it has
not seen closed yet. -/
inductive Switch where
  | idle
  | applying (rt : ResolvedTarget)
  | loaded (rt : ResolvedTarget) (prev : Option ResolvedTarget)
  | clearing
  | stored (prev : Option ResolvedTarget)
  | dropping (prev : Option ResolvedTarget) (closed : ℕ) (rest : List ConnId)
  | inClose (prev : Option ResolvedTarget) (closed : ℕ) (c : ConnId) (rest : List ConnId)
  | returned (prev : Option ResolvedTarget) (closed : ℕ)

/-- The `sync.Once` of a connection. -/
inductive Once where
  | fresh
  | running
  | done
deriving DecidableEq

/-- The database and its threads; the connection of handler `h` has the identity `h`. -/
structure State where
  db : Database
  once : ConnId → Once
  handlers : ℕ → Handler
  switches : ℕ → Switch

namespace State

def setHandler (s : State) (h : ℕ) (phase : Handler) : State :=
  { s with handlers := Function.update s.handlers h phase }

def setSwitch (s : State) (i : ℕ) (phase : Switch) : State :=
  { s with switches := Function.update s.switches i phase }

def store (s : State) (rt : Option ResolvedTarget) : State := { s with db := s.db.store rt }

def register (s : State) (c : ConnId) (conn : Conn) : State :=
  { s with db := s.db.register c conn }

/-- The first caller of `Close` enters the body and closes both sockets. -/
def enterClose (s : State) (c : ConnId) : State :=
  { s with once := Function.update s.once c .running }

/-- The end of the body: the connection is deregistered, and later callers return. -/
def leaveClose (s : State) (c : ConnId) : State :=
  { s with db := s.db.close c, once := Function.update s.once c .done }

@[simp]
theorem handlers_setHandler (s : State) (h : ℕ) (phase : Handler) :
    (s.setHandler h phase).handlers h = phase := Function.update_self ..

theorem handlers_setHandler_of_ne (s : State) {h h' : ℕ} (phase : Handler) (hne : h' ≠ h) :
    (s.setHandler h phase).handlers h' = s.handlers h' := Function.update_of_ne hne ..

@[simp]
theorem switches_setSwitch (s : State) (i : ℕ) (phase : Switch) :
    (s.setSwitch i phase).switches i = phase := Function.update_self ..

theorem switches_setSwitch_of_ne (s : State) {i j : ℕ} (phase : Switch) (hne : j ≠ i) :
    (s.setSwitch i phase).switches j = s.switches j := Function.update_of_ne hne ..

@[simp]
theorem once_enterClose (s : State) (c : ConnId) : (s.enterClose c).once c = .running :=
  Function.update_self ..

theorem once_enterClose_of_ne (s : State) {c c' : ConnId} (hne : c' ≠ c) :
    (s.enterClose c).once c' = s.once c' := Function.update_of_ne hne ..

theorem once_leaveClose_of_ne (s : State) {c c' : ConnId} (hne : c' ≠ c) :
    (s.leaveClose c).once c' = s.once c' := Function.update_of_ne hne ..

end State

/-- The step a thread takes: that of a handler or that of a call. -/
inductive Event where
  | read (h : ℕ)
  | prepare (h : ℕ)
  | register (h : ℕ)
  | hangUp (h : ℕ)
  | close (h : ℕ)
  | call (i : ℕ)
  | load (i : ℕ)
  | store (i : ℕ)
  | swap (i : ℕ)
  | snapshot (i : ℕ)
  | drop (i : ℕ)
  | ret (i : ℕ)

/-- One step of one thread. -/
inductive Step (s : State) : Event → State → Prop where
  | read {h : ℕ} {kind : Kind} {rt : ResolvedTarget} (hphase : s.handlers h = .accepted kind)
      (hcurrent : s.db.current = some rt) :
      Step s (.read h) (s.setHandler h (.preparing rt (stages kind rt)))
  | readInactive {h : ℕ} {kind : Kind} (hphase : s.handlers h = .accepted kind)
      (hcurrent : s.db.current = none) : Step s (.read h) (s.setHandler h .finished)
  | prepare {h : ℕ} {rt : ResolvedTarget} {stage : Stage} {left : List Stage}
      (hphase : s.handlers h = .preparing rt (stage :: left)) :
      Step s (.prepare h) (s.setHandler h (.preparing rt left))
  | prepareFails {h : ℕ} {rt : ResolvedTarget} {stage : Stage} {left : List Stage}
      (hphase : s.handlers h = .preparing rt (stage :: left)) :
      Step s (.prepare h) (s.setHandler h .finished)
  | register {h : ℕ} {rt : ResolvedTarget} (hphase : s.handlers h = .preparing rt []) :
      Step s (.register h) ((s.register h ⟨rt⟩).setHandler h .piping)
  | hangUp {h : ℕ} (hphase : s.handlers h = .piping) :
      Step s (.hangUp h) (s.setHandler h .closing)
  | closeFirst {h : ℕ} (hphase : s.handlers h = .closing) (honce : s.once h = .fresh) :
      Step s (.close h) ((s.enterClose h).setHandler h .inClose)
  | closeBody {h : ℕ} (hphase : s.handlers h = .inClose) :
      Step s (.close h) ((s.leaveClose h).setHandler h .finished)
  | closeLater {h : ℕ} (hphase : s.handlers h = .closing) (honce : s.once h = .done) :
      Step s (.close h) (s.setHandler h .finished)
  | callApply {i : ℕ} (rt : ResolvedTarget) (hphase : s.switches i = .idle) :
      Step s (.call i) (s.setSwitch i (.applying rt))
  | callClear {i : ℕ} (hphase : s.switches i = .idle) : Step s (.call i) (s.setSwitch i .clearing)
  | load {i : ℕ} {rt : ResolvedTarget} (hphase : s.switches i = .applying rt) :
      Step s (.load i) (s.setSwitch i (.loaded rt s.db.current))
  | store {i : ℕ} {rt : ResolvedTarget} {prev : Option ResolvedTarget}
      (hphase : s.switches i = .loaded rt prev) :
      Step s (.store i) ((s.store (some rt)).setSwitch i (.stored prev))
  | swap {i : ℕ} (hphase : s.switches i = .clearing) :
      Step s (.swap i) ((s.store none).setSwitch i (.stored s.db.current))
  | snapshot {i : ℕ} {prev : Option ResolvedTarget} {order : List ConnId}
      (hphase : s.switches i = .stored prev) (horder : Enumerates order s.db.conns) :
      Step s (.snapshot i) (s.setSwitch i (.dropping prev order.length order))
  | dropFirst {i : ℕ} {prev : Option ResolvedTarget} {closed : ℕ} {c : ConnId} {rest : List ConnId}
      (hphase : s.switches i = .dropping prev closed (c :: rest)) (honce : s.once c = .fresh) :
      Step s (.drop i) ((s.enterClose c).setSwitch i (.inClose prev closed c rest))
  | dropBody {i : ℕ} {prev : Option ResolvedTarget} {closed : ℕ} {c : ConnId} {rest : List ConnId}
      (hphase : s.switches i = .inClose prev closed c rest) :
      Step s (.drop i) ((s.leaveClose c).setSwitch i (.dropping prev closed rest))
  | dropLater {i : ℕ} {prev : Option ResolvedTarget} {closed : ℕ} {c : ConnId} {rest : List ConnId}
      (hphase : s.switches i = .dropping prev closed (c :: rest)) (honce : s.once c = .done) :
      Step s (.drop i) (s.setSwitch i (.dropping prev closed rest))
  | ret {i : ℕ} {prev : Option ResolvedTarget} {closed : ℕ}
      (hphase : s.switches i = .dropping prev closed []) :
      Step s (.ret i) (s.setSwitch i (.returned prev closed))

/-- A database without connections, clients about to be handled and no call. -/
structure Initial (s : State) : Prop where
  conns : s.db.conns = ∅
  once : ∀ c, s.once c = .fresh
  handlers : ∀ h, ∃ kind, s.handlers h = .accepted kind
  switches : ∀ i, s.switches i = .idle

/-- No call is in progress. -/
def Quiescent (s : State) : Prop :=
  ∀ i, s.switches i = .idle ∨ ∃ prev closed, s.switches i = .returned prev closed

/-- Every registered connection is one to the current target. -/
def NoStale (s : State) : Prop :=
  ∀ c conn, s.db.conns.get c = some conn → s.db.current = some conn.resolved

/-! ## What holds in every state -/

/-- The call has not taken its snapshot yet. -/
def Pending : Switch → Prop
  | .applying _ => True
  | .loaded _ _ => True
  | .clearing => True
  | .stored _ => True
  | _ => False

/-- The connections the call is still going to see closed. -/
def toClose : Switch → List ConnId
  | .dropping _ _ rest => rest
  | .inClose _ _ c rest => c :: rest
  | _ => []

/-- The handler has not registered its connection yet. -/
def Unregistered : Handler → Prop
  | .accepted _ => True
  | .preparing _ _ => True
  | _ => False

/-- A registration in time: the target read is still the current one, or some call in progress has
yet to take its snapshot. -/
def InTime (s : State) : Event → Prop
  | .register h => ∀ rt, s.handlers h = .preparing rt [] →
      s.db.current = some rt ∨ ∃ i, Pending (s.switches i)
  | _ => True

/-- A registered connection is to the current target, or a call will close it. -/
structure Inv (s : State) : Prop where
  covered : ∀ c conn, s.db.conns.get c = some conn →
    s.db.current = some conn.resolved ∨ (∃ i, Pending (s.switches i)) ∨
      ∃ i, c ∈ toClose (s.switches i)
  unregistered : ∀ h, Unregistered (s.handlers h) →
    s.once h = .fresh ∧ h ∉ s.db.conns ∧ ∀ i, h ∉ toClose (s.switches i)
  notDone : ∀ c, c ∈ s.db.conns → s.once c ≠ .done

theorem inv_initial {s : State} (hinitial : Initial s) : Inv s := by
  have hempty : ∀ c, c ∉ s.db.conns := by
    rw [hinitial.conns]
    exact fun c ↦ Finmap.notMem_empty
  refine ⟨fun c conn hget ↦ absurd (GoMap.mem_of_get hget) (hempty c), fun h _ ↦ ?_,
    fun c hc ↦ absurd hc (hempty c)⟩
  refine ⟨hinitial.once h, hempty h, fun i ↦ ?_⟩
  rw [hinitial.switches i]
  exact List.not_mem_nil

section Preservation

variable {s : State} (hs : Inv s)

include hs

/-- A handler may move anywhere, only not back before its registration. -/
theorem inv_setHandler {h : ℕ} {phase : Handler}
    (hphase : Unregistered phase → Unregistered (s.handlers h)) : Inv (s.setHandler h phase) := by
  refine ⟨hs.covered, fun h' hunregistered ↦ hs.unregistered h' ?_, hs.notDone⟩
  by_cases hsame : h' = h
  · subst hsame
    rw [State.handlers_setHandler] at hunregistered
    exact hphase hunregistered
  · rwa [State.handlers_setHandler_of_ne _ _ hsame] at hunregistered

/-- A call may move on when no registered connection is lost from its sight. -/
theorem inv_setSwitch {i : ℕ} {phase : Switch}
    (hpending : Pending (s.switches i) → Pending phase ∨ ∀ c ∈ s.db.conns, c ∈ toClose phase)
    (hclose : ∀ c ∈ toClose (s.switches i), c ∈ s.db.conns → c ∈ toClose phase)
    (hnew : ∀ c ∈ toClose phase, c ∈ toClose (s.switches i) ∨ c ∈ s.db.conns) :
    Inv (s.setSwitch i phase) := by
  have hself := s.switches_setSwitch i phase
  have hother : ∀ j, j ≠ i → (s.setSwitch i phase).switches j = s.switches j :=
    fun j hj ↦ s.switches_setSwitch_of_ne phase hj
  refine ⟨fun c conn hget ↦ ?_, fun h hunregistered ↦ ?_, hs.notDone⟩
  · have hmem : c ∈ s.db.conns := GoMap.mem_of_get hget
    rcases hs.covered c conn hget with hcurrent | ⟨j, hj⟩ | ⟨j, hj⟩
    · exact .inl hcurrent
    · by_cases hsame : j = i
      · subst hsame
        rcases hpending hj with hphase | hall
        · exact .inr (.inl ⟨j, by rwa [hself]⟩)
        · exact .inr (.inr ⟨j, by rw [hself]; exact hall c hmem⟩)
      · exact .inr (.inl ⟨j, by rwa [hother j hsame]⟩)
    · by_cases hsame : j = i
      · subst hsame
        exact .inr (.inr ⟨j, by rw [hself]; exact hclose c hj hmem⟩)
      · exact .inr (.inr ⟨j, by rwa [hother j hsame]⟩)
  · rcases hs.unregistered h hunregistered with ⟨honce, hconns, hfree⟩
    refine ⟨honce, hconns, fun j hj ↦ ?_⟩
    by_cases hsame : j = i
    · subst hsame
      rw [hself] at hj
      exact (hnew h hj).elim (hfree j) hconns
    · rw [hother j hsame] at hj
      exact hfree j hj

/-- A call may move on before its snapshot. -/
theorem inv_setSwitch_pending {i : ℕ} {phase : Switch} (hnone : toClose (s.switches i) = [])
    (hphase : Pending phase) : Inv (s.setSwitch i phase) := by
  have hempty : toClose phase = [] := by
    cases phase with
    | dropping => exact absurd hphase id
    | inClose => exact absurd hphase id
    | _ => rfl
  refine inv_setSwitch hs (fun _ ↦ .inl hphase) (fun c hc ↦ ?_) fun c hc ↦ ?_
  · rw [hnone] at hc
    exact absurd hc List.not_mem_nil
  · rw [hempty] at hc
    exact absurd hc List.not_mem_nil

/-- The current target may change while a snapshot is still to come. -/
theorem inv_store {i : ℕ} (hpending : Pending (s.switches i)) (rt : Option ResolvedTarget) :
    Inv (s.store rt) :=
  ⟨fun _ _ _ ↦ .inr (.inl ⟨i, hpending⟩), hs.unregistered, hs.notDone⟩

theorem inv_enterClose {c : ConnId} (hc : ¬ Unregistered (s.handlers c)) :
    Inv (s.enterClose c) := by
  refine ⟨hs.covered, fun h hunregistered ↦ ?_, fun c' hc' ↦ ?_⟩
  · have hne : h ≠ c := fun hsame ↦ hc (hsame ▸ hunregistered)
    rw [State.once_enterClose_of_ne _ hne]
    exact hs.unregistered h hunregistered
  · by_cases hsame : c' = c
    · subst hsame
      rw [State.once_enterClose]
      decide
    · rw [State.once_enterClose_of_ne _ hsame]
      exact hs.notDone c' hc'

theorem inv_leaveClose {c : ConnId} (hc : ¬ Unregistered (s.handlers c)) :
    Inv (s.leaveClose c) := by
  refine ⟨fun c' conn hget ↦ ?_, fun h hunregistered ↦ ?_, fun c' hc' ↦ ?_⟩
  · by_cases hsame : c' = c
    · subst hsame
      exact absurd hget (by rw [State.leaveClose, Database.close, GoMap.get_erase]; simp)
    · rw [State.leaveClose, Database.close, GoMap.get_erase_of_ne _ hsame] at hget
      exact hs.covered c' conn hget
  · have hne : h ≠ c := fun hsame ↦ hc (hsame ▸ hunregistered)
    rcases hs.unregistered h hunregistered with ⟨honce, hconns, hfree⟩
    refine ⟨?_, fun hmem ↦ hconns (Finmap.mem_erase.mp hmem).2, hfree⟩
    rw [State.once_leaveClose_of_ne _ hne]
    exact honce
  · rcases Finmap.mem_erase.mp hc' with ⟨hne, hmem⟩
    rw [State.once_leaveClose_of_ne _ hne]
    exact hs.notDone c' hmem

theorem inv_register {h : ℕ} {rt : ResolvedTarget} (hphase : s.handlers h = .preparing rt [])
    (hintime : s.db.current = some rt ∨ ∃ i, Pending (s.switches i)) :
    Inv ((s.register h ⟨rt⟩).setHandler h .piping) := by
  have honce : s.once h = .fresh := (hs.unregistered h (by rw [hphase]; trivial)).1
  refine ⟨fun c conn hget ↦ ?_, fun h' hunregistered ↦ ?_, fun c hc ↦ ?_⟩
  · by_cases hsame : c = h
    · subst hsame
      rw [State.setHandler, State.register, Database.register, GoMap.get_insert] at hget
      rw [← Option.some.inj hget]
      exact hintime.imp_right .inl
    · rw [State.setHandler, State.register, Database.register, GoMap.get_insert_of_ne _ _ hsame]
        at hget
      exact hs.covered c conn hget
  · by_cases hsame : h' = h
    · subst hsame
      rw [State.handlers_setHandler] at hunregistered
      exact absurd hunregistered id
    · rw [State.handlers_setHandler_of_ne _ _ hsame] at hunregistered
      rcases hs.unregistered h' hunregistered with ⟨honce', hconns, hfree⟩
      refine ⟨honce', fun hmem ↦ ?_, hfree⟩
      exact hconns ((Finmap.mem_insert.mp hmem).resolve_left hsame)
  · rcases Finmap.mem_insert.mp hc with rfl | hmem
    · exact fun hdone ↦ by simp [State.setHandler, State.register, honce] at hdone
    · exact hs.notDone c hmem

/-- A connection some call is going to see closed has been registered. -/
theorem registered_of_mem_toClose {i : ℕ} {c : ConnId} (hc : c ∈ toClose (s.switches i)) :
    ¬ Unregistered (s.handlers c) :=
  fun hunregistered ↦ (hs.unregistered c hunregistered).2.2 i hc

/-- Every step whose registration is in time keeps the invariant. -/
theorem inv_step {event : Event} {s' : State} (hintime : InTime s event)
    (hstep : Step s event s') : Inv s' := by
  cases hstep with
  | read hphase _ => exact inv_setHandler hs fun _ ↦ by rw [hphase]; trivial
  | readInactive _ _ => exact inv_setHandler hs fun hfinished ↦ absurd hfinished id
  | prepare hphase => exact inv_setHandler hs fun _ ↦ by rw [hphase]; trivial
  | prepareFails _ => exact inv_setHandler hs fun hfinished ↦ absurd hfinished id
  | register hphase => exact inv_register hs hphase (hintime _ hphase)
  | hangUp _ => exact inv_setHandler hs fun hclosing ↦ absurd hclosing id
  | closeFirst hphase _ =>
    exact inv_setHandler (inv_enterClose hs (by rw [hphase]; exact id))
      fun hclosing ↦ absurd hclosing id
  | closeBody hphase =>
    exact inv_setHandler (inv_leaveClose hs (by rw [hphase]; exact id))
      fun hfinished ↦ absurd hfinished id
  | closeLater _ _ => exact inv_setHandler hs fun hfinished ↦ absurd hfinished id
  | callApply rt hphase => exact inv_setSwitch_pending hs (by rw [hphase]; rfl) trivial
  | callClear hphase => exact inv_setSwitch_pending hs (by rw [hphase]; rfl) trivial
  | load hphase => exact inv_setSwitch_pending hs (by rw [hphase]; rfl) trivial
  | @store i rt prev hphase =>
    have hstore := inv_store hs (by rw [hphase]; trivial) (some rt)
    exact inv_setSwitch_pending hstore (by rw [State.store, hphase]; rfl) trivial
  | swap hphase =>
    have hstore := inv_store hs (by rw [hphase]; trivial) none
    exact inv_setSwitch_pending hstore (by rw [State.store, hphase]; rfl) trivial
  | snapshot hphase horder =>
    refine inv_setSwitch hs (fun _ ↦ .inr fun c hc ↦ (horder.mem_iff c).mpr hc) (fun c hc ↦ ?_)
      fun c hc ↦ .inr ((horder.mem_iff c).mp hc)
    rw [hphase] at hc
    exact absurd hc List.not_mem_nil
  | @dropFirst i prev closed c rest hphase _ =>
    have hclose : toClose (s.switches i) = c :: rest := by rw [hphase]; rfl
    have hregistered := registered_of_mem_toClose hs (hclose ▸ List.mem_cons_self)
    have hsame : toClose (.inClose prev closed c rest) = toClose (s.switches i) := hclose.symm
    refine inv_setSwitch (inv_enterClose hs hregistered) (fun hpending ↦ ?_)
      (fun c' hc' _ ↦ hsame ▸ hc') fun c' hc' ↦ .inl (hsame ▸ hc')
    rw [State.enterClose, hphase] at hpending
    exact absurd hpending id
  | @dropBody i prev closed c rest hphase =>
    have hclose : toClose (s.switches i) = c :: rest := by rw [hphase]; rfl
    have hregistered := registered_of_mem_toClose hs (hclose ▸ List.mem_cons_self)
    refine inv_setSwitch (inv_leaveClose hs hregistered) (fun hpending ↦ ?_)
      (fun c' hc' hmem ↦ ?_) fun c' hc' ↦ .inl (hclose ▸ List.mem_cons_of_mem c hc')
    · rw [State.leaveClose, hphase] at hpending
      exact absurd hpending id
    · have hcons : c' ∈ c :: rest := hclose ▸ hc'
      exact (List.mem_cons.mp hcons).resolve_left (Finmap.mem_erase.mp hmem).1
  | @dropLater i prev closed c rest hphase honce =>
    have hclose : toClose (s.switches i) = c :: rest := by rw [hphase]; rfl
    refine inv_setSwitch hs (fun hpending ↦ ?_) (fun c' hc' hmem ↦ ?_)
      fun c' hc' ↦ .inl (hclose ▸ List.mem_cons_of_mem c hc')
    · rw [hphase] at hpending
      exact absurd hpending id
    · rcases List.mem_cons.mp (hclose ▸ hc') with rfl | hrest
      · exact absurd honce (hs.notDone c' hmem)
      · exact hrest
  | ret hphase =>
    refine inv_setSwitch hs (fun hpending ↦ ?_) (fun c hc ↦ ?_) fun c hc ↦ absurd hc
      List.not_mem_nil
    · rw [hphase] at hpending
      exact absurd hpending id
    · rw [hphase] at hc
      exact absurd hc List.not_mem_nil

end Preservation

/-- Without a call in progress the invariant leaves only connections to the current target. -/
theorem noStale_of_inv {s : State} (hs : Inv s) (hquiescent : Quiescent s) : NoStale s := by
  intro c conn hget
  rcases hs.covered c conn hget with hcurrent | ⟨i, hi⟩ | ⟨i, hi⟩
  · exact hcurrent
  · rcases hquiescent i with hidle | ⟨prev, closed, hreturned⟩
    · rw [hidle] at hi
      exact absurd hi id
    · rw [hreturned] at hi
      exact absurd hi id
  · rcases hquiescent i with hidle | ⟨prev, closed, hreturned⟩
    · rw [hidle] at hi
      exact absurd hi List.not_mem_nil
    · rw [hreturned] at hi
      exact absurd hi List.not_mem_nil

/-- When every registration is in time, no connection to an earlier target is left once the calls
have returned. -/
theorem noStale_of_inTime {start s : State} (hinitial : Initial start)
    (hrun : Run (Guarded InTime Step) start s) (hquiescent : Quiescent s) : NoStale s := by
  refine noStale_of_inv (hrun.invariant (inv_initial hinitial) fun s event s' hs hstep ↦ ?_)
    hquiescent
  exact inv_step hs hstep.1 hstep.2

/-! ## A call on its own -/

/-- The step is one of call `i`. -/
def OfCall (i : ℕ) (_ : State) : Event → Prop
  | .call j | .load j | .store j | .swap j | .snapshot j | .drop j | .ret j => j = i
  | _ => False

/-- Only call `i` and the connections it closes have moved. -/
structure Alone (i : ℕ) (s s' : State) : Prop where
  handlers : s'.handlers = s.handlers
  switches : ∀ j, j ≠ i → s'.switches j = s.switches j

theorem alone_step {i : ℕ} {start s s' : State} {event : Event} (halone : Alone i start s)
    (hstep : Guarded (OfCall i) Step s event s') : Alone i start s' := by
  have hset : ∀ t : State, ∀ j phase, t.handlers = s.handlers → t.switches = s.switches → j = i →
      Alone i start (t.setSwitch j phase) := by
    intro t j phase hhandlers hswitches hj
    refine ⟨hhandlers.trans halone.handlers, fun k hk ↦ ?_⟩
    rw [t.switches_setSwitch_of_ne phase (hj ▸ hk), hswitches]
    exact halone.switches k hk
  rcases hstep with ⟨hcall, hstep⟩
  cases hstep with
  | callApply => exact hset _ _ _ rfl rfl hcall
  | callClear => exact hset _ _ _ rfl rfl hcall
  | load => exact hset _ _ _ rfl rfl hcall
  | store => exact hset _ _ _ rfl rfl hcall
  | swap => exact hset _ _ _ rfl rfl hcall
  | snapshot => exact hset _ _ _ rfl rfl hcall
  | dropFirst => exact hset _ _ _ rfl rfl hcall
  | dropBody => exact hset _ _ _ rfl rfl hcall
  | dropLater => exact hset _ _ _ rfl rfl hcall
  | ret => exact hset _ _ _ rfl rfl hcall
  | _ => exact absurd hcall id

theorem alone_run {i : ℕ} {s s' : State} (hrun : Run (Guarded (OfCall i) Step) s s') :
    Alone i s s' :=
  hrun.invariant ⟨rfl, fun _ _ ↦ rfl⟩ fun _ _ _ halone hstep ↦ alone_step halone hstep

theorem run_ofCall {i : ℕ} {s s' : State} {event : Event} (hstep : Step s event s')
    (hcall : OfCall i s event) : Run (Guarded (OfCall i) Step) s s' := .single ⟨hcall, hstep⟩

/-- Left alone, the closing loop removes the connections of the snapshot. -/
theorem run_drop {s : State} {i : ℕ} {prev : Option ResolvedTarget} {closed : ℕ}
    {order : List ConnId} (hphase : s.switches i = .dropping prev closed order)
    (hnodup : order.Nodup) (hfresh : ∀ c ∈ order, s.once c = .fresh) :
    ∃ s', Run (Guarded (OfCall i) Step) s s' ∧ s'.db = order.foldl Database.close s.db ∧
      s'.switches i = .returned prev closed := by
  induction order generalizing s with
  | nil => exact ⟨_, run_ofCall (.ret hphase) rfl, rfl, State.switches_setSwitch ..⟩
  | cons c rest ih =>
    rcases List.nodup_cons.mp hnodup with ⟨hc, hrest⟩
    have hfirst := Step.dropFirst hphase (hfresh c List.mem_cons_self)
    have hbody := Step.dropBody
      (State.switches_setSwitch (s.enterClose c) i (.inClose prev closed c rest))
    have hfresh' : ∀ c' ∈ rest, (s.enterClose c |>.leaveClose c).once c' = .fresh := by
      intro c' hc'
      have hne : c' ≠ c := fun hsame ↦ hc (hsame ▸ hc')
      calc (s.enterClose c |>.leaveClose c).once c'
          = (s.enterClose c).once c' := State.once_leaveClose_of_ne _ hne
        _ = s.once c' := State.once_enterClose_of_ne _ hne
        _ = .fresh := hfresh c' (List.mem_cons_of_mem _ hc')
    have hphase' := State.switches_setSwitch
      (((s.enterClose c).setSwitch i (.inClose prev closed c rest)).leaveClose c) i
      (.dropping prev closed rest)
    rcases ih hphase' hrest hfresh' with ⟨s', hrun, hdb, hend⟩
    exact ⟨s', ((run_ofCall hfirst rfl).trans (run_ofCall hbody rfl)).trans hrun, hdb, hend⟩

/-- The part `Apply` and `Clear` share, from the snapshot on. -/
theorem run_stored {s : State} {i : ℕ} {prev : Option ResolvedTarget} {order : List ConnId}
    (hphase : s.switches i = .stored prev) (horder : Enumerates order s.db.conns)
    (hfresh : ∀ c ∈ s.db.conns, s.once c = .fresh) :
    ∃ s', Run (Guarded (OfCall i) Step) s s' ∧ s'.db = order.foldl Database.close s.db ∧
      s'.switches i = .returned prev order.length := by
  rcases run_drop (State.switches_setSwitch s i (.dropping prev order.length order)) horder.nodup
    (fun c hc ↦ hfresh c ((horder.mem_iff c).mp hc)) with ⟨s', hrun, hdb, hend⟩
  exact ⟨s', (run_ofCall (.snapshot hphase horder) rfl).trans hrun, hdb, hend⟩

/-- Left alone, an `Apply` call does what the sequential model of it says. -/
theorem run_apply {s : State} {i : ℕ} (rt : ResolvedTarget) {order : List ConnId}
    (hidle : s.switches i = .idle) (horder : Enumerates order s.db.conns)
    (hfresh : ∀ c ∈ s.db.conns, s.once c = .fresh) :
    ∃ s', Run (Guarded (OfCall i) Step) s s' ∧ s'.db = (s.db.apply rt order).1 ∧
      s'.switches i = .returned (s.db.apply rt order).2.1 (s.db.apply rt order).2.2 := by
  have hcall := Step.callApply rt hidle
  have hload := Step.load (State.switches_setSwitch s i (.applying rt))
  have hstore := Step.store
    (State.switches_setSwitch (s.setSwitch i (.applying rt)) i (.loaded rt s.db.current))
  have hphase := State.switches_setSwitch
    (((s.setSwitch i (.applying rt)).setSwitch i (.loaded rt s.db.current)).store (some rt)) i
    (.stored s.db.current)
  rcases run_stored hphase horder hfresh with ⟨s', hrun, hdb, hend⟩
  exact ⟨s', (((run_ofCall hcall rfl).trans (run_ofCall hload rfl)).trans
    (run_ofCall hstore rfl)).trans hrun, hdb, hend⟩

/-- And so does a `Clear` call. -/
theorem run_clear {s : State} {i : ℕ} {order : List ConnId} (hidle : s.switches i = .idle)
    (horder : Enumerates order s.db.conns) (hfresh : ∀ c ∈ s.db.conns, s.once c = .fresh) :
    ∃ s', Run (Guarded (OfCall i) Step) s s' ∧ s'.db = (s.db.clear order).1 ∧
      s'.switches i = .returned (s.db.clear order).2.1 (s.db.clear order).2.2 := by
  have hcall := Step.callClear hidle
  have hswap := Step.swap (State.switches_setSwitch s i .clearing)
  have hphase := State.switches_setSwitch ((s.setSwitch i .clearing).store none) i
    (.stored s.db.current)
  rcases run_stored hphase horder hfresh with ⟨s', hrun, hdb, hend⟩
  exact ⟨s', ((run_ofCall hcall rfl).trans (run_ofCall hswap rfl)).trans hrun, hdb, hend⟩

/-! ## A registration out of time -/

def namedTarget (name : Bytes) : ResolvedTarget where
  name := name
  host := str "localhost"
  port := 5432
  user := str "app"
  password := str "secret"
  database := []
  sslMode := []
  authSource := []

/-- A database on the given target, before any client or call. -/
def activeState (kind : Kind) (rt : ResolvedTarget) : State where
  db := { newDatabase ⟨adapterPostgres, str "app", []⟩ ∅ with current := some rt }
  once := fun _ ↦ .fresh
  handlers := fun _ ↦ .accepted kind
  switches := fun _ ↦ .idle

theorem initial_activeState (kind : Kind) (rt : ResolvedTarget) : Initial (activeState kind rt) :=
  ⟨rfl, fun _ ↦ rfl, fun _ ↦ ⟨kind, rfl⟩, fun _ ↦ rfl⟩

/-- Nothing has moved but one handler, which has not registered yet. -/
structure Ready (h : ℕ) (rt : ResolvedTarget) (s s' : State) : Prop where
  phase : s'.handlers h = .preparing rt []
  handlers : ∀ h' ≠ h, s'.handlers h' = s.handlers h'
  db : s'.db = s.db
  once : s'.once = s.once
  switches : s'.switches = s.switches

/-- A handler can go through all its stages while nothing else happens. -/
theorem run_prepare {s : State} {h : ℕ} {rt : ResolvedTarget} {left : List Stage}
    (hphase : s.handlers h = .preparing rt left) :
    ∃ s', Run (Guarded InTime Step) s s' ∧ Ready h rt s s' := by
  induction left generalizing s with
  | nil => exact ⟨s, .refl, hphase, fun _ _ ↦ rfl, rfl, rfl, rfl⟩
  | cons stage rest ih =>
    rcases ih (State.handlers_setHandler s h (.preparing rt rest)) with ⟨s', hrun, hready⟩
    have hstep : Guarded InTime Step s (.prepare h) (s.setHandler h (.preparing rt rest)) :=
      ⟨trivial, .prepare hphase⟩
    refine ⟨s', (Run.single hstep).trans hrun, { hready with handlers := fun h' hne ↦ ?_ }⟩
    exact (hready.handlers h' hne).trans (State.handlers_setHandler_of_ne s _ hne)

/-- A client logs in upstream and is about to register. -/
theorem run_login {s : State} {h : ℕ} {kind : Kind} {rt : ResolvedTarget}
    (hphase : s.handlers h = .accepted kind) (hcurrent : s.db.current = some rt) :
    ∃ s', Run (Guarded InTime Step) s s' ∧ Ready h rt s s' := by
  have hread : Guarded InTime Step s (.read h) (s.setHandler h (.preparing rt (stages kind rt))) :=
    ⟨trivial, .read hphase hcurrent⟩
  rcases run_prepare (State.handlers_setHandler s h (.preparing rt (stages kind rt))) with
    ⟨s', hrun, hready⟩
  refine ⟨s', (Run.single hread).trans hrun, { hready with handlers := fun h' hne ↦ ?_ }⟩
  exact (hready.handlers h' hne).trans (State.handlers_setHandler_of_ne s _ hne)

/-- It logs in and registers, while the target stays what it is. -/
theorem run_connect {s : State} {h : ℕ} {kind : Kind} {rt : ResolvedTarget}
    (hphase : s.handlers h = .accepted kind) (hcurrent : s.db.current = some rt) :
    ∃ s', Run (Guarded InTime Step) s s' ∧ s'.db = s.db.register h ⟨rt⟩ ∧ s'.once = s.once ∧
      s'.switches = s.switches ∧ ∀ h' ≠ h, s'.handlers h' = s.handlers h' := by
  rcases run_login hphase hcurrent with ⟨s₁, hlogin, hready⟩
  have hregister : Guarded InTime Step s₁ (.register h)
      ((s₁.register h ⟨rt⟩).setHandler h .piping) := by
    refine ⟨fun rt' hrt' ↦ .inl ?_, .register hready.phase⟩
    rw [hready.phase] at hrt'
    rw [hready.db, hcurrent, (Handler.preparing.inj hrt').1]
  refine ⟨_, hlogin.step _ hregister, ?_, hready.once, hready.switches, fun h' hne ↦ ?_⟩
  · exact congrArg (Database.register · h ⟨rt⟩) hready.db
  · exact (State.handlers_setHandler_of_ne _ _ hne).trans (hready.handlers h' hne)

theorem inTime_of_ofCall {i : ℕ} (s : State) (event : Event) (h : OfCall i s event) :
    InTime s event := by
  cases event with
  | register h' => exact absurd h id
  | _ => trivial

/-- Three clients and a switch. The first two log in to the old target, and the second registers
only once the new one is stored, before the snapshot. The switch closes both, and the third client
is connected to the new target. -/
theorem noStale_of_inTime_switch :
    ∃ s, Run (Guarded InTime Step) (activeState .postgres (namedTarget (str "prod"))) s ∧
      s.db.conns.get 0 = none ∧ s.db.conns.get 1 = none ∧
      s.db.conns.get 2 = some ⟨namedTarget (str "local")⟩ ∧ NoStale s := by
  let old := namedTarget (str "prod")
  let new := namedTarget (str "local")
  rcases run_connect (s := activeState .postgres old) (h := 0) rfl rfl with
    ⟨s₁, hfirst, hdb₁, honce₁, hswitches₁, hothers₁⟩
  have hcurrent : s₁.db.current = some old := congrArg Database.current hdb₁
  rcases run_login (s := s₁) (h := 1) (hothers₁ 1 (by decide)) hcurrent with ⟨s₂, hsecond, hready⟩
  have hidle : s₂.switches 0 = .idle := by
    rw [hready.switches, hswitches₁]
    rfl
  -- The switch begins and stores its target.
  let s₃ := s₂.setSwitch 0 (.applying new)
  let s₄ := s₃.setSwitch 0 (.loaded new s₃.db.current)
  let s₅ := (s₄.store (some new)).setSwitch 0 (.stored s₃.db.current)
  have hcall : Guarded InTime Step s₂ (.call 0) s₃ := ⟨trivial, .callApply new hidle⟩
  have hload : Guarded InTime Step s₃ (.load 0) s₄ :=
    ⟨trivial, .load (State.switches_setSwitch ..)⟩
  have hstore : Guarded InTime Step s₄ (.store 0) s₅ :=
    ⟨trivial, .store (State.switches_setSwitch ..)⟩
  -- The second client registers for the old target.
  let s₆ := (s₅.register 1 ⟨old⟩).setHandler 1 .piping
  have hstored : s₅.switches 0 = .stored s₃.db.current := State.switches_setSwitch ..
  have hregister : Guarded InTime Step s₅ (.register 1) s₆ := by
    refine ⟨fun _ _ ↦ .inr ⟨0, ?_⟩, .register hready.phase⟩
    rw [hstored]
    trivial
  -- The switch goes on to its end.
  rcases GoMap.exists_enumerates s₆.db.conns with ⟨order, horder⟩
  have honce : ∀ c ∈ s₆.db.conns, s₆.once c = .fresh := fun c _ ↦
    congrFun (hready.once.trans honce₁) c
  rcases run_stored (s := s₆) (i := 0) hstored horder honce with ⟨s₇, hdrop, hdb₇, hreturned⟩
  have halone := alone_run hdrop
  have hconns : s₇.db = { s₆.db with conns := ∅ } := by
    rw [hdb₇]
    exact congrArg Prod.fst (Database.dropAll_eq horder)
  have hthird : s₇.handlers 2 = .accepted .postgres := by
    rw [halone.handlers]
    exact (State.handlers_setHandler_of_ne _ _ (by decide)).trans
      ((hready.handlers 2 (by decide)).trans (hothers₁ 2 (by decide)))
  rcases run_connect hthird (congrArg Database.current hconns) with
    ⟨s, hlast, hdb, -, hswitches, -⟩
  have hrun := (((((hfirst.trans hsecond).step _ hcall).step _ hload).step _ hstore).step _
    hregister).trans ((hdrop.mono_guard inTime_of_ofCall).trans hlast)
  have hget : ∀ c, s.db.conns.get c = GoMap.get (Finmap.insert 2 ⟨new⟩ ∅) c := by
    intro c
    rw [hdb, hconns]
    rfl
  refine ⟨s, hrun, ?_, ?_, ?_, noStale_of_inTime (initial_activeState _ _) hrun fun i ↦ ?_⟩
  · rw [hget]
    decide
  · rw [hget]
    decide
  · rw [hget]
    exact GoMap.get_insert _ _ _
  · rw [hswitches]
    by_cases hi : i = 0
    · subst hi
      exact .inr ⟨_, _, hreturned⟩
    · refine .inl ((halone.switches i hi).trans ?_)
      have hsame : s₆.switches i = s₂.switches i :=
        (State.switches_setSwitch_of_ne _ _ hi).trans
          ((State.switches_setSwitch_of_ne _ _ hi).trans (State.switches_setSwitch_of_ne _ _ hi))
      rw [hsame, hready.switches, hswitches₁]
      rfl

/-- Whatever the protocol, a client that logs in to one target and registers after a switch to
another has returned keeps its connection to the first one. -/
theorem stale_of_late_registration (kind : Kind) :
    ∃ s, Run Step (activeState kind (namedTarget (str "prod"))) s ∧ Quiescent s ∧ ¬ NoStale s := by
  rcases run_login (s := activeState kind (namedTarget (str "prod"))) (h := 0) rfl rfl with
    ⟨s, hlogin, hready⟩
  have hidle : ∀ i, s.switches i = .idle := congrFun hready.switches
  have horder : Enumerates [] s.db.conns := by
    rw [hready.db]
    exact ⟨List.nodup_nil, fun _ ↦ iff_of_false List.not_mem_nil Finmap.notMem_empty⟩
  rcases run_apply (namedTarget (str "local")) (hidle 0) horder
    fun c _ ↦ congrFun hready.once c with
    ⟨s', hswitch, hdb', hreturned⟩
  have halone := alone_run hswitch
  have hregister : Step s' (.register 0)
      ((s'.register 0 ⟨namedTarget (str "prod")⟩).setHandler 0 .piping) :=
    .register (by rw [halone.handlers, hready.phase])
  refine ⟨_, (hlogin.unguard.trans hswitch.unguard).step _ hregister, fun i ↦ ?_, fun hfresh ↦ ?_⟩
  · by_cases hi : i = 0
    · subst hi
      exact .inr ⟨_, _, hreturned⟩
    · exact .inl ((halone.switches i hi).trans (hidle i))
  · have hcurrent : s'.db.current = some (namedTarget (str "prod")) :=
      hfresh 0 ⟨namedTarget (str "prod")⟩ (GoMap.get_insert _ _ _)
    rw [hdb', Database.apply_eq _ horder] at hcurrent
    exact absurd (Option.some.inj hcurrent) (by decide)

/-- It happens to the clients of each of the three protocols. -/
theorem stale_connection_survives :
    (Initial (activeState .postgres (namedTarget (str "prod"))) ∧
      ∃ s, Run Step (activeState .postgres (namedTarget (str "prod"))) s ∧
        Quiescent s ∧ ¬ NoStale s) ∧
    (Initial (activeState .mysql (namedTarget (str "prod"))) ∧
      ∃ s, Run Step (activeState .mysql (namedTarget (str "prod"))) s ∧
        Quiescent s ∧ ¬ NoStale s) ∧
    (Initial (activeState .mongo (namedTarget (str "prod"))) ∧
      ∃ s, Run Step (activeState .mongo (namedTarget (str "prod"))) s ∧
        Quiescent s ∧ ¬ NoStale s) :=
  ⟨⟨initial_activeState _ _, stale_of_late_registration _⟩,
    ⟨initial_activeState _ _, stale_of_late_registration _⟩,
    ⟨initial_activeState _ _, stale_of_late_registration _⟩⟩

end Handover

end DbPivot.Proxy
