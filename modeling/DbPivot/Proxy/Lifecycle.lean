import DbPivot.Go.Bytes
import DbPivot.System.Run
import Mathlib.Data.Finset.Card
import Mathlib.Data.Finset.Insert
import Mathlib.Data.List.Count

/-!
# From `Start` to the end of `Shutdown`

`Start` binds one listener per adapter into a map of its own, hands the map to the server under the
mutex unless the server is closed by then, and runs an accept loop for each listener. An accept loop
counts every connection in the wait group before it starts the handler, and a handler leaves the
group as the last thing it does. `Shutdown` sets the closed flag and takes the published listeners
under the same mutex, closes them, drops the registered connections of each database, and waits for
the group or for its deadline.

A critical section is one step here, as is every call that others can observe. The order in which a
Go map is walked is any order, so what is left of a walk is a finite set. Of any number of calls of
`Shutdown` the one that finds the flag clear does all the work; the others return at once.
-/

namespace DbPivot.Proxy.Lifecycle

open DbPivot.Go DbPivot.System

/-! ## The threads -/

/-- What the server was made for: the adapters it listens for and the databases it serves. -/
structure Served where
  adapters : Finset Bytes
  databases : Finset Bytes

/-- The next step of `Start`. -/
inductive StartPc where
  | idle
  | binding (opened rest : Finset Bytes)
  | unwinding (rest : Finset Bytes)
  | failed
  | discarding (rest : Finset Bytes)
  | discarded
  | launching (rest : Finset Bytes)
  | serving
deriving DecidableEq

/-- The next step of the call of `Shutdown` that set the closed flag. -/
inductive ShutdownPc where
  | idle
  | closing (rest : Finset Bytes)
  | dropping (snapshot : Finset (Bytes × ℕ)) (rest : Finset Bytes)
  | waiting
  | drained
  | expired
deriving DecidableEq

/-- The next step of an accept loop. It is busy from the moment `Accept` gives it a connection until
the connection has its goroutine. -/
inductive Loop where
  | absent
  | accepting
  | busy
  | stopped
deriving DecidableEq

/-- How far an accepted connection has come: it is in the hands of its accept loop, not counted yet;
counted and without a goroutine; in its handler before `Register`; registered on a database;
past its own `Close` or past the error that ended it; and out of the wait group. -/
inductive Phase where
  | accepted (adapter : Bytes)
  | counted (adapter : Bytes)
  | dispatching
  | piping (database : Bytes)
  | returning
  | returned
deriving DecidableEq

/-- The connection is one of those the wait group counts. -/
def Phase.InGroup : Phase → Bool
  | .accepted _ => false
  | .returned => false
  | _ => true

/-- The connections in the order in which they were accepted, the registries of the databases, and
the counter of the wait group. -/
structure Clients where
  conns : List Phase
  registry : Finset (Bytes × ℕ)
  wg : ℕ

/-- The server and all its threads. The listeners that are open at the operating system are apart
from the map that `Start` publishes. -/
structure State where
  closed : Bool
  listeners : Finset Bytes
  listening : Finset Bytes
  start : StartPc
  shutdown : ShutdownPc
  loop : Bytes → Loop
  clients : Clients

def initial : State where
  closed := false
  listeners := ∅
  listening := ∅
  start := .idle
  shutdown := .idle
  loop _ := .absent
  clients := ⟨[], ∅, 0⟩

/-- The thread that takes a step. -/
inductive Thread where
  | start
  | loop (adapter : Bytes)
  | handler (c : ℕ)
  | shutdown

/-! ## Steps -/

/-- `Start`. -/
inductive StartStep (served : Served) (s : State) : State → Prop where
  | begin (hstart : s.start = .idle) :
      StartStep served s { s with start := .binding ∅ served.adapters }
  | listen {opened rest : Finset Bytes} {adapter : Bytes} (hstart : s.start = .binding opened rest)
      (hmem : adapter ∈ rest) :
      StartStep served s
        { s with
          listening := insert adapter s.listening
          start := .binding (insert adapter opened) (rest.erase adapter) }
  | listenFails {opened rest : Finset Bytes} {adapter : Bytes}
      (hstart : s.start = .binding opened rest) (hmem : adapter ∈ rest) :
      StartStep served s { s with start := .unwinding opened }
  | unwind {rest : Finset Bytes} {adapter : Bytes} (hstart : s.start = .unwinding rest)
      (hmem : adapter ∈ rest) :
      StartStep served s
        { s with listening := s.listening.erase adapter, start := .unwinding (rest.erase adapter) }
  | fail (hstart : s.start = .unwinding ∅) : StartStep served s { s with start := .failed }
  | publish {opened : Finset Bytes} (hstart : s.start = .binding opened ∅)
      (hclosed : s.closed = false) :
      StartStep served s { s with listeners := opened, start := .launching opened }
  | seeClosed {opened : Finset Bytes} (hstart : s.start = .binding opened ∅)
      (hclosed : s.closed = true) : StartStep served s { s with start := .discarding opened }
  | discard {rest : Finset Bytes} {adapter : Bytes} (hstart : s.start = .discarding rest)
      (hmem : adapter ∈ rest) :
      StartStep served s
        { s with listening := s.listening.erase adapter, start := .discarding (rest.erase adapter) }
  | discarded (hstart : s.start = .discarding ∅) :
      StartStep served s { s with start := .discarded }
  | launch {rest : Finset Bytes} {adapter : Bytes} (hstart : s.start = .launching rest)
      (hmem : adapter ∈ rest) :
      StartStep served s
        { s with
          loop := Function.update s.loop adapter .accepting
          start := .launching (rest.erase adapter) }
  | launched (hstart : s.start = .launching ∅) : StartStep served s { s with start := .serving }

/-- `acceptLoop`. `Accept` gives a connection only while the listener is open, and may fail at any
time. -/
inductive LoopStep (adapter : Bytes) (s : State) : State → Prop where
  | accept (hloop : s.loop adapter = .accepting) (hopen : adapter ∈ s.listening) :
      LoopStep adapter s
        { s with
          loop := Function.update s.loop adapter .busy
          clients := { s.clients with conns := s.clients.conns ++ [.accepted adapter] } }
  | acceptFails (hloop : s.loop adapter = .accepting) :
      LoopStep adapter s { s with loop := Function.update s.loop adapter .stopped }
  | add {c : ℕ} (hloop : s.loop adapter = .busy)
      (hconn : s.clients.conns[c]? = some (.accepted adapter)) :
      LoopStep adapter s
        { s with
          clients :=
            { s.clients with
              conns := s.clients.conns.set c (.counted adapter), wg := s.clients.wg + 1 } }
  | spawn {c : ℕ} (hloop : s.loop adapter = .busy)
      (hconn : s.clients.conns[c]? = some (.counted adapter)) :
      LoopStep adapter s
        { s with
          loop := Function.update s.loop adapter .accepting
          clients := { s.clients with conns := s.clients.conns.set c .dispatching } }

/-- The handler of a connection. It registers the connection on a database at most once, returns
with an error before that or closes the connection after it, and calls `wg.Done`. -/
inductive HandlerStep (served : Served) (c : ℕ) (s : Clients) : Clients → Prop where
  | register {database : Bytes} (hconn : s.conns[c]? = some .dispatching)
      (hmem : database ∈ served.databases) :
      HandlerStep served c s
        { s with
          conns := s.conns.set c (.piping database), registry := insert (database, c) s.registry }
  | giveUp (hconn : s.conns[c]? = some .dispatching) :
      HandlerStep served c s { s with conns := s.conns.set c .returning }
  | close {database : Bytes} (hconn : s.conns[c]? = some (.piping database)) :
      HandlerStep served c s
        { s with
          conns := s.conns.set c .returning, registry := s.registry.erase (database, c) }
  | done (hconn : s.conns[c]? = some .returning) :
      HandlerStep served c s { s with conns := s.conns.set c .returned, wg := s.wg - 1 }

/-- `Shutdown`. Dropping a connection takes it out of its registry; its handler notices when it
next touches the sockets. -/
inductive ShutdownStep (served : Served) (s : State) : State → Prop where
  | close (hclosed : s.closed = false) :
      ShutdownStep served s { s with closed := true, shutdown := .closing s.listeners }
  | again (hclosed : s.closed = true) : ShutdownStep served s s
  | closeListener {rest : Finset Bytes} {adapter : Bytes} (hshutdown : s.shutdown = .closing rest)
      (hmem : adapter ∈ rest) :
      ShutdownStep served s
        { s with
          listening := s.listening.erase adapter
          shutdown := .closing (rest.erase adapter) }
  | listenersClosed (hshutdown : s.shutdown = .closing ∅) :
      ShutdownStep served s { s with shutdown := .dropping ∅ served.databases }
  | snapshot {rest : Finset Bytes} {database : Bytes} (hshutdown : s.shutdown = .dropping ∅ rest)
      (hmem : database ∈ rest) :
      ShutdownStep served s
        { s with
          shutdown :=
            .dropping (s.clients.registry.filter fun entry ↦ entry.1 = database)
              (rest.erase database) }
  | drop {snapshot : Finset (Bytes × ℕ)} {rest : Finset Bytes} {entry : Bytes × ℕ}
      (hshutdown : s.shutdown = .dropping snapshot rest) (hmem : entry ∈ snapshot) :
      ShutdownStep served s
        { s with
          clients := { s.clients with registry := s.clients.registry.erase entry }
          shutdown := .dropping (snapshot.erase entry) rest }
  | wait (hshutdown : s.shutdown = .dropping ∅ ∅) :
      ShutdownStep served s { s with shutdown := .waiting }
  | drained (hshutdown : s.shutdown = .waiting) (hwg : s.clients.wg = 0) :
      ShutdownStep served s { s with shutdown := .drained }
  | expired (hshutdown : s.shutdown = .waiting) :
      ShutdownStep served s { s with shutdown := .expired }

/-- One step of one thread. -/
inductive Step (served : Served) (s : State) : Thread → State → Prop where
  | start {s' : State} (hstep : StartStep served s s') : Step served s .start s'
  | loop {adapter : Bytes} {s' : State} (hstep : LoopStep adapter s s') :
      Step served s (.loop adapter) s'
  | handler {c : ℕ} {clients : Clients} (hstep : HandlerStep served c s.clients clients) :
      Step served s (.handler c) { s with clients := clients }
  | shutdown {s' : State} (hstep : ShutdownStep served s s') : Step served s .shutdown s'

/-- The states the server can be in. -/
abbrev Reachable (served : Served) (s : State) : Prop := Run (Step served) initial s

/-! ## The hand-over of the listeners

At every moment one of `Start` and `Shutdown` has every open listener on its list of those it is
going to close, until the listeners are published and nobody has called `Shutdown`. -/

namespace StartPc

/-- `Start` has found the server closed. -/
def SawClosed : StartPc → Prop
  | .discarding _ => True
  | .discarded => True
  | _ => False

/-- `Start` has given its listeners to the server. -/
def Published : StartPc → Prop
  | .launching _ => True
  | .serving => True
  | _ => False

/-- `Start` is through with binding: it has failed, closed everything because the server was closed,
or published. -/
def Bound : StartPc → Prop
  | .failed => True
  | .discarded => True
  | .launching _ => True
  | .serving => True
  | _ => False

/-- The listeners that `Start` has opened and not yet closed or given away. -/
def held : StartPc → Finset Bytes
  | .binding opened _ => opened
  | .unwinding rest => rest
  | .discarding rest => rest
  | _ => ∅

end StartPc

namespace ShutdownPc

/-- The call has returned. -/
def Finished : ShutdownPc → Prop
  | .drained => True
  | .expired => True
  | _ => False

/-- Which of the published listeners the call has still to close. -/
def pending (listeners : Finset Bytes) : ShutdownPc → Finset Bytes
  | .idle => listeners
  | .closing rest => rest
  | _ => ∅

theorem pending_of_finished {p : ShutdownPc} (h : p.Finished) (listeners : Finset Bytes) :
    p.pending listeners = ∅ := by
  cases p with
  | drained => rfl
  | expired => rfl
  | _ => exact h.elim

end ShutdownPc

/-- Who closes what. -/
structure HandedOver (s : State) : Prop where
  closed : s.closed = false → s.shutdown = .idle
  held : ¬ s.start.Published → s.listening ⊆ s.start.held
  published : s.start.Published → s.listening ⊆ s.shutdown.pending s.listeners
  absent : ¬ s.start.Published → ∀ adapter, s.loop adapter = .absent

section HandOver

variable {served : Served} {s s' : State}

/-- `Start` moves on before it has published. -/
theorem HandedOver.unpublished (h : HandedOver s) {p q : StartPc} {listening : Finset Bytes}
    (hstart : s.start = p) (hp : ¬ p.Published) (hq : ¬ q.Published)
    (hheld : s.listening ⊆ p.held → listening ⊆ q.held) :
    HandedOver { s with listening := listening, start := q } := by
  subst hstart
  exact ⟨h.closed, fun _ ↦ hheld (h.held hp), fun hyes ↦ (hq hyes).elim, fun _ ↦ h.absent hp⟩

theorem HandedOver.startStep (h : HandedOver s) (hstep : StartStep served s s') :
    HandedOver s' := by
  cases hstep with
  | begin hstart => exact h.unpublished hstart id id id
  | listen hstart _ =>
    exact h.unpublished hstart id id fun hheld ↦ Finset.insert_subset_insert _ hheld
  | listenFails hstart _ => exact h.unpublished hstart id id id
  | unwind hstart _ =>
    exact h.unpublished hstart id id fun hheld ↦ Finset.erase_subset_erase _ hheld
  | fail hstart => exact h.unpublished hstart id id id
  | publish hstart hclosed =>
    have hheld := h.held (hstart ▸ id)
    rw [hstart] at hheld
    refine ⟨h.closed, fun hnot ↦ (hnot trivial).elim, fun _ ↦ ?_, fun hnot ↦ (hnot trivial).elim⟩
    change s.listening ⊆ s.shutdown.pending _
    rw [h.closed hclosed]
    exact hheld
  | seeClosed hstart _ => exact h.unpublished hstart id id id
  | discard hstart _ =>
    exact h.unpublished hstart id id fun hheld ↦ Finset.erase_subset_erase _ hheld
  | discarded hstart => exact h.unpublished hstart id id id
  | launch hstart _ =>
    exact ⟨h.closed, fun hnot ↦ (hnot trivial).elim, fun _ ↦ h.published (hstart ▸ trivial),
      fun hnot ↦ (hnot trivial).elim⟩
  | launched hstart =>
    exact ⟨h.closed, fun hnot ↦ (hnot trivial).elim, fun _ ↦ h.published (hstart ▸ trivial),
      fun hnot ↦ (hnot trivial).elim⟩

/-- An accept loop that does anything was launched, so `Start` has published. -/
theorem HandedOver.published_of_loop (h : HandedOver s) {adapter : Bytes} {p : Loop}
    (hloop : s.loop adapter = p) (hp : p ≠ .absent) : s.start.Published := by
  by_contra hnot
  exact hp (hloop.symm.trans (h.absent hnot adapter))

theorem HandedOver.loopStep {adapter : Bytes} (h : HandedOver s) (hstep : LoopStep adapter s s') :
    HandedOver s' := by
  cases hstep with
  | accept hloop _ =>
    exact ⟨h.closed, h.held, h.published, fun hnot ↦ (hnot (h.published_of_loop hloop nofun)).elim⟩
  | acceptFails hloop =>
    exact ⟨h.closed, h.held, h.published, fun hnot ↦ (hnot (h.published_of_loop hloop nofun)).elim⟩
  | add _ _ => exact ⟨h.closed, h.held, h.published, h.absent⟩
  | spawn hloop _ =>
    exact ⟨h.closed, h.held, h.published, fun hnot ↦ (hnot (h.published_of_loop hloop nofun)).elim⟩

/-- `Shutdown` moves on after it has set the flag. -/
theorem HandedOver.closing (h : HandedOver s) {p q : ShutdownPc} {listening : Finset Bytes}
    {clients : Clients} (hshutdown : s.shutdown = p) (hp : p ≠ .idle)
    (hsubset : listening ⊆ s.listening)
    (hpending : s.listening ⊆ p.pending s.listeners → listening ⊆ q.pending s.listeners) :
    HandedOver { s with listening := listening, shutdown := q, clients := clients } := by
  subst hshutdown
  exact ⟨fun hopen ↦ (hp (h.closed hopen)).elim, fun hnot ↦ hsubset.trans (h.held hnot),
    fun hyes ↦ hpending (h.published hyes), h.absent⟩

theorem HandedOver.shutdownStep (h : HandedOver s) (hstep : ShutdownStep served s s') :
    HandedOver s' := by
  have hsame : s.listening ⊆ s.listening := Finset.Subset.refl _
  cases hstep with
  | close hopen =>
    refine ⟨nofun, h.held, fun hyes ↦ ?_, h.absent⟩
    have hpending := h.published hyes
    rw [h.closed hopen] at hpending
    exact hpending
  | again _ => exact h
  | closeListener hshutdown _ =>
    exact h.closing hshutdown nofun (Finset.erase_subset _ _)
      fun hpending ↦ Finset.erase_subset_erase _ hpending
  | listenersClosed hshutdown => exact h.closing hshutdown nofun hsame id
  | snapshot hshutdown _ => exact h.closing hshutdown nofun hsame id
  | drop hshutdown _ => exact h.closing hshutdown nofun hsame id
  | wait hshutdown => exact h.closing hshutdown nofun hsame id
  | drained hshutdown _ => exact h.closing hshutdown nofun hsame id
  | expired hshutdown => exact h.closing hshutdown nofun hsame id

theorem HandedOver.step {thread : Thread} (h : HandedOver s) (hstep : Step served s thread s') :
    HandedOver s' := by
  cases hstep with
  | start hstep => exact h.startStep hstep
  | loop hstep => exact h.loopStep hstep
  | handler _ => exact ⟨h.closed, h.held, h.published, h.absent⟩
  | shutdown hstep => exact h.shutdownStep hstep

theorem handedOver_of_reachable (h : Reachable served s) : HandedOver s := by
  apply Run.invariant _ _ h
  · exact ⟨fun _ ↦ rfl, fun _ ↦ Finset.Subset.refl _, fun hp ↦ hp.elim, fun _ _ ↦ rfl⟩
  · intro t event t' ht hstep
    exact ht.step hstep

theorem StartPc.SawClosed.not_published {p : StartPc} (h : p.SawClosed) : ¬ p.Published := by
  cases p with
  | discarding _ => exact id
  | discarded => exact id
  | _ => exact h.elim

theorem StartPc.Bound.held_eq {p : StartPc} (h : p.Bound) : p.held = ∅ := by
  cases p with
  | failed => rfl
  | discarded => rfl
  | launching _ => rfl
  | serving => rfl
  | _ => exact h.elim

/-- What `Start` found under the mutex stays found. -/
theorem sawClosed_step {thread : Thread} (h : s.start.SawClosed) (hstep : Step served s thread s') :
    s'.start.SawClosed := by
  cases hstep with
  | start hstep =>
    cases hstep with
    | seeClosed _ _ => trivial
    | discard _ _ => trivial
    | discarded _ => trivial
    | begin hstart => exact (hstart ▸ h : StartPc.SawClosed .idle).elim
    | listen hstart _ => exact (hstart ▸ h : StartPc.SawClosed (.binding _ _)).elim
    | listenFails hstart _ => exact (hstart ▸ h : StartPc.SawClosed (.binding _ _)).elim
    | unwind hstart _ => exact (hstart ▸ h : StartPc.SawClosed (.unwinding _)).elim
    | fail hstart => exact (hstart ▸ h : StartPc.SawClosed (.unwinding _)).elim
    | publish hstart _ => exact (hstart ▸ h : StartPc.SawClosed (.binding _ _)).elim
    | launch hstart _ => exact (hstart ▸ h : StartPc.SawClosed (.launching _)).elim
    | launched hstart => exact (hstart ▸ h : StartPc.SawClosed (.launching _)).elim
  | loop hstep => cases hstep <;> exact h
  | handler _ => exact h
  | shutdown hstep => cases hstep <;> exact h

theorem sawClosed_run (h : s.start.SawClosed) (hrun : Run (Step served) s s') :
    s'.start.SawClosed := by
  induction hrun with
  | refl => exact h
  | step _ _ hstep ih => exact sawClosed_step ih hstep

/-- Nothing that `Start` opened is left open once it has failed to bind, or once it is through with
binding and the call of `Shutdown` that set the flag has returned; and if it finds the server
closed, no accept loop ever runs. -/
theorem no_listener_outlives (hrun : Reachable served s) :
    (s.start = .failed → s.listening = ∅) ∧
      (s.shutdown.Finished → s.start.Bound → s.listening = ∅) ∧
      (s.start.SawClosed →
        ∀ s', Run (Step served) s s' → ∀ adapter, s'.loop adapter = .absent) := by
  have hover := handedOver_of_reachable hrun
  have hunpublished : s.start.Bound → ¬ s.start.Published → s.listening = ∅ := by
    intro hbound hnot
    have hheld := hover.held hnot
    rw [hbound.held_eq] at hheld
    exact Finset.subset_empty.mp hheld
  refine ⟨fun hfailed ↦ ?_, fun hfinished hbound ↦ ?_, fun hsaw s' hlater adapter ↦ ?_⟩
  · exact hunpublished (hfailed ▸ trivial) (hfailed ▸ id)
  · by_cases hpublished : s.start.Published
    · have hpending := hover.published hpublished
      rw [ShutdownPc.pending_of_finished hfinished] at hpending
      exact Finset.subset_empty.mp hpending
    · exact hunpublished hbound hpublished
  · have hnot := (sawClosed_run hsaw hlater).not_published
    exact (handedOver_of_reachable (hrun.trans hlater)).absent hnot adapter

end HandOver

/-- One adapter and one database. -/
def single : Served where
  adapters := {str "postgres"}
  databases := {str "app"}

theorem binding_single :
    StartPc.binding (insert (str "postgres") ∅) (single.adapters.erase (str "postgres")) =
      .binding {str "postgres"} ∅ := by decide

/-- `Shutdown` returns while `Start` is binding, and `Start` finds the server closed. -/
theorem no_listener_outlives_early_shutdown :
    ∃ s, Reachable single s ∧ s.shutdown = .drained ∧ s.start = .discarded ∧ s.listening = ∅ ∧
      ∀ s', Run (Step single) s s' → ∀ adapter, s'.loop adapter = .absent := by
  have h1 : Reachable single _ := .step .start .refl (.start (.begin rfl))
  have h2 := h1.step .shutdown (.shutdown (.close rfl))
  have h3 := h2.step .start (.start (.listen rfl (Finset.mem_singleton_self (str "postgres"))))
  have h4 := h3.step .shutdown (.shutdown (.listenersClosed rfl))
  have h5 := h4.step .shutdown (.shutdown (.snapshot rfl (Finset.mem_singleton_self (str "app"))))
  have h6 := h5.step .shutdown (.shutdown (.wait (by decide)))
  have h7 := h6.step .shutdown (.shutdown (.drained rfl rfl))
  have h8 := h7.step .start (.start (.seeClosed binding_single rfl))
  have h9 := h8.step .start (.start (.discard rfl (Finset.mem_singleton_self (str "postgres"))))
  have h10 := h9.step .start (.start (.discarded (by decide)))
  have hclosed := no_listener_outlives h10
  exact ⟨_, h10, rfl, rfl, hclosed.2.1 trivial trivial, hclosed.2.2 trivial⟩

/-! ## The wait group

The counter is the number of connections between `wg.Add` and `wg.Done`, and a registered connection
is between the two. -/

/-- What the counter and the registries say about the connections. -/
structure Accounted (s : Clients) : Prop where
  wg : s.wg = s.conns.countP Phase.InGroup
  registered : ∀ database c, (database, c) ∈ s.registry → s.conns[c]? = some (.piping database)

section Accounts

variable {served : Served} {conns : List Phase} {c : ℕ} {p q : Phase} {s s' : Clients}

theorem countP_set_add (hconn : conns[c]? = some p) (q : Phase) :
    (conns.set c q).countP Phase.InGroup + p.InGroup.toNat =
      conns.countP Phase.InGroup + q.InGroup.toNat := by
  rcases List.getElem?_eq_some_iff.mp hconn with ⟨hlt, hp⟩
  have hpos : p.InGroup → 0 < conns.countP Phase.InGroup := fun hin ↦
    List.countP_pos_iff.mpr ⟨p, hp ▸ List.getElem_mem hlt, hin⟩
  rw [List.countP_set hlt, hp]
  cases hin : p.InGroup with
  | false => cases q.InGroup <;> simp
  | true =>
    have := hpos hin
    cases q.InGroup <;> simp <;> omega

/-- Changing a connection that is not registered leaves the registered ones where they are. -/
theorem getElem?_set_of_registered {registry : Finset (Bytes × ℕ)}
    (h : ∀ database c, (database, c) ∈ registry → conns[c]? = some (.piping database))
    (hconn : conns[c]? = some p) (hp : ∀ database, p ≠ .piping database) (database : Bytes) (d : ℕ)
    (hmem : (database, d) ∈ registry) : (conns.set c q)[d]? = some (.piping database) := by
  have hd := h database d hmem
  have hne : c ≠ d := by
    rintro rfl
    exact hp database (Option.some.inj (hconn.symm.trans hd))
  rw [List.getElem?_set_ne hne]
  exact hd

theorem Accounted.set (h : Accounted s) (hconn : s.conns[c]? = some p)
    (hp : ∀ database, p ≠ .piping database) {wg : ℕ}
    (hwg : wg + p.InGroup.toNat = s.wg + q.InGroup.toNat) :
    Accounted { s with conns := s.conns.set c q, wg := wg } := by
  refine ⟨?_, getElem?_set_of_registered h.registered hconn hp⟩
  have hcount := countP_set_add hconn q
  have := h.wg
  change wg = (s.conns.set c q).countP Phase.InGroup
  omega

theorem Accounted.handlerStep (h : Accounted s) (hstep : HandlerStep served c s s') :
    Accounted s' := by
  cases hstep with
  | @register database hconn _ =>
    have hset : Accounted { s with conns := s.conns.set c (.piping database), wg := s.wg } :=
      h.set hconn nofun rfl
    refine ⟨hset.wg, fun name d hmem ↦ ?_⟩
    rcases Finset.mem_insert.mp hmem with heq | hold
    · obtain ⟨rfl, rfl⟩ := Prod.mk.inj heq
      exact List.getElem?_set_self (List.getElem?_eq_some_iff.mp hconn).1
    · exact hset.registered name d hold
  | giveUp hconn => exact h.set hconn nofun rfl
  | @close database hconn =>
    refine ⟨?_, fun name d hmem ↦ ?_⟩
    · have hcount := countP_set_add hconn .returning
      have := h.wg
      change s.wg = (s.conns.set c .returning).countP Phase.InGroup
      simp only [Phase.InGroup, Bool.toNat_true] at hcount
      omega
    · rcases Finset.mem_erase.mp hmem with ⟨hother, hold⟩
      have hd := h.registered name d hold
      have hne : c ≠ d := by
        rintro rfl
        have hsame := Phase.piping.inj (Option.some.inj (hconn.symm.trans hd))
        exact hother (hsame ▸ rfl)
      change (s.conns.set c .returning)[d]? = _
      rw [List.getElem?_set_ne hne]
      exact hd
  | done hconn =>
    have hpos : 0 < s.wg := by
      rw [h.wg]
      exact List.countP_pos_iff.mpr ⟨.returning, List.mem_of_getElem? hconn, rfl⟩
    have hwg : s.wg - 1 + 1 = s.wg + 0 := by omega
    exact h.set hconn nofun hwg

end Accounts

section Drain

variable {served : Served} {s s' : State}

theorem Accounted.loopStep {adapter : Bytes} (h : Accounted s.clients)
    (hstep : LoopStep adapter s s') : Accounted s'.clients := by
  cases hstep with
  | accept _ _ =>
    refine ⟨?_, fun database c hmem ↦ ?_⟩
    · change s.clients.wg = (s.clients.conns ++ [Phase.accepted adapter]).countP Phase.InGroup
      rw [List.countP_append, h.wg]
      rfl
    · have hc := h.registered database c hmem
      have hlt := (List.getElem?_eq_some_iff.mp hc).1
      change (s.clients.conns ++ [Phase.accepted adapter])[c]? = _
      rw [List.getElem?_append_left hlt]
      exact hc
  | acceptFails _ => exact h
  | add _ hconn => exact h.set hconn nofun rfl
  | spawn _ hconn => exact h.set hconn nofun rfl

theorem Accounted.shutdownStep (h : Accounted s.clients) (hstep : ShutdownStep served s s') :
    Accounted s'.clients := by
  cases hstep with
  | drop _ _ =>
    exact ⟨h.wg, fun database c hmem ↦ h.registered database c (Finset.mem_of_mem_erase hmem)⟩
  | _ => exact h

theorem Accounted.step {thread : Thread} (h : Accounted s.clients)
    (hstep : Step served s thread s') : Accounted s'.clients := by
  cases hstep with
  | start hstep => cases hstep <;> exact h
  | loop hstep => exact h.loopStep hstep
  | handler hstep => exact h.handlerStep hstep
  | shutdown hstep => exact h.shutdownStep hstep

theorem accounted_of_reachable (h : Reachable served s) : Accounted s.clients := by
  induction h with
  | refl => exact ⟨rfl, nofun⟩
  | step _ _ hstep ih => exact ih.step hstep

/-! ## What `Shutdown` leaves behind -/

/-- Every handler has returned and no database has a connection. -/
structure Quiet (s : Clients) : Prop where
  conns : ∀ p ∈ s.conns, p = .returned
  registry : s.registry = ∅

/-- With the counter at zero, all that can be left is what an accept loop has not counted. -/
theorem Accounted.quiet {s : Clients} (h : Accounted s) (hwg : s.wg = 0)
    (hcounted : ∀ adapter, Phase.accepted adapter ∉ s.conns) : Quiet s := by
  have hout : ∀ p ∈ s.conns, ¬ p.InGroup := List.countP_eq_zero.mp (h.wg.symm.trans hwg)
  constructor
  · intro p hp
    cases p with
    | accepted adapter => exact (hcounted adapter hp).elim
    | returned => rfl
    | _ => exact (hout _ hp rfl).elim
  · apply Finset.eq_empty_of_forall_notMem
    rintro ⟨database, c⟩ hmem
    exact hout _ (List.mem_of_getElem? (h.registered database c hmem)) rfl

theorem Quiet.elim {s : Clients} (h : Quiet s) {c : ℕ} {p : Phase} (hconn : s.conns[c]? = some p)
    (hp : p ≠ .returned) : False :=
  hp (h.conns p (List.mem_of_getElem? hconn))

/-- Once the wait has finished no listener is open for an accept loop, so nothing stirs again. -/
theorem Quiet.step {thread : Thread} (h : Quiet s.clients) (hover : HandedOver s)
    (hdrained : s.shutdown = .drained) (hstep : Step served s thread s') :
    Quiet s'.clients ∧ s'.shutdown = .drained := by
  cases hstep with
  | start hstep => cases hstep <;> exact ⟨h, hdrained⟩
  | loop hstep =>
    cases hstep with
    | accept hloop hopen =>
      have hpending := hover.published (hover.published_of_loop hloop nofun)
      rw [hdrained] at hpending
      exact absurd (hpending hopen) (Finset.notMem_empty _)
    | acceptFails _ => exact ⟨h, hdrained⟩
    | add _ hconn => exact (h.elim hconn nofun).elim
    | spawn _ hconn => exact (h.elim hconn nofun).elim
  | handler hstep =>
    cases hstep with
    | register hconn _ => exact (h.elim hconn nofun).elim
    | giveUp hconn => exact (h.elim hconn nofun).elim
    | close hconn => exact (h.elim hconn nofun).elim
    | done hconn => exact (h.elim hconn nofun).elim
  | shutdown hstep =>
    cases hstep with
    | close hopen => exact absurd (hdrained.symm.trans (hover.closed hopen)) nofun
    | again _ => exact ⟨h, hdrained⟩
    | closeListener hshutdown _ => exact absurd (hdrained.symm.trans hshutdown) nofun
    | listenersClosed hshutdown => exact absurd (hdrained.symm.trans hshutdown) nofun
    | snapshot hshutdown _ => exact absurd (hdrained.symm.trans hshutdown) nofun
    | drop hshutdown _ => exact absurd (hdrained.symm.trans hshutdown) nofun
    | wait hshutdown => exact absurd (hdrained.symm.trans hshutdown) nofun
    | drained hshutdown _ => exact absurd (hdrained.symm.trans hshutdown) nofun
    | expired hshutdown => exact absurd (hdrained.symm.trans hshutdown) nofun

theorem Quiet.run (hreach : Reachable served s) (h : Quiet s.clients)
    (hdrained : s.shutdown = .drained) (hrun : Run (Step served) s s') :
    Quiet s'.clients ∧ s'.shutdown = .drained := by
  induction hrun with
  | refl => exact ⟨h, hdrained⟩
  | step _ hrun hstep ih =>
    exact ih.1.step (handedOver_of_reachable (hreach.trans hrun)) ih.2 hstep

/-- `Shutdown` returns because its wait has finished. Then every handler has returned for good and
every registry is empty, exactly if no accept loop was between `Accept` and `wg.Add` at the end of
the wait. -/
theorem drained_iff (hreach : Reachable served s) (hwait : s.shutdown = .waiting)
    (hwg : s.clients.wg = 0) :
    (∀ s', Run (Step served) { s with shutdown := .drained } s' → Quiet s'.clients) ↔
      ∀ adapter, Phase.accepted adapter ∉ s.clients.conns := by
  constructor
  · intro hquiet adapter hmem
    have hreturned := (hquiet _ .refl).conns _ hmem
    cases hreturned
  · intro hcounted s' hrun
    have hquiet : Quiet s.clients := (accounted_of_reachable hreach).quiet hwg hcounted
    have hdrained : Reachable served { s with shutdown := .drained } :=
      hreach.step .shutdown (.shutdown (.drained hwait hwg))
    exact (Quiet.run hdrained hquiet rfl hrun).1

end Drain

/-- `Start` is serving and its accept loop has been given a connection. -/
theorem exists_accepted : ∃ s, Reachable single s ∧ s.closed = false ∧
    s.listeners = {str "postgres"} ∧ s.shutdown = .idle ∧ s.loop (str "postgres") = .busy ∧
    s.clients = ⟨[.accepted (str "postgres")], ∅, 0⟩ := by
  have h1 : Reachable single _ := .step .start .refl (.start (.begin rfl))
  have h2 := h1.step .start (.start (.listen rfl (Finset.mem_singleton_self (str "postgres"))))
  have h3 := h2.step .start (.start (.publish binding_single rfl))
  have h4 := h3.step .start (.start (.launch rfl (Finset.mem_singleton_self (str "postgres"))))
  have h5 := h4.step (.loop (str "postgres")) (.loop (.accept (by decide) (by decide)))
  exact ⟨_, h5, rfl, rfl, rfl, by decide, rfl⟩

/-- Nothing is registered when `Shutdown` comes, and it gets as far as the wait. -/
theorem exists_waiting {s : State} (hreach : Reachable single s) (hclosed : s.closed = false)
    (hlisteners : s.listeners = {str "postgres"}) (hregistry : s.clients.registry = ∅) :
    ∃ t, Reachable single t ∧ t.shutdown = .waiting ∧ t.loop = s.loop ∧ t.clients = s.clients := by
  have hrest : ShutdownPc.closing (({str "postgres"} : Finset Bytes).erase (str "postgres")) =
      .closing ∅ := by decide
  have h1 := hreach.step .shutdown (.shutdown (.close hclosed))
  rw [hlisteners] at h1
  have h2 := h1.step .shutdown
    (.shutdown (.closeListener rfl (Finset.mem_singleton_self (str "postgres"))))
  have h3 := h2.step .shutdown (.shutdown (.listenersClosed hrest))
  have h4 := h3.step .shutdown
    (.shutdown (.snapshot rfl (Finset.mem_singleton_self (str "app"))))
  have h5 := h4.step .shutdown (.shutdown (.wait (by simp only [hregistry]; decide)))
  exact ⟨_, h5, rfl, rfl, rfl⟩

/-- A client connects, its handler gives up, and the server is shut down. -/
theorem drained_iff_served :
    ∃ s, Reachable single s ∧ s.shutdown = .waiting ∧ s.clients.conns = [.returned] ∧
      ∀ s', Run (Step single) { s with shutdown := .drained } s' → Quiet s'.clients := by
  obtain ⟨⟨closed, listeners, listening, start, shutdown, loop, clients⟩, hreach, hclosed,
    hlisteners, -, hloop, hclients⟩ := exists_accepted
  have hbusy : loop (str "postgres") = .busy := hloop
  subst hclients
  have h1 := hreach.step (.loop (str "postgres")) (.loop (.add (c := 0) hbusy rfl))
  have h2 := h1.step (.loop (str "postgres")) (.loop (.spawn (c := 0) hbusy rfl))
  have h3 := h2.step (.handler 0) (.handler (.giveUp rfl))
  have h4 := h3.step (.handler 0) (.handler (.done rfl))
  obtain ⟨t, hwaiting, hshutdown, -, hsame⟩ := exists_waiting h4 hclosed hlisteners rfl
  refine ⟨t, hwaiting, hshutdown, congrArg Clients.conns hsame, ?_⟩
  apply (drained_iff hwaiting hshutdown (congrArg Clients.wg hsame)).mpr
  rw [hsame]
  exact fun _ hmem ↦ nomatch List.mem_singleton.mp hmem

/-- A connection that was accepted and not yet counted when the wait finished: its handler starts
after `Shutdown` has returned, registers the connection and serves it. -/
theorem handler_starts_after_shutdown :
    ∃ s s', Reachable single s ∧ s.shutdown = .waiting ∧ s.clients.wg = 0 ∧
      Run (Step single) { s with shutdown := .drained } s' ∧
      s'.clients.conns = [.piping (str "app")] ∧ s'.clients.registry = {(str "app", 0)} := by
  obtain ⟨s, hreach, hclosed, hlisteners, -, hloop, hclients⟩ := exists_accepted
  obtain ⟨⟨closed, listeners, listening, start, shutdown, loop, clients⟩, hwaiting, hshutdown,
    hloops, hsame⟩ := exists_waiting hreach hclosed hlisteners (hclients ▸ rfl)
  have hheld : clients = ⟨[.accepted (str "postgres")], ∅, 0⟩ := hsame.trans hclients
  have hbusy : loop (str "postgres") = .busy := (congrFun hloops _).trans hloop
  subst hheld
  have h1 : Run (Step single) ⟨closed, listeners, listening, start, .drained, loop,
      ⟨[.accepted (str "postgres")], ∅, 0⟩⟩ _ :=
    .step (.loop (str "postgres")) .refl (.loop (.add (c := 0) hbusy rfl))
  have h2 := h1.step (.loop (str "postgres")) (.loop (.spawn (c := 0) hbusy rfl))
  have h3 := h2.step (.handler 0)
    (.handler (.register rfl (Finset.mem_singleton_self (str "app"))))
  exact ⟨_, _, hwaiting, hshutdown, rfl, h3, rfl, rfl⟩

end DbPivot.Proxy.Lifecycle
