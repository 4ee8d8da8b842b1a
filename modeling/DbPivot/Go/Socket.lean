import DbPivot.Go.Fault

/-!
# Programs on a connection

A `net.Conn` that one goroutine reads and writes is given by what its peer is going to send before
it closes, what has been written to it so far, and how many more bytes it takes before a write
fails. A program on it reads and writes in turn and may stop with an error anywhere; what it has
read and written by then is not undone.

`Transfer` says what a successful program took from the input and added to the output, and composes
along the program.
-/

namespace DbPivot.Go

/-- One end of a connection; without a bound in `room` no write fails. -/
structure Socket where
  input : Bytes
  output : Bytes
  room : Option ℕ

/-- A program on a connection: its result, and the connection after it. -/
structure SocketM (α : Type) where
  run : Socket → GoM GoError α × Socket

variable {α β : Type}

instance : Monad SocketM where
  pure value := ⟨fun s ↦ (.ok value, s)⟩
  bind first next := ⟨fun s ↦
    match first.run s with
    | (.ok value, s') => (next value).run s'
    | (.error fault, s') => (.error fault, s')⟩

namespace SocketM

/-- A computation that does not use the connection. -/
def lift (computation : GoM GoError α) : SocketM α := ⟨fun s ↦ (computation, s)⟩

/-- `fmt.Errorf` around the errors of a program. -/
def wrap (change : GoError → GoError) (program : SocketM α) : SocketM α :=
  ⟨fun s ↦ (mapErr change (program.run s).1, (program.run s).2)⟩

@[simp]
theorem run_pure (value : α) (s : Socket) : (pure value : SocketM α).run s = (.ok value, s) := rfl

@[simp]
theorem run_lift (computation : GoM GoError α) (s : Socket) :
    (lift computation).run s = (computation, s) := rfl

theorem run_bind (first : SocketM α) (next : α → SocketM β) (s : Socket) :
    (first >>= next).run s =
      match first.run s with
      | (.ok value, s') => (next value).run s'
      | (.error fault, s') => (.error fault, s') := rfl

theorem ext {first second : SocketM α} (h : ∀ s, first.run s = second.run s) : first = second := by
  cases first
  cases second
  exact congrArg mk (funext h)

instance : LawfulMonad SocketM := LawfulMonad.mk' SocketM
  (fun program ↦ ext fun s ↦ by
    change (program >>= pure).run s = program.run s
    rw [run_bind]
    rcases program.run s with ⟨_ | value, middle⟩ <;> rfl)
  (fun _ _ ↦ rfl)
  (fun first second third ↦ ext fun s ↦ by
    simp only [run_bind]
    rcases first.run s with ⟨_ | value, middle⟩ <;> rfl)

theorem bind_eq_ok {first : SocketM α} {next : α → SocketM β} {s s' : Socket} {result : β} :
    (first >>= next).run s = (.ok result, s') ↔
      ∃ value middle, first.run s = (.ok value, middle) ∧
        (next value).run middle = (.ok result, s') := by
  rw [run_bind]
  rcases first.run s with ⟨_ | value, middle⟩
  · simp
  · simp

theorem bind_of_ok {first : SocketM α} {s middle : Socket} {value : α}
    (hfirst : first.run s = (.ok value, middle)) (next : α → SocketM β) :
    (first >>= next).run s = (next value).run middle := by
  rw [run_bind, hfirst]

theorem bind_of_fail {first : SocketM α} {s middle : Socket} {error : GoError}
    (hfirst : first.run s = (fail error, middle)) (next : α → SocketM β) :
    (first >>= next).run s = (fail error, middle) := by
  rw [run_bind, hfirst]
  rfl

theorem bind_congr_run {first : SocketM α} {next next' : α → SocketM β} {s : Socket}
    (h : ∀ value s', first.run s = (.ok value, s') → (next value).run s' = (next' value).run s') :
    (first >>= next).run s = (first >>= next').run s := by
  rw [run_bind, run_bind]
  rcases hrun : first.run s with ⟨fault | value, s'⟩
  · rfl
  · exact h value s' hrun

theorem bind_lift_of_ok {computation : GoM GoError α} {value : α} (h : computation = .ok value)
    (next : α → SocketM β) (s : Socket) :
    (lift computation >>= next).run s = (next value).run s := by
  rw [h, run_bind, run_lift]

theorem bind_refuse_of_not {cond : Prop} [Decidable cond] (h : ¬ cond) (error : GoError)
    (next : Unit → SocketM β) (s : Socket) :
    (lift (refuse cond error) >>= next).run s = (next ()).run s :=
  bind_lift_of_ok (refuse_eq_ok.mpr h) next s

theorem returns_run_bind {first : SocketM α} {next : α → SocketM β} {s : Socket}
    (hfirst : Returns (first.run s).1) (hnext : ∀ value s', Returns ((next value).run s').1) :
    Returns ((first >>= next).run s).1 := by
  rw [run_bind]
  rcases hresult : first.run s with ⟨fault | value, middle⟩
  · rw [hresult] at hfirst
    cases fault with
    | panic => exact hfirst
    | outOfFuel => exact hfirst
    | err error => trivial
  · exact hnext value middle

theorem pure_eq_ok {value result : α} {s s' : Socket} :
    (pure value : SocketM α).run s = (.ok result, s') ↔ value = result ∧ s = s' := by
  rw [run_pure, Prod.mk.injEq, Except.ok.injEq]

theorem lift_eq_ok {computation : GoM GoError α} {s s' : Socket} {result : α} :
    (lift computation).run s = (.ok result, s') ↔ computation = .ok result ∧ s = s' := by
  rw [run_lift, Prod.mk.injEq]

theorem wrap_eq_ok {change : GoError → GoError} {program : SocketM α} {s s' : Socket} {result : α} :
    (wrap change program).run s = (.ok result, s') ↔ program.run s = (.ok result, s') := by
  rw [wrap, Prod.mk.injEq, mapErr_eq_ok, ← Prod.mk.injEq]

theorem wrap_of_fail {program : SocketM α} {s s' : Socket} {error : GoError}
    (h : program.run s = (fail error, s')) (change : GoError → GoError) :
    (wrap change program).run s = (fail (change error), s') := by
  simp only [wrap, h]
  rfl

end SocketM

/-! ## Reading and writing -/

def eof : GoError := errorf "EOF" []

def unexpectedEOF : GoError := errorf "unexpected EOF" []

/-- The error of a failed write, whatever the system says. -/
def writeError : GoError := errorf "write: broken pipe" []

/-- `io.ReadFull` into a buffer of `n` bytes. -/
def readFull (n : ℕ) : SocketM Bytes := ⟨fun s ↦
  if n ≤ s.input.length then (.ok (s.input.take n), { s with input := s.input.drop n })
  else (fail (if s.input = [] then eof else unexpectedEOF), { s with input := [] })⟩

/-- `Write`: what fits goes out even when the write fails. -/
def write (bytes : Bytes) : SocketM Unit := ⟨fun s ↦
  match s.room with
  | none => (.ok (), { s with output := s.output ++ bytes })
  | some room =>
    if bytes.length ≤ room then
      (.ok (), { s with output := s.output ++ bytes, room := some (room - bytes.length) })
    else (fail writeError, { s with output := s.output ++ bytes.take room, room := some 0 })⟩

theorem readFull_eq_ok {n : ℕ} {s s' : Socket} {bytes : Bytes} :
    (readFull n).run s = (.ok bytes, s') ↔
      bytes.length = n ∧ s = { s' with input := bytes ++ s'.input } := by
  simp only [readFull]
  constructor
  · intro h
    split at h
    next hle =>
      rcases Prod.mk.inj h with ⟨hbytes, hs⟩
      rw [← Except.ok.inj hbytes, ← hs]
      refine ⟨?_, ?_⟩
      · rw [List.length_take]
        omega
      · simp only [List.take_append_drop]
    next => exact absurd (Prod.mk.inj h).1 (fail_ne_ok _ _)
  · intro h
    rcases h with ⟨rfl, rfl⟩
    have hle : bytes.length ≤ (bytes ++ s'.input).length := by
      rw [List.length_append]
      omega
    simp only [hle, if_true, List.take_left, List.drop_left]

theorem returns_readFull (n : ℕ) (s : Socket) : Returns ((readFull n).run s).1 := by
  simp only [readFull]
  split <;> trivial

/-- Reading writes nothing. -/
theorem output_readFull (n : ℕ) (s : Socket) : ((readFull n).run s).2.output = s.output := by
  simp only [readFull]
  split <;> rfl

/-- The program writes nothing. -/
def SocketM.Silent (program : SocketM α) : Prop :=
  ∀ s, (program.run s).2.output = s.output

theorem silent_readFull (n : ℕ) : (readFull n).Silent := output_readFull n

theorem silent_lift (computation : GoM GoError α) : (SocketM.lift computation).Silent :=
  fun _ ↦ rfl

theorem SocketM.Silent.bind {first : SocketM α} {next : α → SocketM β} (hfirst : first.Silent)
    (hnext : ∀ value, (next value).Silent) : (first >>= next).Silent := by
  intro s
  have houtput := hfirst s
  rw [run_bind]
  rcases hrun : first.run s with ⟨fault | value, middle⟩
  · rw [hrun] at houtput
    exact houtput
  · rw [hrun] at houtput
    exact (hnext value middle).trans houtput

theorem returns_write (bytes : Bytes) (s : Socket) : Returns ((write bytes).run s).1 := by
  simp only [write]
  split
  · trivial
  · split <;> trivial

/-- A write that takes everything. -/
theorem write_of_room {bytes : Bytes} {s : Socket} (hroom : s.room = none) :
    (write bytes).run s = (.ok (), { s with output := s.output ++ bytes }) := by
  simp only [write, hroom]

/-- Two writes in a row are one write of everything, also when they fail half way. -/
theorem write_append (first second : Bytes) :
    write (first ++ second) = (do write first; write second) := by
  apply SocketM.ext
  intro s
  rcases s with ⟨input, output, room⟩
  rw [SocketM.run_bind]
  cases room with
  | none => simp only [write, List.append_assoc]
  | some room =>
    by_cases hfirst : first.length ≤ room
    · by_cases hsecond : second.length ≤ room - first.length
      · have hboth : (first ++ second).length ≤ room := by
          rw [List.length_append]
          omega
        have hleft : room - (first ++ second).length = room - first.length - second.length := by
          rw [List.length_append]
          omega
        simp only [write, hfirst, hsecond, hboth, hleft, if_true, List.append_assoc]
      · have hboth : ¬ (first ++ second).length ≤ room := by
          rw [List.length_append]
          omega
        have htake : (first ++ second).take room = first ++ second.take (room - first.length) := by
          rw [List.take_append, List.take_of_length_le hfirst]
        simp only [write, hfirst, hsecond, hboth, if_true, if_false, htake, List.append_assoc]
    · have hboth : ¬ (first ++ second).length ≤ room := by
        rw [List.length_append]
        omega
      have htake : (first ++ second).take room = first.take room :=
        List.take_append_of_le_length (by omega)
      simp only [write, hfirst, hboth, if_false, htake, fail]

/-- A write adds a beginning of the bytes to the output, and all of them when it succeeds. -/
theorem run_write (bytes : Bytes) (s : Socket) :
    ∃ written, written <+: bytes ∧ ((write bytes).run s).2.output = s.output ++ written ∧
      ((write bytes).run s).2.input = s.input ∧
      (((write bytes).run s).1 = .ok () → written = bytes) := by
  rcases s with ⟨input, output, room⟩
  cases room with
  | none => exact ⟨bytes, List.prefix_rfl, rfl, rfl, fun _ ↦ rfl⟩
  | some room =>
    by_cases hroom : bytes.length ≤ room
    · simp only [write, hroom, if_true]
      exact ⟨bytes, List.prefix_rfl, rfl, trivial, fun _ ↦ rfl⟩
    · simp only [write, hroom, if_false]
      exact ⟨bytes.take room, List.take_prefix room bytes, rfl, trivial,
        fun hok ↦ absurd hok (fail_ne_ok _ _)⟩

/-! ## What a program transfers -/

/-- The program took `received` from the input and added `sent` to the output. -/
structure Transfer (s s' : Socket) (received sent : Bytes) : Prop where
  input : s.input = received ++ s'.input
  output : s'.output = s.output ++ sent

theorem Transfer.refl (s : Socket) : Transfer s s [] [] := ⟨rfl, (List.append_nil _).symm⟩

theorem Transfer.trans {s middle s' : Socket} {received received' sent sent' : Bytes}
    (hfirst : Transfer s middle received sent) (hsecond : Transfer middle s' received' sent') :
    Transfer s s' (received ++ received') (sent ++ sent') := by
  constructor
  · rw [hfirst.input, hsecond.input, List.append_assoc]
  · rw [hsecond.output, hfirst.output, List.append_assoc]

theorem transfer_of_write {bytes : Bytes} {s s' : Socket} {result : Unit}
    (h : (write bytes).run s = (.ok result, s')) : Transfer s s' [] bytes := by
  simp only [write] at h
  split at h
  next => exact (Prod.mk.inj h).2 ▸ ⟨rfl, rfl⟩
  next =>
    split at h
    next => exact (Prod.mk.inj h).2 ▸ ⟨rfl, rfl⟩
    next => exact absurd (Prod.mk.inj h).1 (fail_ne_ok _ _)

end DbPivot.Go
