import DbPivot.Go.Socket

/-!
# Rules for programs on a connection

Two properties of programs that read and write in turn, each with a rule for every way to build one.

`Ensures` is a total postcondition with one part for values and one for errors: a program that meets
it does not panic.

`Causal` says that what a program has written depends on what it has read. The input of a `Socket` is
all that the peer is ever going to send, so it does not show when anything arrives. But a program on
the first part of an input does what it does while no more than that part has arrived, and a causal
program has then written a beginning of what it writes in the end.
-/

namespace DbPivot.Go

variable {α β : Type}

namespace SocketM

/-! ## Postconditions -/

/-- The program returns a value, or an error, and leaves the connection as the postcondition says. -/
def Ensures (program : SocketM α) (s : Socket) (value : α → Socket → Prop)
    (error : Socket → Prop) : Prop :=
  (∃ result s', program.run s = (.ok result, s') ∧ value result s') ∨
    ∃ err s', program.run s = (fail err, s') ∧ error s'

section Ensures

variable {s : Socket} {value : α → Socket → Prop} {error : Socket → Prop}

theorem ensures_pure {result : α} (hvalue : value result s) :
    (pure result : SocketM α).Ensures s value error :=
  .inl ⟨result, s, rfl, hvalue⟩

theorem ensures_lift {computation : GoM GoError α} (hreturns : Returns computation)
    (hvalue : ∀ result, computation = .ok result → value result s) (herror : error s) :
    (lift computation).Ensures s value error := by
  rcases hcomputation : computation with (_ | _ | err) | result
  · exact absurd (hcomputation ▸ hreturns : Returns _) id
  · exact absurd (hcomputation ▸ hreturns : Returns _) id
  · exact .inr ⟨err, s, rfl, herror⟩
  · exact .inl ⟨result, s, rfl, hvalue result hcomputation⟩

theorem ensures_bind {first : SocketM α} {next : α → SocketM β} {value : β → Socket → Prop}
    (h : first.Ensures s (fun result s' ↦ (next result).Ensures s' value error) error) :
    (first >>= next).Ensures s value error := by
  rcases h with ⟨result, middle, hfirst, hnext⟩ | ⟨err, middle, hfirst, herror⟩
  · rw [Ensures, bind_of_ok hfirst]
    exact hnext
  · exact .inr ⟨err, middle, bind_of_fail hfirst next, herror⟩

theorem ensures_wrap {change : GoError → GoError} {program : SocketM α}
    (h : program.Ensures s value error) : (wrap change program).Ensures s value error := by
  rcases h with ⟨result, s', hrun, hvalue⟩ | ⟨err, s', hrun, herror⟩
  · exact .inl ⟨result, s', wrap_eq_ok.mpr hrun, hvalue⟩
  · refine .inr ⟨change err, s', ?_, herror⟩
    simp only [wrap, hrun]
    rfl

theorem Ensures.mono {program : SocketM α} {value' : α → Socket → Prop} {error' : Socket → Prop}
    (h : program.Ensures s value error) (hvalue : ∀ result s', value result s' → value' result s')
    (herror : ∀ s', error s' → error' s') : program.Ensures s value' error' := by
  rcases h with ⟨result, s', hrun, h⟩ | ⟨err, s', hrun, h⟩
  · exact .inl ⟨result, s', hrun, hvalue result s' h⟩
  · exact .inr ⟨err, s', hrun, herror s' h⟩

theorem Ensures.of_run_eq {program program' : SocketM α} (h : program.Ensures s value error)
    (hrun : program'.run s = program.run s) : program'.Ensures s value error := by
  rw [Ensures, hrun]
  exact h

/-- A check that may refuse, and the program behind it. -/
theorem ensures_refuse {cond : Prop} [Decidable cond] {err : GoError} {value : Unit → Socket → Prop}
    (hvalue : ¬ cond → value () s) (herror : error s) :
    (lift (refuse cond err)).Ensures s value error :=
  ensures_lift (returns_refuse _ _) (fun _ hok ↦ hvalue (refuse_eq_ok.mp hok)) herror

theorem Ensures.returns {program : SocketM α} (h : program.Ensures s value error) :
    Returns (program.run s).1 := by
  rcases h with ⟨result, s', hrun, -⟩ | ⟨err, s', hrun, -⟩
  · rw [hrun]
    trivial
  · rw [hrun]
    trivial

theorem Ensures.of_eq_ok {program : SocketM α} {result : α} {s' : Socket}
    (h : program.Ensures s value error) (hok : program.run s = (.ok result, s')) :
    value result s' := by
  rcases h with ⟨result', s'', hrun, hvalue⟩ | ⟨err, s'', hrun, -⟩
  · obtain ⟨hresult, rfl⟩ := Prod.mk.inj (hrun.symm.trans hok)
    exact Except.ok.inj hresult ▸ hvalue
  · exact absurd (Prod.mk.inj (hrun.symm.trans hok)).1 (fail_ne_ok _ _)

/-- What holds of the connection after the program, however it ends. -/
theorem Ensures.after {program : SocketM α} {P : Socket → Prop}
    (h : program.Ensures s (fun _ ↦ P) P) : P (program.run s).2 := by
  rcases h with ⟨result, s', hrun, h⟩ | ⟨err, s', hrun, h⟩
  · rw [hrun]
    exact h
  · rw [hrun]
    exact h

end Ensures

end SocketM

theorem ensures_write {input output bytes : Bytes} {value : Unit → Socket → Prop}
    {error : Socket → Prop} (hvalue : value () ⟨input, output ++ bytes, none⟩) :
    (write bytes).Ensures ⟨input, output, none⟩ value error :=
  .inl ⟨(), _, write_of_room rfl, hvalue⟩

/-! ## Kinds of errors -/

namespace SocketM

/-- The program fails on this connection with an error of the given kind. -/
def FailsWith (bad : GoError → Prop) (program : SocketM α) (s : Socket) : Prop :=
  Go.FailsWith bad (program.run s).1

section FailsWith

variable {bad : GoError → Prop} {s : Socket}

theorem failsWith_lift {computation : GoM GoError α} :
    (lift computation).FailsWith bad s ↔ Go.FailsWith bad computation := Iff.rfl

theorem not_failsWith_pure {value : α} : ¬ (pure value : SocketM α).FailsWith bad s :=
  not_failsWith_ok

theorem run_bind_fst (first : SocketM α) (next : α → SocketM β) (s : Socket) :
    ((first >>= next).run s).1 =
      (first.run s).1 >>= fun value ↦ ((next value).run (first.run s).2).1 := by
  rw [run_bind]
  rcases first.run s with ⟨fault | value, middle⟩
  · rfl
  · rfl

theorem failsWith_bind {first : SocketM α} {next : α → SocketM β} :
    (first >>= next).FailsWith bad s ↔ first.FailsWith bad s ∨
      ∃ value s', first.run s = (.ok value, s') ∧ (next value).FailsWith bad s' := by
  unfold FailsWith
  rw [run_bind_fst, Go.failsWith_bind]
  refine or_congr_right ⟨?_, ?_⟩
  · rintro ⟨value, hvalue, h⟩
    exact ⟨value, _, Prod.ext hvalue rfl, h⟩
  · rintro ⟨value, s', hrun, h⟩
    rw [hrun]
    exact ⟨value, rfl, h⟩

theorem failsWith_wrap {change : GoError → GoError} {program : SocketM α}
    (hchange : ∀ error, bad (change error) ↔ bad error) :
    (wrap change program).FailsWith bad s ↔ program.FailsWith bad s :=
  failsWith_mapErr hchange

/-- A part that cannot fail in this way. -/
theorem failsWith_bind_of_not {first : SocketM α} {next : α → SocketM β}
    (hfirst : ¬ first.FailsWith bad s) :
    (first >>= next).FailsWith bad s ↔
      ∃ value s', first.run s = (.ok value, s') ∧ (next value).FailsWith bad s' := by
  rw [failsWith_bind, or_iff_right hfirst]

/-- A computation that does not use the connection, and what comes behind it. -/
theorem failsWith_lift_bind {computation : GoM GoError α} {next : α → SocketM β} :
    (lift computation >>= next).FailsWith bad s ↔ Go.FailsWith bad computation ∨
      ∃ value, computation = .ok value ∧ (next value).FailsWith bad s := by
  rw [failsWith_bind, failsWith_lift]
  refine or_congr_right ⟨?_, ?_⟩
  · rintro ⟨value, s', hvalue, h⟩
    obtain ⟨hok, rfl⟩ := lift_eq_ok.mp hvalue
    exact ⟨value, hok, h⟩
  · rintro ⟨value, hok, h⟩
    exact ⟨value, s, lift_eq_ok.mpr ⟨hok, rfl⟩, h⟩

/-- A check, and what comes behind it. -/
theorem failsWith_refuse_bind {cond : Prop} [Decidable cond] {error : GoError}
    {next : Unit → SocketM β} :
    (lift (refuse cond error) >>= next).FailsWith bad s ↔
      cond ∧ bad error ∨ ¬ cond ∧ (next ()).FailsWith bad s := by
  rw [failsWith_lift_bind, failsWith_refuse]
  refine or_congr_right ⟨?_, ?_⟩
  · rintro ⟨_, hok, h⟩
    exact ⟨refuse_eq_ok.mp hok, h⟩
  · rintro ⟨hcond, h⟩
    exact ⟨(), refuse_eq_ok.mpr hcond, h⟩

end FailsWith

end SocketM

theorem not_failsWith_readFull {bad : GoError → Prop} (heof : ¬ bad eof)
    (hunexpected : ¬ bad unexpectedEOF) (n : ℕ) (s : Socket) : ¬ (readFull n).FailsWith bad s := by
  unfold SocketM.FailsWith readFull
  dsimp only
  split
  · exact not_failsWith_ok
  · rw [failsWith_fail]
    split
    · exact heof
    · exact hunexpected

theorem not_failsWith_write {bad : GoError → Prop} (hwrite : ¬ bad writeError) (bytes : Bytes)
    (s : Socket) : ¬ (write bytes).FailsWith bad s := by
  unfold SocketM.FailsWith write
  dsimp only
  split
  · exact not_failsWith_ok
  · split
    · exact not_failsWith_ok
    · exact mt failsWith_fail.mp hwrite

/-! ## Room -/

/-- A connection with this much room takes the bytes. -/
def Takes (room : Option ℕ) (bytes : Bytes) : Prop := ∀ n ∈ room, bytes.length ≤ n

/-- The room that is left behind the bytes. -/
def roomAfter (room : Option ℕ) (bytes : Bytes) : Option ℕ := room.map (· - bytes.length)

theorem takes_none (bytes : Bytes) : Takes none bytes := fun _ h ↦ absurd h (Option.not_mem_none _)

theorem write_eq_ok {input output bytes : Bytes} {room : Option ℕ} {s' : Socket} :
    (write bytes).run ⟨input, output, room⟩ = (.ok (), s') ↔
      Takes room bytes ∧ s' = ⟨input, output ++ bytes, roomAfter room bytes⟩ := by
  cases room with
  | none =>
    rw [write_of_room rfl, Prod.mk.injEq, and_iff_right rfl, and_iff_right (takes_none bytes)]
    exact eq_comm
  | some room =>
    have htakes : Takes (some room) bytes ↔ bytes.length ≤ room := by simp [Takes]
    simp only [write, htakes]
    split
    next hle =>
      rw [Prod.mk.injEq, and_iff_right rfl, and_iff_right hle]
      exact eq_comm
    next hlt =>
      refine iff_of_false (fun h ↦ fail_ne_ok _ _ (Prod.mk.inj h).1) fun h ↦ hlt h.1

/-- A write, and what comes behind it. -/
theorem failsWith_write_bind {bad : GoError → Prop} (hwrite : ¬ bad writeError)
    {change : GoError → GoError} (hchange : ∀ error, bad (change error) ↔ bad error)
    {input output bytes : Bytes} {room : Option ℕ} {next : Unit → SocketM α} :
    (SocketM.wrap change (write bytes) >>= next).FailsWith bad ⟨input, output, room⟩ ↔
      Takes room bytes ∧
        (next ()).FailsWith bad ⟨input, output ++ bytes, roomAfter room bytes⟩ := by
  have hnot := (SocketM.failsWith_wrap hchange).not.mpr
    (not_failsWith_write hwrite bytes ⟨input, output, room⟩)
  rw [SocketM.failsWith_bind_of_not hnot]
  constructor
  · rintro ⟨_, s', hrun, h⟩
    obtain ⟨htakes, rfl⟩ := write_eq_ok.mp (SocketM.wrap_eq_ok.mp hrun)
    exact ⟨htakes, h⟩
  · rintro ⟨htakes, h⟩
    exact ⟨(), _, SocketM.wrap_eq_ok.mpr (write_eq_ok.mpr ⟨htakes, rfl⟩), h⟩

/-! ## Causality -/

/-- The same connection with more to come. -/
def Socket.feed (s : Socket) (more : Bytes) : Socket := { s with input := s.input ++ more }

/-- With more to come the program does the same, or goes on where it failed for want of input. What
is written stays written. -/
structure SocketM.Causal (program : SocketM α) : Prop where
  grows : ∀ s, s.output <+: (program.run s).2.output
  feed : ∀ s more,
    program.run (s.feed more) = ((program.run s).1, (program.run s).2.feed more) ∨
      Errs (program.run s).1 ∧
        (program.run s).2.output <+: (program.run (s.feed more)).2.output

namespace SocketM

theorem Causal.output_extends {program : SocketM α} (h : program.Causal) (s : Socket) (more : Bytes) :
    (program.run s).2.output <+: (program.run (s.feed more)).2.output := by
  rcases h.feed s more with hsame | ⟨-, hprefix⟩
  · rw [hsame]
    exact List.prefix_rfl
  · exact hprefix

theorem causal_lift (computation : GoM GoError α) : (lift computation).Causal :=
  ⟨fun _ ↦ List.prefix_rfl, fun _ _ ↦ .inl rfl⟩

theorem causal_pure (value : α) : (pure value : SocketM α).Causal := causal_lift (.ok value)

theorem Causal.wrap {program : SocketM α} (h : program.Causal) (change : GoError → GoError) :
    (SocketM.wrap change program).Causal := by
  refine ⟨h.grows, fun s more ↦ ?_⟩
  rcases h.feed s more with hsame | ⟨herrs, hprefix⟩
  · refine .inl ?_
    simp only [SocketM.wrap, hsame]
  · refine .inr ⟨?_, hprefix⟩
    obtain ⟨error, herror⟩ := exists_fail_of_errs herrs
    simp only [SocketM.wrap, herror]
    trivial

theorem Causal.bind {first : SocketM α} {next : α → SocketM β} (hfirst : first.Causal)
    (hnext : ∀ value, (next value).Causal) : (first >>= next).Causal := by
  constructor
  · intro s
    have hgrows := hfirst.grows s
    rw [run_bind]
    rcases hrun : first.run s with ⟨fault | value, middle⟩
    · rw [hrun] at hgrows
      exact hgrows
    · rw [hrun] at hgrows
      exact hgrows.trans ((hnext value).grows middle)
  · intro s more
    have hfeed := hfirst.feed s more
    rw [run_bind, run_bind]
    rcases hrun : first.run s with ⟨fault | value, middle⟩
    · rw [hrun] at hfeed
      rcases hfeed with hsame | ⟨herrs, hprefix⟩
      · rw [hsame]
        exact .inl rfl
      · -- The first part failed early, so the whole did; with more input it may go on to the second.
        obtain ⟨err, herr⟩ := exists_fail_of_errs herrs
        dsimp only at herr
        rw [herr]
        refine .inr ⟨trivial, ?_⟩
        rcases hmore : first.run (s.feed more) with ⟨fault' | value', middle'⟩
        · rw [hmore] at hprefix
          exact hprefix
        · rw [hmore] at hprefix
          exact hprefix.trans ((hnext value').grows middle')
    · rw [hrun] at hfeed
      rcases hfeed with hsame | ⟨herrs, -⟩
      · rw [hsame]
        exact (hnext value).feed middle more
      · exact absurd herrs (not_errs_ok _)

end SocketM

theorem causal_readFull (n : ℕ) : (readFull n).Causal := by
  refine ⟨fun s ↦ ?_, fun s more ↦ ?_⟩
  · rw [output_readFull]
  · by_cases hlength : n ≤ s.input.length
    · have hmore : n ≤ (s.input ++ more).length := by
        rw [List.length_append]
        omega
      refine .inl ?_
      simp only [readFull, Socket.feed, hlength, hmore, if_true, List.take_append_of_le_length hlength,
        List.drop_append_of_le_length hlength]
    · refine .inr ⟨?_, ?_⟩
      · simp only [readFull, hlength, if_false]
        trivial
      · rw [output_readFull, output_readFull]
        exact List.prefix_rfl

theorem causal_write (bytes : Bytes) : (write bytes).Causal := by
  refine ⟨fun s ↦ ?_, fun s more ↦ .inl ?_⟩
  · obtain ⟨written, -, houtput, -⟩ := run_write bytes s
    rw [houtput]
    exact List.prefix_append _ _
  · rcases s with ⟨input, output, room⟩
    cases room with
    | none => rfl
    | some room =>
      simp only [write, Socket.feed]
      split
      next => rfl
      next => rfl

/-! ## Programs that only read -/

/-- The state before a read and the state after it, each from the other. -/
theorem Socket.eq_before_iff {input output : Bytes} {room : Option ℕ} {s' : Socket} {bytes : Bytes} :
    (⟨input, output, room⟩ : Socket) = { s' with input := bytes ++ s'.input } ↔
      ∃ rest, input = bytes ++ rest ∧ s' = ⟨rest, output, room⟩ := by
  constructor
  · intro h
    obtain ⟨hinput, houtput, hroom⟩ := Socket.mk.inj h
    rw [houtput, hroom]
    exact ⟨s'.input, hinput, rfl⟩
  · rintro ⟨rest, rfl, rfl⟩
    rfl

/-- The program returns, takes some of the input and does nothing else to the connection. -/
structure SocketM.Reader (program : SocketM α) : Prop where
  returns : ∀ s, Returns (program.run s).1
  only : ∀ s, ∃ rest, (program.run s).2 = { s with input := rest }
  causal : program.Causal

theorem reader_readFull (n : ℕ) : (readFull n).Reader := by
  refine ⟨returns_readFull n, fun s ↦ ?_, causal_readFull n⟩
  simp only [readFull]
  split
  · exact ⟨_, rfl⟩
  · exact ⟨_, rfl⟩

namespace SocketM

theorem reader_lift {computation : GoM GoError α} (hreturns : Returns computation) :
    (lift computation).Reader :=
  ⟨fun _ ↦ hreturns, fun s ↦ ⟨s.input, rfl⟩, causal_lift computation⟩

theorem reader_pure (value : α) : (pure value : SocketM α).Reader :=
  ⟨fun _ ↦ trivial, fun s ↦ ⟨s.input, rfl⟩, causal_pure value⟩

theorem Reader.wrap {program : SocketM α} (h : program.Reader) (change : GoError → GoError) :
    (SocketM.wrap change program).Reader :=
  ⟨fun s ↦ returns_mapErr.mpr (h.returns s), h.only, h.causal.wrap change⟩

theorem Reader.bind {first : SocketM α} {next : α → SocketM β} (hfirst : first.Reader)
    (hnext : ∀ value, (next value).Reader) : (first >>= next).Reader := by
  refine ⟨fun s ↦ ?_, fun s ↦ ?_, hfirst.causal.bind fun value ↦ (hnext value).causal⟩
  · exact returns_run_bind (hfirst.returns s) fun value ↦ (hnext value).returns
  · obtain ⟨rest, hrest⟩ := hfirst.only s
    rw [run_bind]
    rcases hrun : first.run s with ⟨fault | value, middle⟩
    · rw [hrun] at hrest
      exact ⟨rest, hrest⟩
    · rw [hrun] at hrest
      obtain ⟨rest', hrest'⟩ := (hnext value).only middle
      refine ⟨rest', hrest'.trans ?_⟩
      rw [show middle = _ from hrest]

theorem Reader.ensures {program : SocketM α} (h : program.Reader) {s : Socket}
    {value : α → Socket → Prop} {error : Socket → Prop}
    (hvalue : ∀ result s', program.run s = (.ok result, s') → value result s')
    (herror : ∀ rest, error { s with input := rest }) : program.Ensures s value error := by
  obtain ⟨rest, hrest⟩ := h.only s
  by_cases hok : ∃ result, (program.run s).1 = .ok result
  · obtain ⟨result, hresult⟩ := hok
    have hrun : program.run s = (.ok result, (program.run s).2) := by rw [← hresult]
    exact .inl ⟨result, _, hrun, hvalue result _ hrun⟩
  · have herrs : Errs (program.run s).1 :=
      errs_of_returns (h.returns s) fun result hresult ↦ hok ⟨result, hresult⟩
    obtain ⟨err, herr⟩ := exists_fail_of_errs herrs
    have hrun : program.run s = (fail err, (program.run s).2) := by rw [← herr]
    refine .inr ⟨err, _, hrun, ?_⟩
    rw [hrest]
    exact herror rest

end SocketM

end DbPivot.Go
