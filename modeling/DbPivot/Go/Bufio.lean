import DbPivot.Go.Socket

/-!
# A buffered reader over a connection

A `bufio.Reader` asks the connection for more than it was asked for and keeps what is left over. How
much a read of the connection returns is up to the network, so the reader comes with the sizes of
the reads to come. What a caller sees does not depend on them: the buffer and what the connection
has still to deliver are one stream, and reading takes from its front. Where the stream is cut in
two afterwards does depend on them.
-/

namespace DbPivot.Go

/-- A `bufio.Reader`, its connection, and how many bytes the reads of the connection return. -/
structure Bufio where
  conn : Socket
  buffer : Bytes
  chunks : List ℕ

namespace Bufio

/-- The size of the buffer of `bufio.NewReader`. -/
def defaultBufSize : ℕ := 4096

/-- `bufio.NewReader`. -/
def newReader (conn : Socket) (chunks : List ℕ) : Bufio := ⟨conn, [], chunks⟩

/-- What is still to be read. -/
def stream (b : Bufio) : Bytes := b.buffer ++ b.conn.input

/-- `Read` of the connection with room for `n` bytes; it returns nothing only at the end. -/
def fetch (b : Bufio) (n : ℕ) : Bytes × Bufio :=
  let size := max 1 (min n (b.chunks.headD n))
  (b.conn.input.take size,
    { b with conn := { b.conn with input := b.conn.input.drop size }, chunks := b.chunks.tail })

/-- `Read` of the reader with room for `n` bytes. -/
def read (b : Bufio) (n : ℕ) : Bytes × Bufio :=
  if b.buffer ≠ [] then (b.buffer.take n, { b with buffer := b.buffer.drop n })
  else if defaultBufSize ≤ n then b.fetch n
  else
    ((b.fetch defaultBufSize).1.take n,
      { (b.fetch defaultBufSize).2 with buffer := (b.fetch defaultBufSize).1.drop n })

/-- The loop of `io.ReadFull`. Every read but the last returns something. -/
def readFullLoop : ℕ → Bytes → ℕ → Bufio → GoM GoError Bytes × Bufio
  | _, acc, 0, b => (.ok acc, b)
  | 0, _, _ + 1, b => (.error .outOfFuel, b)
  | fuel + 1, acc, n + 1, b =>
    match b.read (n + 1) with
    | ([], b) => (fail (if acc = [] then eof else unexpectedEOF), b)
    | (byte :: part, b) =>
      readFullLoop fuel (acc ++ byte :: part) (n + 1 - (byte :: part).length) b

/-- `io.ReadFull` from the reader. -/
def readFull (b : Bufio) (n : ℕ) : GoM GoError Bytes × Bufio := readFullLoop n [] n b

/-- `Discard` of buffered bytes. -/
def discard (b : Bufio) (n : ℕ) : Bufio := { b with buffer := b.buffer.drop n }

/-! ## Reading takes from the front of the stream -/

/-- The reader after it has handed out some bytes: nothing else about the connection changes. -/
structure Took (b b' : Bufio) (bytes : Bytes) : Prop where
  stream : b.stream = bytes ++ b'.stream
  output : b'.conn.output = b.conn.output
  room : b'.conn.room = b.conn.room

theorem Took.refl (b : Bufio) : Took b b [] := ⟨rfl, rfl, rfl⟩

theorem Took.trans {b middle b' : Bufio} {first second : Bytes} (hfirst : Took b middle first)
    (hsecond : Took middle b' second) : Took b b' (first ++ second) where
  stream := by rw [hfirst.stream, hsecond.stream, List.append_assoc]
  output := hsecond.output.trans hfirst.output
  room := hsecond.room.trans hfirst.room

variable {b : Bufio}

/-- A read of the connection returns something unless there is nothing left. -/
theorem fetch_ne_nil (hinput : b.conn.input ≠ []) (n : ℕ) : (b.fetch n).1 ≠ [] := by
  intro hnil
  rcases List.take_eq_nil_iff.mp hnil with hsize | hempty
  · omega
  · exact hinput hempty

theorem length_fetch_le (n : ℕ) (hn : 0 < n) : (b.fetch n).1.length ≤ n := by
  have hlength := List.length_take_le (max 1 (min n (b.chunks.headD n))) b.conn.input
  change (b.conn.input.take _).length ≤ n
  omega

theorem took_read (n : ℕ) : Took b (b.read n).2 (b.read n).1 := by
  unfold read
  split
  next =>
    refine ⟨?_, rfl, rfl⟩
    change b.buffer ++ b.conn.input = b.buffer.take n ++ (b.buffer.drop n ++ b.conn.input)
    rw [← List.append_assoc, List.take_append_drop]
  next hempty =>
    have hbuffer : b.buffer = [] := not_not.mp hempty
    split
    next =>
      refine ⟨?_, rfl, rfl⟩
      change b.buffer ++ b.conn.input = b.conn.input.take _ ++ (b.buffer ++ b.conn.input.drop _)
      rw [hbuffer, List.nil_append, List.nil_append, List.take_append_drop]
    next =>
      refine ⟨?_, rfl, rfl⟩
      change b.buffer ++ b.conn.input =
        (b.conn.input.take _).take n ++ ((b.conn.input.take _).drop n ++ b.conn.input.drop _)
      rw [hbuffer, List.nil_append, ← List.append_assoc, List.take_append_drop,
        List.take_append_drop]

theorem length_read_le (n : ℕ) (hn : 0 < n) : (b.read n).1.length ≤ n := by
  unfold read
  split
  next => exact List.length_take_le n b.buffer
  next =>
    split
    next => exact length_fetch_le n hn
    next => exact List.length_take_le n _

/-- A read returns nothing only at the end of the stream. -/
theorem read_eq_nil (n : ℕ) (hn : 0 < n) (h : (b.read n).1 = []) : b.stream = [] := by
  unfold read at h
  split at h
  next hbuffer =>
    rcases List.take_eq_nil_iff.mp h with hzero | hempty
    · omega
    · exact absurd hempty hbuffer
  next hempty =>
    have hbuffer : b.buffer = [] := not_not.mp hempty
    have hinput : b.conn.input = [] := by
      by_contra hinput
      split at h
      next => exact fetch_ne_nil hinput n h
      next =>
        rcases List.take_eq_nil_iff.mp h with hzero | hnil
        · omega
        · exact fetch_ne_nil hinput defaultBufSize hnil
    rw [stream, hbuffer, hinput, List.append_nil]

/-- The loop returns the next bytes of the stream, or takes what is left when they are too few. -/
theorem readFullLoop_spec (fuel : ℕ) (acc : Bytes) (n : ℕ) (hfuel : n ≤ fuel) (b : Bufio) :
    (∃ b', readFullLoop fuel acc n b = (.ok (acc ++ b.stream.take n), b') ∧
      n ≤ b.stream.length ∧ Took b b' (b.stream.take n)) ∨
    ∃ error b', readFullLoop fuel acc n b = (fail error, b') ∧ b.stream.length < n ∧
      Took b b' b.stream := by
  induction fuel generalizing acc n b with
  | zero =>
    obtain rfl : n = 0 := Nat.le_zero.mp hfuel
    refine .inl ⟨b, ?_, Nat.zero_le _, Took.refl b⟩
    rw [List.take_zero, List.append_nil]
    rfl
  | succ fuel ih =>
    cases n with
    | zero =>
      refine .inl ⟨b, ?_, Nat.zero_le _, Took.refl b⟩
      rw [List.take_zero, List.append_nil]
      rfl
    | succ n =>
      have htook := took_read (b := b) (n + 1)
      have hle := length_read_le (b := b) (n + 1) (Nat.succ_pos n)
      rcases hread : b.read (n + 1) with ⟨part, middle⟩
      rw [hread] at htook hle
      cases part with
      | nil =>
        have hend : b.stream = [] := read_eq_nil (n + 1) (Nat.succ_pos n) (by rw [hread])
        refine .inr ⟨if acc = [] then eof else unexpectedEOF, middle, ?_, ?_, ?_⟩
        · simp only [readFullLoop, hread]
        · rw [hend]
          exact Nat.succ_pos n
        · rw [hend]
          exact htook
      | cons byte part =>
        have hloop : readFullLoop (fuel + 1) acc (n + 1) b =
            readFullLoop fuel (acc ++ byte :: part) (n + 1 - (byte :: part).length) middle := by
          simp only [readFullLoop, hread]
        have hstream : b.stream = (byte :: part) ++ middle.stream := htook.stream
        have hlength : b.stream.length = (byte :: part).length + middle.stream.length := by
          rw [hstream, List.length_append]
        rw [hloop]
        have hpositive : 0 < (byte :: part).length := Nat.succ_pos _
        rcases ih (acc ++ byte :: part) (n + 1 - (byte :: part).length) (by omega) middle with
          ⟨b', hok, henough, hrest⟩ | ⟨error, b', hfail, hshort, hrest⟩
        · have htake : b.stream.take (n + 1) =
              (byte :: part) ++ middle.stream.take (n + 1 - (byte :: part).length) := by
            rw [hstream, List.take_append, List.take_of_length_le hle]
          refine .inl ⟨b', ?_, by omega, ?_⟩
          · rw [hok, htake, List.append_assoc]
          · rw [htake]
            exact htook.trans hrest
        · refine .inr ⟨error, b', hfail, by omega, ?_⟩
          rw [hstream]
          exact htook.trans hrest

theorem readFull_spec (b : Bufio) (n : ℕ) :
    (∃ b', b.readFull n = (.ok (b.stream.take n), b') ∧ n ≤ b.stream.length ∧
      Took b b' (b.stream.take n)) ∨
    ∃ error b', b.readFull n = (fail error, b') ∧ b.stream.length < n ∧ Took b b' b.stream :=
  readFullLoop_spec n [] n (Nat.le_refl n) b

/-- Whatever the chunks, the next bytes of the stream are read. -/
theorem readFull_of_stream {b : Bufio} {bytes rest : Bytes} (h : b.stream = bytes ++ rest) :
    ∃ b', b.readFull bytes.length = (.ok bytes, b') ∧ Took b b' bytes := by
  rcases readFull_spec b bytes.length with ⟨b', hread, -, htook⟩ | ⟨_, _, -, hshort, -⟩
  · rw [h, List.take_left] at hread htook
    exact ⟨b', hread, htook⟩
  · rw [h, List.length_append] at hshort
    omega

end Bufio

end DbPivot.Go
