import DbPivot.Go.Socket

/-!
# Lines on a connection

`bufio.Reader.ReadBytes` reads up to a delimiter. What its buffer has taken from the connection
beyond the delimiter stays with the reader, so for a program that reads one line from a connection
it does not matter how much that is.
-/

namespace DbPivot.Go

/-- `ReadBytes` of a fresh `bufio.Reader`: the bytes up to and including the delimiter. -/
def readBytes (delim : UInt8) : SocketM Bytes := ⟨fun s ↦
  if delim ∈ s.input then
    (.ok (s.input.takeWhile (· ≠ delim) ++ [delim]),
      { s with input := (s.input.dropWhile (· ≠ delim)).tail })
  else (fail eof, { s with input := [] })⟩

/-- A line without the delimiter in it is read as a whole, whatever follows. -/
theorem readBytes_line {delim : UInt8} {line rest : Bytes} (hline : delim ∉ line) (output : Bytes)
    (room : Option ℕ) :
    (readBytes delim).run ⟨line ++ delim :: rest, output, room⟩ =
      (.ok (line ++ [delim]), ⟨rest, output, room⟩) := by
  have hne : ∀ c ∈ line, decide (c ≠ delim) = true :=
    fun c hc ↦ decide_eq_true fun h ↦ hline (h ▸ hc)
  have htake : (line ++ delim :: rest).takeWhile (· ≠ delim) = line := by
    rw [List.takeWhile_append_of_pos hne, List.takeWhile_cons_of_neg (by simp), List.append_nil]
  have hdrop : (line ++ delim :: rest).dropWhile (· ≠ delim) = delim :: rest := by
    rw [List.dropWhile_append_of_pos hne, List.dropWhile_cons_of_neg (by simp)]
  simp only [readBytes, htake, hdrop, List.tail_cons]
  rw [if_pos (by simp)]

theorem readBytes_of_notMem {delim : UInt8} {s : Socket} (h : delim ∉ s.input) :
    (readBytes delim).run s = (fail eof, { s with input := [] }) := if_neg h

/-- A line that was cut off is no line. -/
theorem eq_or_notMem_of_prefix {delim : UInt8} {line written : Bytes} (hline : delim ∉ line)
    (h : written <+: line ++ [delim]) : written = line ++ [delim] ∨ delim ∉ written := by
  rcases List.prefix_concat_iff.mp h with heq | hbegin
  · exact .inl heq
  · exact .inr fun hmem ↦ hline (hbegin.subset hmem)

/-- Reading a line writes nothing. -/
theorem output_readBytes (delim : UInt8) (s : Socket) :
    ((readBytes delim).run s).2.output = s.output := by
  simp only [readBytes]
  split <;> rfl

end DbPivot.Go
