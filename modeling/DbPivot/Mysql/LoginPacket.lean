import DbPivot.Mysql.Lenenc

/-!
# The login packet of any client

The first packet of a MySQL client is parsed before anything is known about the client, and no
handler recovers from a panic. Of all the positions the parser computes, one can leave the packet:
the end of an authentication response whose length is itself length-encoded. The length is any
64-bit number, the position of the response is added to it as an `int`, and the sum is only checked
against the end of the packet. When the sum is too large for an `int` it is negative, and so passes
the check.
-/

namespace DbPivot.Mysql

open DbPivot.Go

/-! ## Positions -/

/-- The loop of `readNulString`; `remaining` is `len(b) - i`. -/
def scanNulString (b : Bytes) (pos : ℕ) : ℕ → ℕ → GoM GoError (Bytes × ℕ)
  | 0, _ => fail (errorf "nul-string: unterminated at %d" [.number pos])
  | remaining + 1, i => do
    let byte ← index b i
    if byte = 0 then
      let text ← slice b pos i
      pure (text, i + 1)
    else scanNulString b pos remaining (i + 1)

theorem scanNulString_eq {b seen rest : Bytes} {pos i : ℕ} (hat : At b pos (seen ++ rest))
    (hseen : 0 ∉ seen) (hi : i = pos + seen.length) :
    scanNulString b pos rest.length i = readNulString b pos := by
  induction rest generalizing seen i with
  | nil =>
    have hnone : indexByte (seen ++ []) 0 = none := by
      rw [List.append_nil]
      exact indexByte_eq_none.mpr hseen
    rw [readNulString, hat.2, hnone]
    rfl
  | cons byte rest ih =>
    have hbyte : (index b i : GoM GoError UInt8) = .ok byte := hi ▸ hat.advance.index
    rw [List.length_cons, scanNulString, hbyte, ok_bind]
    by_cases hzero : byte = 0
    · subst hzero
      rw [if_pos rfl, hi, hat.slice, readNulString_of_at hseen hat]
      rfl
    · have hat' : At b pos ((seen ++ [byte]) ++ rest) := by
        rw [List.append_assoc]
        exact hat
      rw [if_neg hzero, ih hat' (by simp [hseen, Ne.symm hzero])]
      rw [List.length_append, List.length_singleton, hi]
      omega

/-- `readNulString` never leaves the packet. -/
theorem readNulString_eq_scan {b : Bytes} {pos : ℕ} (hpos : pos ≤ b.length) :
    readNulString b pos = scanNulString b pos (b.length - pos) pos := by
  have hat : At b pos ([] ++ b.drop pos) := ⟨hpos, rfl⟩
  rw [← scanNulString_eq hat List.not_mem_nil rfl, List.length_drop]
  rfl

/-- A position in front of a string and its NUL is inside the packet. -/
theorem lt_length_of_at {b text rest : Bytes} {pos : ℕ} (h : At b pos (text ++ 0 :: rest)) :
    pos < b.length := by
  rw [h.length, List.length_append, List.length_cons]
  omega

theorem returns_readNulString (b : Bytes) (pos : ℕ) : Returns (readNulString b pos) := by
  unfold readNulString
  split <;> trivial

/-! ## Adding a length to a position -/

section Sum

variable {pos : ℕ} {n : UInt64}

theorem toInt_toInt64 (n : UInt64) : n.toInt64.toInt = (n.toNat : ℤ).bmod (2 ^ 64) := by
  change n.toBitVec.toInt = _
  rw [BitVec.toInt_eq_toNat_bmod]
  rfl

theorem toInt_add_toInt64 (hpos : pos < 2 ^ 63) :
    (Int64.ofNat pos + n.toInt64).toInt = ((pos + n.toNat : ℕ) : ℤ).bmod (2 ^ 64) := by
  rw [Int64.toInt_add, Int64.toInt_ofNat_of_lt hpos, toInt_toInt64, Int.add_bmod_bmod,
    Nat.cast_add]

theorem toInt_add_of_lt (h : pos + n.toNat < 2 ^ 63) :
    (Int64.ofNat pos + n.toInt64).toInt = (pos + n.toNat : ℕ) := by
  rw [toInt_add_toInt64 (by omega)]
  exact Int.bmod_eq_of_le (by omega) (by omega)

/-- A sum that is too large for an `int` comes before the position. -/
theorem toInt_add_lt_of_le (hpos : pos < 2 ^ 63) (h : 2 ^ 63 ≤ pos + n.toNat) :
    (Int64.ofNat pos + n.toInt64).toInt < pos := by
  have hn := n.toNat_lt
  rw [toInt_add_toInt64 hpos, Int.bmod_def]
  split <;> omega

end Sum

/-! ## The authentication response -/

section AuthResponse

variable {b : Bytes} {pos : ℕ} {capabilities : UInt32}

/-- The check and the slice for a length that was read. -/
theorem returns_sliceInt_iff {n : UInt64} (hpos : pos ≤ b.length) (hlength : b.length < 2 ^ 63)
    (error : GoError) :
    Returns (do
        refuse ((b.length : ℤ) < (Int64.ofNat pos + n.toInt64).toInt) error
        let authResponse ← sliceInt b pos (Int64.ofNat pos + n.toInt64).toInt
        pure (authResponse, (Int64.ofNat pos + n.toInt64).toInt.toNat)) ↔
      pos + n.toNat < 2 ^ 63 := by
  by_cases hsum : pos + n.toNat < 2 ^ 63
  · refine iff_of_true ?_ hsum
    rw [toInt_add_of_lt hsum]
    refine returns_bind (returns_refuse _ _) fun _ hfits ↦ ?_
    have hstop : pos + n.toNat ≤ b.length := by
      have := refuse_eq_ok.mp hfits
      omega
    rw [sliceInt, if_pos (by omega), Int.toNat_natCast, slice_of_le (by omega) hstop]
    trivial
  · refine iff_of_false (fun h ↦ ?_) hsum
    have hstop := toInt_add_lt_of_le (n := n) (by omega) (by omega : 2 ^ 63 ≤ pos + n.toNat)
    rw [refuse_bind_of_not (by omega), sliceInt, if_neg (by omega)] at h
    exact h

theorem returns_readAuthResponse_iff (hlength : b.length < 2 ^ 63) :
    Returns (readAuthResponse b pos capabilities) ↔
      (capabilities &&& clientPluginAuthLenencClientData ≠ 0 →
        ∀ n next, readLenencInt b pos = .ok (n, next) → next + n.toNat < 2 ^ 63) := by
  unfold readAuthResponse
  split
  next hlenenc =>
    rw [returns_bind_iff, returns_mapErr]
    simp only [mapErr_eq_ok, returns_readLenencInt, true_and]
    constructor
    · intro h _ n next hread
      exact (returns_sliceInt_iff (readLenencInt_bounds hread).2 hlength _).mp (h (n, next) hread)
    · intro h read hread
      exact (returns_sliceInt_iff (readLenencInt_bounds hread).2 hlength _).mpr
        (h hlenenc read.1 read.2 hread)
  next hlenenc =>
    refine iff_of_true ?_ fun h ↦ absurd h hlenenc
    split
    · refine returns_bind (returns_refuse _ _) fun _ hpos ↦ ?_
      have hlt : pos < b.length := by
        have := refuse_eq_ok.mp hpos
        omega
      rw [index_of_lt hlt, ok_bind]
      refine returns_bind (returns_refuse _ _) fun _ hfits ↦ ?_
      have hstop := refuse_eq_ok.mp hfits
      rw [slice_of_le (by omega) (by omega)]
      trivial
    · exact returns_mapErr.mpr (returns_readNulString _ _)

end AuthResponse

/-! ## The packet -/

/-- The packet gets as far as an authentication response with an encoded length: the length and
where the response begins. -/
structure AnnouncesAuth (b : Bytes) (n : UInt64) (pos : ℕ) : Prop where
  header : 32 ≤ b.length
  protocol41 : uint32LE (b.take 4) &&& clientProtocol41 ≠ 0
  lenenc : uint32LE (b.take 4) &&& clientPluginAuthLenencClientData ≠ 0
  length : ∃ username next, readNulString b 32 = .ok (username, next) ∧
    readLenencInt b next = .ok (n, pos)

/-- The parser returns for all packets but those whose authentication response would end beyond the
largest `int`. -/
theorem returns_parseHandshakeResponse41_iff {b : Bytes} (hlength : b.length < 2 ^ 63) :
    Returns (parseHandshakeResponse41 b) ↔
      ∀ n pos, AnnouncesAuth b n pos → pos + n.toNat < 2 ^ 63 := by
  unfold parseHandshakeResponse41
  by_cases hshort : b.length < 32
  · refine iff_of_true ?_ fun n pos h ↦ absurd h.header (by omega)
    rw [refuse_bind_of hshort]
    trivial
  have hcapabilities : (slice b 0 4 : GoM GoError Bytes) = .ok (b.take 4) :=
    slice_of_le (by omega) (by omega)
  rw [refuse_bind_of_not hshort, hcapabilities, ok_bind]
  by_cases hold : uint32LE (b.take 4) &&& clientProtocol41 = 0
  · refine iff_of_true ?_ fun n pos h ↦ absurd hold h.protocol41
    rw [refuse_bind_of hold]
    trivial
  rw [refuse_bind_of_not hold, slice_of_le (by omega) (by omega), ok_bind,
    index_of_lt (by omega), ok_bind]
  rw [returns_bind_iff, returns_mapErr]
  simp only [mapErr_eq_ok, returns_readNulString, true_and]
  constructor
  · intro h n pos hannounces
    obtain ⟨username, next, husername, hread⟩ := hannounces.length
    have hauth := (returns_bind_iff.mp (h (username, next) husername)).1
    exact (returns_readAuthResponse_iff hlength).mp hauth hannounces.lenenc n pos hread
  · intro h read husername
    refine returns_bind ?_ fun auth _ ↦ ?_
    · refine (returns_readAuthResponse_iff hlength).mpr fun hlenenc n pos hread ↦ ?_
      exact h n pos ⟨by omega, hold, hlenenc, read.1, read.2, husername, hread⟩
    · split
      · exact returns_bind (returns_mapErr.mpr (returns_readNulString _ _)) fun _ _ ↦ trivial
      · trivial

/-- A login without a user, with an authentication response whose length is encoded as given. -/
def loginWith (length : Bytes) : Bytes :=
  loginHeader (clientProtocol41 ||| clientPluginAuthLenencClientData) 0 ++ 0 :: length

theorem returns_parseHandshakeResponse41_iff_empty :
    Returns (parseHandshakeResponse41 (loginWith [0])) := by
  refine (returns_parseHandshakeResponse41_iff (by decide)).mpr fun n pos h ↦ ?_
  obtain ⟨username, next, husername, hread⟩ := h.length
  have hname : readNulString (loginWith [0]) 32 = .ok ([], 33) := by rfl
  have hlength : readLenencInt (loginWith [0]) 33 = .ok (0, 34) := by rfl
  cases hname.symm.trans husername
  cases hlength.symm.trans hread
  decide

/-- A length of eight bytes 0xFF is -1 as an `int`: the response ends one byte before it begins. -/
theorem parseHandshakeResponse41_panics :
    parseHandshakeResponse41 (loginWith (0xFE :: List.replicate 8 0xFF)) = .error .panic := by
  rfl

end DbPivot.Mysql
