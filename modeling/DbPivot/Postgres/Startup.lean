import DbPivot.Go.Fault

/-!
# The StartupMessage

A PostgreSQL client opens a connection with a frame that holds its length, the protocol version and
a list of parameters. Keys and values are NUL-terminated strings and one more NUL ends the list.

The decoder and the encoder are inverse to each other: the decoder accepts exactly the parameter
blocks that the encoder writes for keys and values a NUL-terminated string can hold.
-/

namespace DbPivot.Postgres

open DbPivot.Go

/-- `ProtocolV3`. -/
def protocolV3 : UInt32 := 0x00030000

/-- `KV`: one parameter of a StartupMessage. -/
structure KV where
  k : Bytes
  v : Bytes
deriving DecidableEq

/-- The parameter can be sent: its key is not empty, and neither string has a NUL inside. -/
def KV.WellFormed (kv : KV) : Prop := kv.k ≠ [] ∧ 0 ∉ kv.k ∧ 0 ∉ kv.v

instance (kv : KV) : Decidable kv.WellFormed := inferInstanceAs (Decidable (_ ∧ _ ∧ _))

/-! ## The decoder -/

/-- `indexByte`: the first position from `start` on that holds `c`, with `none` for -1. -/
def indexByteFrom (b : Bytes) (start : ℕ) (c : UInt8) : Option ℕ :=
  (indexByte (b.drop start) c).map (start + ·)

/-- The loop of `ParseStartupBody`. -/
def parseParams (b : Bytes) : ℕ → ℕ → List KV → GoM GoError (List KV)
  | 0, _, _ => .error .outOfFuel
  | fuel + 1, cursor, out =>
    if cursor < b.length - 1 then
      match indexByteFrom b cursor 0 with
      | none => fail (errorf "startup body: unterminated key at %d" [.number cursor])
      | some keyEnd => do
        let key ← slice b cursor keyEnd
        refuse (key = []) (errorf "startup body: empty key at %d" [.number cursor])
        match indexByteFrom b (keyEnd + 1) 0 with
        | none => fail (errorf "startup body: unterminated value for key %q" [.text key])
        | some valEnd => do
          let val ← slice b (keyEnd + 1) valEnd
          parseParams b fuel (valEnd + 1) (out ++ [⟨key, val⟩])
    else do
      refuse (cursor ≠ b.length - 1) (errorf "startup body: missing end-of-params NUL" [])
      pure out

/-- `ParseStartupBody`. -/
def parseStartupBody (b : Bytes) : GoM GoError (List KV) := do
  refuse (b.getLast? ≠ some 0) (errorf "startup body: missing trailing NUL" [])
  parseParams b (b.length + 1) 0 []

/-- `LookupParam`. -/
def lookupParam (params : List KV) (key : Bytes) : Bytes :=
  ((params.find? fun kv ↦ kv.k = key).map KV.v).getD []

/-! ## The encoder -/

/-- One round of the loop of `EncodeStartup` that fills the buffer from a position on. -/
def encodeParam (state : Bytes × ℕ) (kv : KV) : GoM GoError (Bytes × ℕ) := do
  let (out, pos) := state
  let out ← copyTo out pos kv.k
  let out ← setByte out (pos + kv.k.length) 0
  let out ← copyTo out (pos + kv.k.length + 1) kv.v
  let out ← setByte out (pos + kv.k.length + 1 + kv.v.length) 0
  pure (out, pos + kv.k.length + 1 + kv.v.length + 1)

/-- `EncodeStartup`. -/
def encodeStartup (params : List KV) : GoM GoError Bytes := do
  let bodyLen := 1 + (params.map fun kv ↦ kv.k.length + 1 + kv.v.length + 1).sum
  let total := 4 + 4 + bodyLen
  let out ← putUint32 (List.replicate total 0) 0 (UInt32.ofNat total)
  let out ← putUint32 out 4 protocolV3
  let (out, pos) ← params.foldlM encodeParam (out, 8)
  setByte out pos 0

/-! ## The bytes of a parameter block -/

/-- The bytes of one parameter. -/
def KV.bytes (kv : KV) : Bytes := kv.k ++ 0 :: (kv.v ++ [0])

/-- The bytes behind the header of a StartupMessage. -/
def startupBody (params : List KV) : Bytes := params.flatMap KV.bytes ++ [0]

/-- A StartupMessage. -/
def startupFrame (params : List KV) : Bytes :=
  be32 (UInt32.ofNat (8 + (startupBody params).length)) ++ be32 protocolV3 ++ startupBody params

theorem KV.length_bytes (kv : KV) : kv.bytes.length = kv.k.length + 1 + kv.v.length + 1 := by
  simp only [KV.bytes, List.length_append, List.length_cons, List.length_nil]
  omega

/-- One round of the encoder turns zeros into the bytes of the parameter. -/
theorem encodeParam_zeros (written : Bytes) (kv : KV) (zeros : ℕ) :
    encodeParam (written ++ List.replicate (kv.bytes.length + zeros) 0, written.length) kv =
      .ok (written ++ kv.bytes ++ List.replicate zeros 0, (written ++ kv.bytes).length) := by
  have hlength := kv.length_bytes
  have hkey : (copyTo (written ++ List.replicate (kv.bytes.length + zeros) 0) written.length kv.k :
      GoM GoError Bytes) =
      .ok (written ++ kv.k ++ List.replicate (kv.v.length + 1 + zeros + 1) 0) := by
    rw [copyTo_zeros written kv.k (by omega)]
    congr 3
    omega
  have hkeyEnd : (setByte (written ++ kv.k ++ List.replicate (kv.v.length + 1 + zeros + 1) 0)
      (written.length + kv.k.length) 0 : GoM GoError Bytes) =
      .ok (written ++ kv.k ++ [0] ++ List.replicate (kv.v.length + 1 + zeros) 0) := by
    rw [← List.length_append, setByte_zeros]
  have hval : (copyTo (written ++ kv.k ++ [0] ++ List.replicate (kv.v.length + 1 + zeros) 0)
      (written.length + kv.k.length + 1) kv.v : GoM GoError Bytes) =
      .ok (written ++ kv.k ++ [0] ++ kv.v ++ List.replicate (zeros + 1) 0) := by
    have hposition : written.length + kv.k.length + 1 = (written ++ kv.k ++ [0]).length := by
      simp only [List.length_append, List.length_cons, List.length_nil]
    rw [hposition, copyTo_zeros _ kv.v (by omega)]
    congr 3
    omega
  have hvalEnd : (setByte (written ++ kv.k ++ [0] ++ kv.v ++ List.replicate (zeros + 1) 0)
      (written.length + kv.k.length + 1 + kv.v.length) 0 : GoM GoError Bytes) =
      .ok (written ++ kv.k ++ [0] ++ kv.v ++ [0] ++ List.replicate zeros 0) := by
    have hposition : written.length + kv.k.length + 1 + kv.v.length =
        (written ++ kv.k ++ [0] ++ kv.v).length := by
      simp only [List.length_append, List.length_cons, List.length_nil]
    rw [hposition, setByte_zeros]
  have hbytes : written ++ kv.k ++ [0] ++ kv.v ++ [0] = written ++ kv.bytes := by
    simp only [KV.bytes, List.append_assoc, List.cons_append, List.nil_append]
  have hend : written.length + kv.k.length + 1 + kv.v.length + 1 = (written ++ kv.bytes).length := by
    rw [List.length_append, hlength]
    omega
  simp only [encodeParam, hkey, hkeyEnd, hval, hvalEnd, ok_bind, hbytes, hend]
  rfl

theorem foldlM_encodeParam (params : List KV) (written : Bytes) (zeros : ℕ) :
    params.foldlM encodeParam
        (written ++ List.replicate ((params.flatMap KV.bytes).length + zeros) 0, written.length) =
      .ok (written ++ params.flatMap KV.bytes ++ List.replicate zeros 0,
        (written ++ params.flatMap KV.bytes).length) := by
  induction params generalizing written with
  | nil =>
    simp only [List.foldlM_nil, List.flatMap_nil, List.length_nil, Nat.zero_add, List.append_nil]
    rfl
  | cons kv params ih =>
    have hsplit : ((kv :: params).flatMap KV.bytes).length + zeros =
        kv.bytes.length + ((params.flatMap KV.bytes).length + zeros) := by
      rw [List.flatMap_cons, List.length_append]
      omega
    rw [List.foldlM_cons, hsplit, encodeParam_zeros, ok_bind, ih, List.flatMap_cons,
      ← List.append_assoc written]

theorem length_flatMap_bytes (params : List KV) :
    (params.flatMap KV.bytes).length =
      (params.map fun kv ↦ kv.k.length + 1 + kv.v.length + 1).sum := by
  rw [List.length_flatMap]
  exact congrArg List.sum (List.map_congr_left fun kv _ ↦ kv.length_bytes)

/-- The encoder stays inside its buffer and fills it. -/
theorem encodeStartup_eq (params : List KV) : encodeStartup params = .ok (startupFrame params) := by
  let size := (params.flatMap KV.bytes).length
  have hbody : (startupBody params).length = size + 1 := by
    rw [startupBody, List.length_append]
    rfl
  have htotal : 4 + 4 + (1 + (params.map fun kv ↦ kv.k.length + 1 + kv.v.length + 1).sum) =
      4 + (4 + (size + 1)) := by
    rw [← length_flatMap_bytes]
    omega
  have hword : UInt32.ofNat (4 + (4 + (size + 1))) =
      UInt32.ofNat (8 + (startupBody params).length) := by
    rw [hbody]
    congr 1
    omega
  let length := be32 (UInt32.ofNat (8 + (startupBody params).length))
  have hlength : (putUint32 (List.replicate (4 + (4 + (size + 1))) 0) 0
      (UInt32.ofNat (8 + (startupBody params).length)) : GoM GoError Bytes) =
      .ok (length ++ List.replicate (4 + (size + 1)) 0) :=
    putUint32_zeros [] _ (4 + (size + 1))
  have hversion : (putUint32 (length ++ List.replicate (4 + (size + 1)) 0) 4 protocolV3 :
      GoM GoError Bytes) =
      .ok (length ++ be32 protocolV3 ++ List.replicate (size + 1) 0) := by
    have hposition : 4 = length.length := (length_be32 _).symm
    nth_rewrite 2 [hposition]
    exact putUint32_zeros length protocolV3 (size + 1)
  have hparams := foldlM_encodeParam params (length ++ be32 protocolV3) 1
  have hheader : (length ++ be32 protocolV3).length = 8 := by
    rw [List.length_append, length_be32, length_be32]
  rw [hheader] at hparams
  rw [encodeStartup]
  simp only [htotal, hword, hlength, hversion, ok_bind]
  rw [hparams, ok_bind]
  change setByte _ _ 0 = _
  rw [setByte_zeros, List.replicate_zero, List.append_nil, List.append_assoc]
  rfl

theorem drop_startupFrame (params : List KV) : (startupFrame params).drop 8 = startupBody params := by
  have hheader (word : UInt32) : (be32 word ++ be32 protocolV3).length = 8 := by
    rw [List.length_append, length_be32, length_be32]
  rw [startupFrame, List.drop_left' (hheader _)]

theorem length_startupFrame (params : List KV) :
    (startupFrame params).length = 8 + (startupBody params).length := by
  rw [startupFrame, List.length_append, List.length_append, length_be32, length_be32]

theorem take_startupFrame (params : List KV) :
    (startupFrame params).take 4 = be32 (UInt32.ofNat (startupFrame params).length) := by
  rw [length_startupFrame, startupFrame, List.append_assoc, List.take_left' (length_be32 _)]

/-! ## The decoder accepts what the encoder writes -/

theorem indexByteFrom_append (before : Bytes) {part : Bytes} (hpart : 0 ∉ part) (after : Bytes) :
    indexByteFrom (before ++ (part ++ 0 :: after)) before.length 0 =
      some (before.length + part.length) := by
  rw [indexByteFrom, List.drop_left, indexByte_append hpart]
  rfl

/-- One round of the decoder takes one parameter. -/
theorem parseParams_cons (before after : Bytes) {kv : KV} (hkv : kv.WellFormed)
    (hafter : after ≠ []) (fuel : ℕ) (out : List KV) :
    parseParams (before ++ (kv.bytes ++ after)) (fuel + 1) before.length out =
      parseParams (before ++ (kv.bytes ++ after)) fuel (before ++ kv.bytes).length
        (out ++ [kv]) := by
  obtain ⟨hkey, hkeyNul, hvalNul⟩ := hkv
  have hb : before ++ (kv.bytes ++ after) = before ++ (kv.k ++ 0 :: (kv.v ++ 0 :: after)) := by
    simp only [KV.bytes, List.append_assoc, List.cons_append, List.nil_append]
  have hb' : before ++ (kv.bytes ++ after) =
      before ++ kv.k ++ [0] ++ (kv.v ++ 0 :: after) := by
    simp only [KV.bytes, List.append_assoc, List.cons_append, List.nil_append]
  have hcursor : before.length < (before ++ (kv.bytes ++ after)).length - 1 := by
    have hlength := kv.length_bytes
    have hpos := List.length_pos_iff.mpr hafter
    simp only [List.length_append]
    omega
  have hkeyEnd : indexByteFrom (before ++ (kv.bytes ++ after)) before.length 0 =
      some (before.length + kv.k.length) := by
    rw [hb, indexByteFrom_append before hkeyNul]
  have hvalEnd : indexByteFrom (before ++ (kv.bytes ++ after)) (before.length + kv.k.length + 1) 0 =
      some (before.length + kv.k.length + 1 + kv.v.length) := by
    have hposition : before.length + kv.k.length + 1 = (before ++ kv.k ++ [0]).length := by
      simp only [List.length_append, List.length_cons, List.length_nil]
    rw [hb', hposition, indexByteFrom_append _ hvalNul]
  have hkeySlice : (slice (before ++ (kv.bytes ++ after)) before.length
      (before.length + kv.k.length) : GoM GoError Bytes) = .ok kv.k := by
    rw [hb, ← List.append_assoc]
    exact slice_append before kv.k _ rfl rfl
  have hvalSlice : (slice (before ++ (kv.bytes ++ after)) (before.length + kv.k.length + 1)
      (before.length + kv.k.length + 1 + kv.v.length) : GoM GoError Bytes) = .ok kv.v := by
    have hposition : before.length + kv.k.length + 1 = (before ++ kv.k ++ [0]).length := by
      simp only [List.length_append, List.length_cons, List.length_nil]
    rw [hb', ← List.append_assoc]
    exact slice_append _ kv.v _ hposition (by rw [hposition])
  have hnext : before.length + kv.k.length + 1 + kv.v.length + 1 = (before ++ kv.bytes).length := by
    rw [List.length_append, kv.length_bytes]
    omega
  rw [parseParams, if_pos hcursor, hkeyEnd]
  simp only [hkeySlice, ok_bind, refuse, hkey, if_false, hvalEnd, hvalSlice, hnext]
  rfl

theorem parseParams_startupBody (params : List KV) (hparams : ∀ kv ∈ params, kv.WellFormed)
    (before : Bytes) (fuel : ℕ) (hfuel : params.length < fuel) (out : List KV) :
    parseParams (before ++ startupBody params) fuel before.length out = .ok (out ++ params) := by
  induction params generalizing before fuel out with
  | nil =>
    obtain ⟨fuel, rfl⟩ := Nat.exists_eq_succ_of_ne_zero (Nat.ne_zero_of_lt hfuel)
    have hlast : (before ++ startupBody []).length - 1 = before.length := by
      rw [List.length_append]
      rfl
    rw [parseParams, hlast, if_neg (lt_irrefl _), List.append_nil]
    simp only [refuse, ne_eq, not_true_eq_false, if_false]
    rfl
  | cons kv params ih =>
    obtain ⟨fuel, rfl⟩ := Nat.exists_eq_succ_of_ne_zero (Nat.ne_zero_of_lt hfuel)
    have hsplit : startupBody (kv :: params) = kv.bytes ++ startupBody params := by
      rw [startupBody, List.flatMap_cons, List.append_assoc, startupBody]
    have hrest : startupBody params ≠ [] := List.append_ne_nil_of_right_ne_nil _ (by simp)
    calc
      _ = parseParams (before ++ (kv.bytes ++ startupBody params)) (fuel + 1) before.length out := by
        rw [hsplit]
      _ = parseParams (before ++ (kv.bytes ++ startupBody params)) fuel
            (before ++ kv.bytes).length (out ++ [kv]) :=
        parseParams_cons before _ (hparams kv List.mem_cons_self) hrest fuel out
      _ = .ok (out ++ [kv] ++ params) := by
        rw [← List.append_assoc]
        exact ih (fun kv' hkv' ↦ hparams kv' (List.mem_cons_of_mem _ hkv')) (before ++ kv.bytes) fuel
          (by simpa using hfuel) (out ++ [kv])
      _ = .ok (out ++ kv :: params) := by rw [List.append_assoc, List.singleton_append]

theorem length_le_length_startupBody (params : List KV) :
    params.length < (startupBody params).length + 1 := by
  induction params with
  | nil => decide
  | cons kv params ih =>
    have hlength := kv.length_bytes
    have hsplit : (startupBody (kv :: params)).length =
        kv.bytes.length + (startupBody params).length := by
      simp only [startupBody, List.flatMap_cons, List.length_append]
      omega
    rw [List.length_cons, hsplit]
    omega

theorem parseStartupBody_startupBody {params : List KV} (hparams : ∀ kv ∈ params, kv.WellFormed) :
    parseStartupBody (startupBody params) = .ok params := by
  have hlast : (startupBody params).getLast? = some 0 := by
    rw [startupBody, List.getLast?_append]
    rfl
  rw [parseStartupBody, refuse, if_neg (not_not_intro hlast)]
  exact parseParams_startupBody params hparams [] _ (length_le_length_startupBody params) []

/-! ## What the decoder accepts is written by the encoder -/

theorem indexByteFrom_eq_some {b : Bytes} {start position : ℕ} {c : UInt8}
    (h : indexByteFrom b start c = some position) :
    ∃ part after, b.drop start = part ++ c :: after ∧ c ∉ part ∧
      position = start + part.length := by
  rw [indexByteFrom, Option.map_eq_some_iff] at h
  obtain ⟨offset, hoffset, rfl⟩ := h
  obtain ⟨part, after, hsplit, hpart, rfl⟩ := indexByte_eq_some hoffset
  exact ⟨part, after, hsplit, hpart, rfl⟩

/-- The string between a position and the next NUL, and what is behind the NUL. -/
theorem drop_of_indexByteFrom {b part : Bytes} {start position : ℕ}
    (hposition : indexByteFrom b start 0 = some position)
    (hslice : (slice b start position : GoM GoError Bytes) = .ok part) :
    0 ∉ part ∧ b.drop start = part ++ 0 :: b.drop (position + 1) := by
  obtain ⟨found, after, hsplit, hfound, rfl⟩ := indexByteFrom_eq_some hposition
  have hpart : part = found := by
    obtain ⟨-, -, hpart⟩ := slice_eq_ok.mp hslice
    rw [hpart, List.drop_take, Nat.add_sub_cancel_left, hsplit, List.take_left]
  have hrest : b.drop (start + found.length + 1) = after := by
    rw [Nat.add_assoc, ← List.drop_drop, hsplit, List.drop_length_add_append]
    rfl
  rw [hpart, hrest]
  exact ⟨hfound, hsplit⟩

theorem parseParams_sound {b : Bytes} (hlast : b.getLast? = some 0) {fuel cursor : ℕ}
    {out result : List KV} (hcall : parseParams b fuel cursor out = .ok result) :
    ∃ params, (∀ kv ∈ params, kv.WellFormed) ∧ result = out ++ params ∧
      b.drop cursor = startupBody params := by
  induction fuel generalizing cursor out with
  | zero => simp [parseParams] at hcall
  | succ fuel ih =>
    rw [parseParams] at hcall
    split at hcall
    next hcursor =>
      split at hcall
      next => exact absurd hcall (fail_ne_ok _ _)
      next keyEnd hkeyEnd =>
        obtain ⟨key, hslice, hcall⟩ := bind_eq_ok.mp hcall
        obtain ⟨hkey, hcall⟩ := refuse_bind_eq_ok.mp hcall
        split at hcall
        next => exact absurd hcall (fail_ne_ok _ _)
        next valEnd hvalEnd =>
          obtain ⟨val, hslice', hcall⟩ := bind_eq_ok.mp hcall
          obtain ⟨hkeyNul, hdrop⟩ := drop_of_indexByteFrom hkeyEnd hslice
          obtain ⟨hvalNul, hdrop'⟩ := drop_of_indexByteFrom hvalEnd hslice'
          obtain ⟨params, hparams, hresult, hrest⟩ := ih hcall
          refine ⟨⟨key, val⟩ :: params, ?_, ?_, ?_⟩
          · intro kv hkv
            rcases List.mem_cons.mp hkv with rfl | hkv
            · exact ⟨hkey, hkeyNul, hvalNul⟩
            · exact hparams kv hkv
          · rw [hresult, List.append_assoc, List.singleton_append]
          · rw [hdrop, hdrop', hrest]
            simp only [startupBody, KV.bytes, List.flatMap_cons, List.append_assoc, List.cons_append,
              List.nil_append]
    next hcursor =>
      obtain ⟨hend, hcall⟩ := refuse_bind_eq_ok.mp hcall
      have hcursor : cursor = b.length - 1 := not_not.mp hend
      refine ⟨[], fun _ hkv ↦ absurd hkv List.not_mem_nil, ?_, ?_⟩
      · rw [List.append_nil]
        exact (Except.ok.inj hcall).symm
      · rw [hcursor, List.drop_length_sub_one (by rintro rfl; simp at hlast)]
        rw [List.getLast?_eq_some_getLast (by rintro rfl; simp at hlast)] at hlast
        rw [Option.some.inj hlast]
        rfl

theorem parseStartupBody_sound {b : Bytes} {params : List KV}
    (hcall : parseStartupBody b = .ok params) :
    (∀ kv ∈ params, kv.WellFormed) ∧ b = startupBody params := by
  obtain ⟨hlast, hcall⟩ := refuse_bind_eq_ok.mp hcall
  obtain ⟨params', hparams, hresult, hdrop⟩ := parseParams_sound (not_not.mp hlast) hcall
  rw [List.nil_append] at hresult
  rw [hresult]
  exact ⟨hparams, hdrop⟩

/-! ## The codec is a bijection -/

/-- Encoding and then decoding gives the parameters back, and the decoder accepts a parameter block
just when the encoder writes it, for the parameters it returns. -/
theorem startup_bijection :
    (∀ params : List KV, (∀ kv ∈ params, kv.WellFormed) →
      ∃ frame, encodeStartup params = .ok frame ∧
        (frame.length < 2 ^ 32 → (uint32BE (frame.take 4)).toNat = frame.length) ∧
        parseStartupBody (frame.drop 8) = .ok params) ∧
    (∀ b : Bytes, (∃ params, parseStartupBody b = .ok params) ↔
      ∃ params frame, (∀ kv ∈ params, KV.WellFormed kv) ∧ encodeStartup params = .ok frame ∧
        frame.drop 8 = b) ∧
    (∀ (b : Bytes) (params : List KV), parseStartupBody b = .ok params →
      ∃ frame, encodeStartup params = .ok frame ∧ frame.drop 8 = b) := by
  refine ⟨fun params hparams ↦ ?_, fun b ↦ ⟨?_, ?_⟩, fun b params hcall ↦ ?_⟩
  · refine ⟨startupFrame params, encodeStartup_eq params, fun hlength ↦ ?_, ?_⟩
    · rw [take_startupFrame, uint32BE_be32, UInt32.toNat_ofNat', Nat.mod_eq_of_lt hlength]
    · rw [drop_startupFrame, parseStartupBody_startupBody hparams]
  · rintro ⟨params, hcall⟩
    obtain ⟨hparams, rfl⟩ := parseStartupBody_sound hcall
    exact ⟨params, startupFrame params, hparams, encodeStartup_eq params, drop_startupFrame params⟩
  · rintro ⟨params, frame, hparams, hframe, rfl⟩
    rw [encodeStartup_eq] at hframe
    rw [← Except.ok.inj hframe, drop_startupFrame]
    exact ⟨params, parseStartupBody_startupBody hparams⟩
  · obtain ⟨-, rfl⟩ := parseStartupBody_sound hcall
    exact ⟨startupFrame params, encodeStartup_eq params, drop_startupFrame params⟩

end DbPivot.Postgres
