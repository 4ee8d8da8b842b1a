import DbPivot.Mysql.LoginPacket

/-!
# The greeting of any server

The first packet of an upstream is parsed before anything is known about it. The parser tolerates a
greeting that stops after the lower half of the capability word, so each field behind that point
moves the position only when it is there, and the second part of the nonce is as long as the rest of
the packet allows. Here the parser is written once more with every index and slice expression in it,
those of the functions it calls included, and no greeting takes one of them out of range.

A greeting that has all its fields is a `Layout`. The parser reads the fixed part of every layout the
same way; what is left to a particular server is the second part of the nonce and the plugin.
-/

namespace DbPivot.Mysql

open DbPivot.Go

/-! ## Index and slice expressions -/

/-- The SQL state of an ERR packet and the position of its message; the state is behind a `#`. -/
def scanSqlState (b : Bytes) : GoM GoError (Bytes × ℕ) :=
  if 3 < b.length then do
    let mark ← index b 3
    if mark = 35 ∧ 9 ≤ b.length then (·, 9) <$> slice b 4 9 else pure ([], 3)
  else pure ([], 3)

/-- `ParseERRPacket` with its index and slice expressions. -/
def scanERRPacket (b : Bytes) : GoM GoError Bytes :=
  if b.length < 3 then pure (str "not an ERR packet")
  else do
    let header ← index b 0
    if header ≠ errPacketHeader then pure (str "not an ERR packet")
    else do
      let code ← slice b 1 3
      let (sqlState, pos) ← scanSqlState b
      let msg ← slice b pos b.length
      if sqlState ≠ [] then
        pure (str "ERROR " ++ itoa (uint16LE code).toNat ++ str " (" ++ sqlState ++ str "): " ++ msg)
      else pure (str "ERROR " ++ itoa (uint16LE code).toNat ++ str ": " ++ msg)

/-- The name of the plugin, with the slice for a name without its NUL. -/
def scanPluginName (b : Bytes) (pos : ℕ) (capabilities : UInt32) : GoM GoError Bytes :=
  if capabilities &&& clientPluginAuth ≠ 0 ∧ pos < b.length then
    match scanNulString b pos (b.length - pos) pos with
    | .ok (name, _) => pure name
    | .error (.err _) => trimNuls <$> slice b pos b.length
    | .error fault => .error fault
  else pure []

/-- The check of the protocol version, with the text of an ERR packet that came instead. -/
def scanVersion (b : Bytes) (protocolVersion : UInt8) : GoM GoError Unit :=
  if protocolVersion ≠ protocolVersion10 then
    if protocolVersion = errPacketHeader then do
      let text ← scanERRPacket b
      fail (errorf "server returned error instead of handshake: %s" [.text text])
    else fail (errorf "unsupported handshake protocol version %d" [.number protocolVersion.toNat])
  else pure ()

/-- `ParseHandshakeV10` with all its index and slice expressions. -/
def scanHandshakeV10 (b : Bytes) : GoM GoError HandshakeV10 := do
  refuse (b.length < 1) (errorf "handshake: empty" [])
  let protocolVersion ← index b 0
  scanVersion b protocolVersion
  let (serverVersion, pos) ← mapErr (wrapf "handshake server version: %w" [])
    (scanNulString b 1 (b.length - 1) 1)
  refuse (b.length < pos + 4) (errorf "handshake: truncated connection id" [])
  let connectionID ← slice b pos (pos + 4)
  let pos := pos + 4
  refuse (b.length < pos + 8) (errorf "handshake: truncated auth-plugin-data-part-1" [])
  let authData ← slice b pos (pos + 8)
  let pos := pos + 8
  refuse (b.length ≤ pos) (errorf "handshake: truncated filler" [])
  let pos := pos + 1
  refuse (b.length < pos + 2) (errorf "handshake: truncated capability lower" [])
  let capLower ← slice b pos (pos + 2)
  let pos := pos + 2
  let (characterSet, pos) ← optionalByte b pos
  let (statusFlags, pos) ← optionalUint16 b pos
  let (capUpper, pos) ← optionalUint16 b pos
  let capabilities := (uint16LE capLower).toUInt32 ||| (capUpper.toUInt32 <<< 16)
  let (authDataLen, pos) ← optionalByte b pos
  let pos := if pos + 10 ≤ b.length then pos + 10 else pos
  let (part2, pos) ← authDataPart2 b pos capabilities authDataLen
  let authPluginName ← scanPluginName b pos capabilities
  pure
    { protocolVersion
      serverVersion
      connectionID := uint32LE connectionID
      authPluginData := authData ++ part2
      capabilities
      characterSet
      statusFlags
      authPluginName }

section Scan

variable {b : Bytes} {pos : ℕ}

theorem slice_to_end (hpos : pos ≤ b.length) :
    (slice b pos b.length : GoM GoError Bytes) = .ok (b.drop pos) := by
  rw [slice_of_le hpos le_rfl, List.take_length]

theorem scanSqlState_eq (b : Bytes) :
    scanSqlState b =
      .ok (if b[3]? = some 35 ∧ 9 ≤ b.length then ((b.drop 4).take 5, 9) else ([], 3)) := by
  rw [scanSqlState]
  by_cases hmark : 3 < b.length
  · rw [if_pos hmark, index_of_lt hmark, ok_bind]
    simp only [List.getElem?_eq_getElem hmark, Option.some.injEq]
    split
    next htagged =>
      rw [slice_of_le (by omega) htagged.2, List.drop_take]
      rfl
    next => rfl
  · rw [if_neg hmark, if_neg fun htagged ↦ hmark (by omega)]
    rfl

theorem scanERRPacket_eq (b : Bytes) : scanERRPacket b = .ok (parseERRPacket b) := by
  rw [scanERRPacket, parseERRPacket]
  by_cases hshort : b.length < 3
  · rw [if_pos hshort, if_pos (.inl hshort)]
    rfl
  have hhead : b.head? = some b[0] := List.head?_eq_getElem? ▸ List.getElem?_eq_getElem (by omega)
  have hcode : (slice b 1 3 : GoM GoError Bytes) = .ok ((b.drop 1).take 2) := by
    rw [slice_of_le (by omega) (by omega), List.drop_take]
  rw [if_neg hshort, index_of_lt (by omega), ok_bind, hhead]
  by_cases hheader : b[0] = errPacketHeader
  · rw [if_neg (not_not_intro hheader), if_neg (by simp [hshort, hheader]), hcode, ok_bind,
      scanSqlState_eq, ok_bind]
    by_cases htagged : b[3]? = some 35 ∧ 9 ≤ b.length
    · simp only [htagged, and_self, if_true, slice_to_end htagged.2, ok_bind]
      split
      next => rfl
      next => rfl
    · simp only [htagged, if_false, slice_to_end (by omega : 3 ≤ b.length)]
      rfl
  · rw [if_pos hheader, if_pos (.inr (by simpa using hheader))]
    rfl

theorem scanPluginName_eq (b : Bytes) (pos : ℕ) (capabilities : UInt32) :
    scanPluginName b pos capabilities = .ok (authPluginName b pos capabilities) := by
  rw [scanPluginName, authPluginName]
  split
  next h =>
    rw [← readNulString_eq_scan h.2.le, slice_to_end h.2.le]
    have hreturns := returns_readNulString b pos
    rcases hread : readNulString b pos with (_ | _ | error) | ⟨name, next⟩
    · rw [hread] at hreturns
      exact absurd hreturns id
    · rw [hread] at hreturns
      exact absurd hreturns id
    · rfl
    · rfl
  next => rfl

theorem scanVersion_eq (b : Bytes) (protocolVersion : UInt8) :
    scanVersion b protocolVersion = refuse (protocolVersion ≠ protocolVersion10)
      (if protocolVersion = errPacketHeader then
        errorf "server returned error instead of handshake: %s" [.text (parseERRPacket b)]
      else errorf "unsupported handshake protocol version %d" [.number protocolVersion.toNat]) := by
  rw [scanVersion, refuse, scanERRPacket_eq]
  split
  next =>
    split
    next => rfl
    next => rfl
  next => rfl

/-- The two forms of the parser agree. -/
theorem scanHandshakeV10_eq (b : Bytes) : scanHandshakeV10 b = parseHandshakeV10 b := by
  rw [scanHandshakeV10, parseHandshakeV10]
  by_cases hempty : b.length < 1
  · rw [refuse_bind_of hempty, refuse_bind_of hempty]
  rw [← readNulString_eq_scan (by omega)]
  simp only [scanVersion_eq, scanPluginName_eq, ok_bind]

theorem returns_optionalByte (b : Bytes) (pos : ℕ) : Returns (optionalByte b pos) := by
  unfold optionalByte
  split
  next hpos =>
    rw [index_of_lt hpos]
    trivial
  next => trivial

theorem returns_optionalUint16 (b : Bytes) (pos : ℕ) : Returns (optionalUint16 b pos) := by
  unfold optionalUint16
  split
  next hpos =>
    rw [slice_of_le (by omega) hpos]
    trivial
  next => trivial

theorem returns_authDataPart2 (b : Bytes) (pos : ℕ) (capabilities : UInt32) (authDataLen : UInt8) :
    Returns (authDataPart2 b pos capabilities authDataLen) := by
  unfold authDataPart2
  split
  · dsimp only
    generalize (if 13 < authDataLen.toNat - 8 then authDataLen.toNat - 8 else 13) = part2Len
    generalize hcut : (if b.length < pos + part2Len then b.length - pos else part2Len) = cut
    split
    next hpos =>
      -- The part is cut off at the end of the packet, so its slice ends there at the latest.
      have hend : pos + cut ≤ b.length := by split at hcut <;> omega
      rw [slice_of_le (by omega) hend]
      trivial
    next => trivial
  · trivial

/-- No greeting takes the parser out of range. -/
theorem returns_parseHandshakeV10 (b : Bytes) : Returns (parseHandshakeV10 b) := by
  unfold parseHandshakeV10
  refine returns_bind (returns_refuse _ _) fun _ hempty ↦ ?_
  have hempty := refuse_eq_ok.mp hempty
  rw [index_of_lt (by omega), ok_bind]
  refine returns_bind (returns_refuse _ _) fun _ _ ↦ ?_
  refine returns_bind (returns_mapErr.mpr (returns_readNulString _ _)) fun version _ ↦ ?_
  dsimp only
  refine returns_bind (returns_refuse _ _) fun _ hid ↦ ?_
  have hid := refuse_eq_ok.mp hid
  rw [slice_of_le (by omega) (by omega), ok_bind]
  refine returns_bind (returns_refuse _ _) fun _ hdata ↦ ?_
  have hdata := refuse_eq_ok.mp hdata
  rw [slice_of_le (by omega) (by omega), ok_bind]
  refine returns_bind (returns_refuse _ _) fun _ hfiller ↦ ?_
  refine returns_bind (returns_refuse _ _) fun _ hlower ↦ ?_
  have hlower := refuse_eq_ok.mp hlower
  rw [slice_of_le (by omega) (by omega), ok_bind]
  refine returns_bind (returns_optionalByte _ _) fun _ _ ↦ ?_
  refine returns_bind (returns_optionalUint16 _ _) fun _ _ ↦ ?_
  refine returns_bind (returns_optionalUint16 _ _) fun _ _ ↦ ?_
  refine returns_bind (returns_optionalByte _ _) fun _ _ ↦ ?_
  exact returns_bind (returns_authDataPart2 _ _ _ _) fun _ _ ↦ trivial

end Scan

/-! ## Greetings with all their fields -/

/-- A greeting up to the reserved bytes, and what follows them. -/
structure Layout where
  serverVersion : Bytes
  zero_notMem_serverVersion : 0 ∉ serverVersion
  connectionID : UInt32
  part1 : Bytes
  length_part1 : part1.length = 8
  capabilities : UInt32
  charset : UInt8
  statusFlags : UInt16
  authDataLen : UInt8
  reserved : Bytes
  length_reserved : reserved.length = 10
  rest : Bytes

namespace Layout

variable (l : Layout)

/-- The greeting behind the version of the server. -/
def tail : Bytes :=
  le32 l.connectionID ++ (l.part1 ++ (0 : UInt8) :: (le16 l.capabilities.toUInt16 ++
    l.charset :: (le16 l.statusFlags ++ (le16 (l.capabilities >>> 16).toUInt16 ++
      l.authDataLen :: (l.reserved ++ l.rest)))))

def bytes : Bytes := protocolVersion10 :: (l.serverVersion ++ 0 :: l.tail)

/-- The position behind the reserved bytes. -/
def restPos : ℕ := l.serverVersion.length + 33

/-- What the parser makes of a layout whose second part and plugin it has read. -/
def handshake (part2 plugin : Bytes) : HandshakeV10 where
  protocolVersion := protocolVersion10
  serverVersion := l.serverVersion
  connectionID := l.connectionID
  authPluginData := l.part1 ++ part2
  capabilities := l.capabilities
  characterSet := l.charset
  statusFlags := l.statusFlags
  authPluginName := plugin

theorem at_rest : At l.bytes l.restPos l.rest := by
  have hbytes : At l.bytes 0 ((protocolVersion10 :: (l.serverVersion ++ (0 : UInt8) ::
      (le32 l.connectionID ++ (l.part1 ++ (0 : UInt8) :: (le16 l.capabilities.toUInt16 ++
        l.charset :: (le16 l.statusFlags ++ (le16 (l.capabilities >>> 16).toUInt16 ++
          l.authDataLen :: l.reserved))))))) ++ l.rest) := by
    refine ⟨Nat.zero_le _, ?_⟩
    simp only [bytes, tail, List.drop_zero, List.cons_append, List.append_assoc]
  have hrest := hbytes.advance
  simp only [List.length_cons, List.length_append, length_le32, length_le16, l.length_part1,
    l.length_reserved] at hrest
  convert hrest using 1
  rw [restPos]
  omega

/-- The fixed part of a greeting. -/
theorem parseHandshakeV10_bytes {part2 : Bytes} {pos : ℕ}
    (hpart2 : authDataPart2 l.bytes l.restPos l.capabilities l.authDataLen = .ok (part2, pos)) :
    parseHandshakeV10 l.bytes =
      .ok (l.handshake part2 (authPluginName l.bytes pos l.capabilities)) := by
  set b := l.bytes with hb
  have h0 : At b 0 (protocolVersion10 :: (l.serverVersion ++ 0 :: l.tail)) := ⟨Nat.zero_le _, rfl⟩
  have h1 : At b 1 (l.serverVersion ++ 0 :: l.tail) := h0.cons
  set start := 1 + l.serverVersion.length + 1 with hstart
  have h2 : At b start l.tail := h1.advance.cons
  have h3 := h2.advance
  rw [length_le32] at h3
  have h4 := h3.advance
  rw [l.length_part1] at h4
  have h5 := h4.cons
  have h6 := h5.advance
  rw [length_le16] at h6
  have h7 := h6.cons
  have h8 := h7.advance
  rw [length_le16] at h8
  have h9 := h8.advance
  rw [length_le16] at h9
  have h10 := h9.cons
  have h11 := h10.advance
  rw [l.length_reserved] at h11
  have hrest : start + 4 + 8 + 1 + 2 + 1 + 2 + 2 + 1 + 10 = l.restPos := by
    rw [hstart, restPos]
    omega
  have hlength := h11.length
  have hversion : mapErr (wrapf "handshake server version: %w" []) (readNulString b 1) =
      .ok (l.serverVersion, start) := by
    rw [readNulString_of_at l.zero_notMem_serverVersion h1]
    rfl
  have hid := h2.slice (ε := GoError)
  rw [length_le32] at hid
  have hdata := h3.slice (ε := GoError)
  rw [l.length_part1] at hdata
  have hlower := h5.slice (ε := GoError)
  rw [length_le16] at hlower
  rw [parseHandshakeV10, refuse_bind_of_not (by omega), h0.index, ok_bind,
    refuse_bind_of_not (not_not_intro rfl), hversion, ok_bind]
  dsimp only
  rw [refuse_bind_of_not (by omega), hid, ok_bind, refuse_bind_of_not (by omega), hdata, ok_bind,
    refuse_bind_of_not (by omega), refuse_bind_of_not (by omega), hlower, ok_bind,
    optionalByte_of_at h6, ok_bind]
  dsimp only
  rw [optionalUint16_of_at h7, ok_bind]
  dsimp only
  rw [optionalUint16_of_at h8, ok_bind]
  dsimp only
  rw [optionalByte_of_at h9, ok_bind]
  dsimp only
  rw [if_pos (by omega), hrest, uint16LE_le16, word_of_halves, hpart2, ok_bind]
  dsimp only
  rw [uint32LE_le32]
  rfl

end Layout

/-- The second part of a nonce that does not end with a NUL of its own. -/
theorem authDataPart2_of_at {b part2 rest : Bytes} {pos : ℕ} {capabilities : UInt32}
    {authDataLen : UInt8} (hsecure : capabilities &&& clientSecureConnection ≠ 0)
    (hlen : authDataLen.toNat ≤ 21) (hlength : part2.length = 12) (htrim : trimNuls part2 = part2)
    (h : At b pos ((part2 ++ [0]) ++ rest)) :
    authDataPart2 b pos capabilities authDataLen = .ok (part2, pos + 13) := by
  have hwhole : (part2 ++ [0]).length = 13 := by rw [List.length_append, hlength]; rfl
  have hslice := h.slice (ε := GoError)
  rw [hwhole] at hslice
  have hinside : ¬ b.length < pos + 13 := by
    rw [h.length, List.length_append, hwhole]
    omega
  have hpart2Len : (if 13 < authDataLen.toNat - 8 then authDataLen.toNat - 8 else 13) = 13 :=
    if_neg (by omega)
  simp only [authDataPart2, hsecure, ne_eq, not_false_eq_true, if_true, hpart2Len, hinside, if_false,
    Nat.zero_lt_succ, hslice, ok_bind, trimNuls_append_zero, htrim]
  rfl

theorem authPluginName_of_at {b plugin rest : Bytes} {pos : ℕ} {capabilities : UInt32}
    (hauth : capabilities &&& clientPluginAuth ≠ 0) (hplugin : 0 ∉ plugin)
    (h : At b pos (plugin ++ 0 :: rest)) : authPluginName b pos capabilities = plugin := by
  rw [authPluginName, if_pos ⟨hauth, lt_length_of_at h⟩, readNulString_of_at hplugin h]

/-! ## The greeting of the proxy -/

section Encode

variable {serverVersion authPlugin salt : Bytes} {capabilities : UInt32}

theorem length_zeroReserved : (List.replicate 10 (0 : UInt8)).length = 10 := List.length_replicate

/-- What `EncodeHandshakeV10` writes is a layout. -/
def encodedLayout (hversion : 0 ∉ serverVersion) (connectionID capabilities : UInt32)
    (charset : UInt8) (statusFlags : UInt16) (authPlugin : Bytes) (hsalt : salt.length = 20) :
    Layout where
  serverVersion := serverVersion
  zero_notMem_serverVersion := hversion
  connectionID := connectionID
  part1 := salt.take 8
  length_part1 := by rw [List.length_take, hsalt]; rfl
  capabilities := capabilities
  charset := charset
  statusFlags := statusFlags
  authDataLen := if capabilities &&& clientPluginAuth ≠ 0 then 21 else 0
  reserved := List.replicate 10 0
  length_reserved := length_zeroReserved
  rest := (salt.drop 8 ++ [0]) ++
    if capabilities &&& clientPluginAuth ≠ 0 then authPlugin ++ [0] else []

theorem encodeHandshakeV10_eq (hversion : 0 ∉ serverVersion) (connectionID capabilities : UInt32)
    (charset : UInt8) (statusFlags : UInt16) (authPlugin : Bytes) (hsalt : salt.length = 20) :
    encodeHandshakeV10 serverVersion connectionID capabilities charset statusFlags authPlugin salt =
      (encodedLayout hversion connectionID capabilities charset statusFlags authPlugin hsalt).bytes := by
  have hshort : ¬ salt.length < 20 := by omega
  have htake : salt.take 20 = salt := List.take_of_length_le (by omega)
  simp only [encodeHandshakeV10, hshort, if_false, htake, Layout.bytes, Layout.tail, encodedLayout,
    List.cons_append, List.append_assoc, List.nil_append]

theorem trimNuls_drop (hsalt : salt.length = 20) (hlast : salt.getLast? ≠ some 0) :
    trimNuls (salt.drop 8) = salt.drop 8 := by
  apply trimNuls_of_getLast?
  rw [List.getLast?_drop, if_neg (by omega)]
  exact hlast

end Encode

/-- Every index and slice expression that parsing a greeting evaluates is in range, whatever the
bytes. A greeting that the proxy encodes is parsed back to what it was made of, with the plugin only
where it was announced. -/
theorem greeting_exact :
    (∀ b : Bytes, Returns (scanHandshakeV10 b) ∧ scanHandshakeV10 b = parseHandshakeV10 b) ∧
    ∀ (serverVersion authPlugin salt : Bytes) (connectionID capabilities : UInt32) (charset : UInt8)
      (statusFlags : UInt16), 0 ∉ serverVersion → 0 ∉ authPlugin →
      capabilities &&& clientSecureConnection ≠ 0 → salt.length = 20 → salt.getLast? ≠ some 0 →
      parseHandshakeV10 (encodeHandshakeV10 serverVersion connectionID capabilities charset
        statusFlags authPlugin salt) = .ok
          { protocolVersion := protocolVersion10
            serverVersion
            connectionID
            authPluginData := salt
            capabilities
            characterSet := charset
            statusFlags
            authPluginName := if capabilities &&& clientPluginAuth ≠ 0 then authPlugin else [] } := by
  refine ⟨fun b ↦ ?_, ?_⟩
  · rw [scanHandshakeV10_eq]
    exact ⟨returns_parseHandshakeV10 b, rfl⟩
  · intro serverVersion authPlugin salt connectionID capabilities charset statusFlags hversion
      hplugin hsecure hsalt hlast
    rw [encodeHandshakeV10_eq hversion connectionID capabilities charset statusFlags authPlugin hsalt]
    set l := encodedLayout hversion connectionID capabilities charset statusFlags authPlugin hsalt
      with hl
    have hlen : l.authDataLen.toNat ≤ 21 := by
      change (if capabilities &&& clientPluginAuth ≠ 0 then (21 : UInt8) else 0).toNat ≤ 21
      split
      · exact le_rfl
      · exact Nat.zero_le _
    have hpart2 : (salt.drop 8).length = 12 := by rw [List.length_drop, hsalt]
    have hrest := l.at_rest
    have hname := hrest.advance
    rw [List.length_append, hpart2] at hname
    have hauthName : authPluginName l.bytes (l.restPos + 13) capabilities =
        if capabilities &&& clientPluginAuth ≠ 0 then authPlugin else [] := by
      by_cases hauth : capabilities &&& clientPluginAuth ≠ 0
      · rw [if_pos hauth] at hname ⊢
        exact authPluginName_of_at hauth hplugin hname
      · rw [if_neg hauth, authPluginName, if_neg fun h ↦ hauth h.1]
    have hwhole : salt.take 8 ++ salt.drop 8 = salt := List.take_append_drop 8 salt
    rw [l.parseHandshakeV10_bytes
      (authDataPart2_of_at hsecure hlen hpart2 (trimNuls_drop hsalt hlast) hrest)]
    simp only [Layout.handshake, hl, encodedLayout, hwhole] at hauthName ⊢
    rw [hauthName]

theorem greeting_exact_proxy :
    parseHandshakeV10 (encodeHandshakeV10 (str "8.0.0") 7 (clientSecureConnection ||| clientPluginAuth)
      45 2 mySQLNativePassword (List.replicate 20 1)) = .ok
        { protocolVersion := protocolVersion10
          serverVersion := str "8.0.0"
          connectionID := 7
          authPluginData := List.replicate 20 1
          capabilities := clientSecureConnection ||| clientPluginAuth
          characterSet := 45
          statusFlags := 2
          authPluginName := mySQLNativePassword } :=
  greeting_exact.2 (str "8.0.0") mySQLNativePassword (List.replicate 20 1) 7
    (clientSecureConnection ||| clientPluginAuth) 45 2 (by decide) (by decide) (by decide) (by decide)
    (by decide)

end DbPivot.Mysql
