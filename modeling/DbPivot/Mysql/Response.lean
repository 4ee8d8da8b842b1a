import DbPivot.Mysql.LoginPacket
import DbPivot.Mysql.Auth

/-!
# The login packet of the proxy

The packet that logs in at an upstream is written by one function and would be read by another, with
the capability word between them: it says which optional fields are there and how the length of the
authentication response is encoded. The word comes from what the server offers. Whatever that is, the
word announces the 4.1 protocol, secure connections and a plugin, and announces a database exactly
when there is one.

The length of the response is always written as one byte, also when the word announces a
length-encoded integer. The two encodings agree below 0xFB, and the plugins make responses of at
most 32 bytes.
-/

namespace DbPivot.Mysql

open DbPivot.Go

/-! ## Capabilities -/

theorem mysqlUpstreamCaps_flag (serverCaps : UInt32) (withDB : Bool) {flag : UInt32}
    (hflag : (clientProtocol41 ||| clientSecureConnection ||| clientPluginAuth) &&& flag ≠ 0) :
    mysqlUpstreamCaps serverCaps withDB &&& flag ≠ 0 := by
  cases withDB with
  | false => exact or_and_ne_zero (.inr hflag)
  | true => exact or_and_ne_zero (.inl (or_and_ne_zero (.inr hflag)))

/-- The capabilities of a login packet say that it has the form a server reads. -/
def Modern (caps : UInt32) : Prop :=
  caps &&& clientProtocol41 ≠ 0 ∧ caps &&& clientSecureConnection ≠ 0 ∧ caps &&& clientPluginAuth ≠ 0

theorem modern_mysqlUpstreamCaps (serverCaps : UInt32) (withDB : Bool) :
    Modern (mysqlUpstreamCaps serverCaps withDB) :=
  ⟨mysqlUpstreamCaps_flag _ _ (by decide), mysqlUpstreamCaps_flag _ _ (by decide),
    mysqlUpstreamCaps_flag _ _ (by decide)⟩

theorem Modern.or {caps : UInt32} (h : Modern caps) (more : UInt32) : Modern (caps ||| more) :=
  ⟨or_and_ne_zero (.inl h.1), or_and_ne_zero (.inl h.2.1), or_and_ne_zero (.inl h.2.2)⟩

/-- A login packet announces a database if there is one, whatever the server can do. -/
theorem connectWithDB_mysqlUpstreamCaps (serverCaps : UInt32) (withDB : Bool) :
    mysqlUpstreamCaps serverCaps withDB &&& clientConnectWithDB ≠ 0 ↔ withDB = true := by
  cases withDB with
  | false =>
    have hdesired (desired : UInt32) (h : clientConnectWithDB &&& desired = 0) :
        (desired &&& serverCaps) &&& clientConnectWithDB = 0 := by
      rw [UInt32.and_comm, ← UInt32.and_assoc, h, UInt32.zero_and]
    have hcaps : mysqlUpstreamCaps serverCaps false &&& clientConnectWithDB = 0 := by
      simp only [mysqlUpstreamCaps, Bool.false_eq_true, if_false]
      rw [or_and_distrib, hdesired _ (by decide), UInt32.zero_or]
      decide
    exact ⟨fun h ↦ absurd hcaps h, nofun⟩
  | true => exact ⟨fun _ ↦ rfl, fun _ ↦ or_and_ne_zero (.inr (by decide))⟩

theorem connectWithDB_or_clientSSL (caps : UInt32) :
    (caps ||| clientSSL) &&& clientConnectWithDB = caps &&& clientConnectWithDB := by
  have hssl : clientSSL &&& clientConnectWithDB = 0 := by decide
  rw [or_and_distrib, hssl, UInt32.or_zero]

/-! ## Responses -/

theorem length_xorBytes {a b : Bytes} (h : a.length = b.length) :
    (xorBytes a b).length = a.length := by
  rw [xorBytes, List.length_zipWith, h, Nat.min_self]

/-- A response is as long as a digest. -/
theorem length_mysqlAuthResponse {Key : Type} {crypto : Crypto Key} {plugin password salt : Bytes}
    {resp : Bytes} (h : mysqlAuthResponse crypto plugin password salt = .ok resp) :
    resp.length ≤ 32 := by
  unfold mysqlAuthResponse at h
  split at h
  · rw [← Except.ok.inj h, scrambleNativePassword]
    split
    · exact Nat.zero_le _
    · dsimp only
      rw [length_xorBytes (by rw [crypto.length_sha1, crypto.length_sha1]), crypto.length_sha1]
      decide
  split at h
  · rw [← Except.ok.inj h, scrambleCachingSHA2Password]
    split
    · exact Nat.zero_le _
    · dsimp only
      rw [length_xorBytes (by rw [crypto.length_sha256, crypto.length_sha256]), crypto.length_sha256]
  · cases h

/-! ## Reading the packet -/

section Read

variable {b rest : Bytes} {pos : ℕ} {caps : UInt32} {auth : Bytes}

/-- The one byte of the encoder is understood in both forms. -/
theorem readAuthResponse_of_at (hcaps : Modern caps) (hauth : auth.length < 0xFB)
    (hlength : b.length < 2 ^ 63)
    (h : At b pos (UInt8.ofNat auth.length :: (auth ++ rest))) :
    readAuthResponse b pos caps = .ok (auth, pos + 1 + auth.length) := by
  have hsize : (UInt8.ofNat auth.length).toNat = auth.length :=
    UInt8.toNat_ofNat_of_lt (show auth.length < 256 by omega)
  have hslice := h.cons.slice (ε := GoError)
  have hinside := h.length
  rw [List.length_cons, List.length_append] at hinside
  unfold readAuthResponse
  split
  · have hlead : UInt8.ofNat auth.length < 0xFB := UInt8.lt_iff_toNat_lt.mpr (by rw [hsize]; exact hauth)
    have hread : readLenencInt b pos = .ok (UInt64.ofNat auth.length, pos + 1) := by
      have hcode := readLenencInt_of_lenenc (.byte hlead) h
      rw [hsize] at hcode
      exact hcode
    have hnumber : (UInt64.ofNat auth.length).toNat = auth.length :=
      UInt64.toNat_ofNat_of_lt (show auth.length < 2 ^ 64 by omega)
    have hstop : (Int64.ofNat (pos + 1) + (UInt64.ofNat auth.length).toInt64).toInt =
        (pos + 1 + auth.length : ℕ) := by
      rw [toInt_add_of_lt (by omega), hnumber]
    rw [mapErr_eq_ok.mpr hread, ok_bind]
    dsimp only
    rw [hstop, refuse_bind_of_not (by omega), sliceInt, if_pos (by omega), Int.toNat_natCast, hslice]
    rfl
  · rw [if_pos hcaps.2.1, refuse_bind_of_not (by omega), h.index, ok_bind]
    dsimp only
    rw [hsize, refuse_bind_of_not (by omega), hslice]
    rfl

end Read

/-- The packet behind its authentication response. -/
def optionalFields (caps : UInt32) (database plugin : Bytes) : Bytes :=
  (if caps &&& clientConnectWithDB ≠ 0 then database ++ [0] else []) ++
    (if caps &&& clientPluginAuth ≠ 0 then plugin ++ [0] else [])

theorem encodeHandshakeResponse41_eq (caps : UInt32) (charset : UInt8)
    (user auth database plugin : Bytes) :
    encodeHandshakeResponse41 caps charset user auth database plugin =
      loginHeader caps charset ++ (user ++ 0 :: (UInt8.ofNat auth.length ::
        (auth ++ optionalFields caps database plugin))) := by
  simp only [encodeHandshakeResponse41, optionalFields, List.append_assoc, List.cons_append,
    List.nil_append]

theorem parseHandshakeResponse41_encode {caps : UInt32} (hcaps : Modern caps) (charset : UInt8)
    {user auth database plugin : Bytes} (huser : 0 ∉ user) (hauth : auth.length < 0xFB)
    (hdatabase : 0 ∉ database) (hplugin : 0 ∉ plugin)
    (hannounced : caps &&& clientConnectWithDB ≠ 0 ↔ database ≠ [])
    (hlength : (encodeHandshakeResponse41 caps charset user auth database plugin).length < 2 ^ 63) :
    parseHandshakeResponse41 (encodeHandshakeResponse41 caps charset user auth database plugin) =
      .ok
        { capabilities := caps
          maxPacketSize := 0xFFFFFF
          characterSet := charset
          username := user
          authResponse := auth
          database
          authPlugin := plugin } := by
  rw [encodeHandshakeResponse41_eq] at hlength ⊢
  set fields := optionalFields caps database plugin with hfields
  set b := loginHeader caps charset ++ (user ++ 0 :: (UInt8.ofNat auth.length :: (auth ++ fields)))
    with hb
  have h0 : At b 0 (le32 caps ++ (le32 0xFFFFFF ++ charset :: (List.replicate 23 0 ++ (user ++ 0 ::
      (UInt8.ofNat auth.length :: (auth ++ fields)))))) := by
    refine ⟨Nat.zero_le _, ?_⟩
    rw [List.drop_zero, hb, loginHeader]
    simp only [List.append_assoc, List.cons_append, List.nil_append]
  have h4 := h0.advance
  rw [length_le32] at h4
  have h8 := h4.advance
  rw [length_le32] at h8
  have h32 := h8.cons.advance
  rw [List.length_replicate] at h32
  have hauthAt := h32.advance.cons
  have hfieldsAt := hauthAt.cons.advance
  have hcapabilities := h0.slice (ε := GoError)
  have hmaxPacketSize := h4.slice (ε := GoError)
  rw [length_le32] at hcapabilities hmaxPacketSize
  have hinside := h32.length
  rw [parseHandshakeResponse41, refuse_bind_of_not (by omega), hcapabilities, ok_bind,
    uint32LE_le32]
  dsimp only
  rw [refuse_bind_of_not hcaps.1, hmaxPacketSize, ok_bind, uint32LE_le32, h8.index, ok_bind,
    mapErr_eq_ok.mpr (readNulString_of_at huser h32), ok_bind]
  dsimp only
  rw [readAuthResponse_of_at hcaps hauth hlength hauthAt, ok_bind]
  dsimp only
  rw [hfields, optionalFields, if_pos hcaps.2.2] at hfieldsAt
  by_cases hdb : caps &&& clientConnectWithDB ≠ 0
  · rw [if_pos hdb, List.append_assoc] at hfieldsAt
    have hpluginAt : At b _ (plugin ++ [0]) := hfieldsAt.advance.cons
    rw [if_pos hdb, mapErr_eq_ok.mpr (readNulString_of_at hdatabase hfieldsAt), ok_bind]
    dsimp only
    rw [if_pos ⟨hcaps.2.2, lt_length_of_at hpluginAt⟩, readNulString_of_at hplugin hpluginAt]
    rfl
  · have hempty : database = [] := not_not.mp (mt hannounced.mpr hdb)
    rw [if_neg hdb, List.nil_append] at hfieldsAt
    rw [if_neg hdb, pure_bind]
    dsimp only
    rw [if_pos ⟨hcaps.2.2, lt_length_of_at hfieldsAt⟩, readNulString_of_at hplugin hfieldsAt, hempty]
    rfl

/-! ## The packet that is sent -/

/-- The capabilities that the login packet carries. -/
def packetCaps (serverCaps : UInt32) (database : Bytes) (tls : Bool) : UInt32 :=
  let caps := mysqlUpstreamCaps serverCaps (database ≠ [])
  if tls then caps ||| clientSSL else caps

theorem modern_packetCaps (serverCaps : UInt32) (database : Bytes) (tls : Bool) :
    Modern (packetCaps serverCaps database tls) := by
  cases tls with
  | false => exact modern_mysqlUpstreamCaps serverCaps _
  | true => exact (modern_mysqlUpstreamCaps serverCaps _).or clientSSL

theorem connectWithDB_packetCaps (serverCaps : UInt32) (database : Bytes) (tls : Bool) :
    packetCaps serverCaps database tls &&& clientConnectWithDB ≠ 0 ↔ database ≠ [] := by
  have hcaps := connectWithDB_mysqlUpstreamCaps serverCaps (database ≠ [])
  rw [decide_eq_true_iff] at hcaps
  cases tls with
  | false => exact hcaps
  | true =>
    change (mysqlUpstreamCaps serverCaps (database ≠ []) ||| clientSSL) &&& clientConnectWithDB ≠ 0 ↔ _
    rw [connectWithDB_or_clientSSL]
    exact hcaps

/-- Whatever the server offers, the packet that the proxy builds says exactly what the proxy put into
it, and the request for TLS is its beginning. -/
theorem loginPacket_read_back {Key : Type} (crypto : Crypto Key) (serverCaps : UInt32) (tls : Bool)
    (charset : UInt8) {user database plugin scheme password nonce resp : Bytes} (huser : 0 ∉ user)
    (hdatabase : 0 ∉ database) (hplugin : 0 ∉ plugin)
    (hresp : mysqlAuthResponse crypto scheme password nonce = .ok resp)
    (hlength : (encodeHandshakeResponse41 (packetCaps serverCaps database tls) charset user resp
      database plugin).length < 2 ^ 63) :
    parseHandshakeResponse41 (encodeHandshakeResponse41 (packetCaps serverCaps database tls) charset
        user resp database plugin) =
      .ok
        { capabilities := packetCaps serverCaps database tls
          maxPacketSize := 0xFFFFFF
          characterSet := charset
          username := user
          authResponse := resp
          database
          authPlugin := plugin } ∧
    encodeSSLRequest (packetCaps serverCaps database tls) charset =
      (encodeHandshakeResponse41 (packetCaps serverCaps database tls) charset user resp database
        plugin).take 32 := by
  have hauth := length_mysqlAuthResponse hresp
  constructor
  · exact parseHandshakeResponse41_encode (modern_packetCaps serverCaps database tls) charset huser
      (by omega) hdatabase hplugin (connectWithDB_packetCaps serverCaps database tls) hlength
  · rw [encodeHandshakeResponse41_eq, List.take_left' (length_loginHeader _ _)]
    rfl

/-- Digests that are a checksum over and over, to run the model with. -/
def checksumCrypto : Crypto Unit where
  sha1 data := List.replicate 20 data.sum
  sha256 data := List.replicate 32 data.sum
  length_sha1 _ := List.length_replicate
  length_sha256 _ := List.length_replicate
  pemDecode := some
  parsePKIXPublicKey _ := .ok (some ())
  encryptOAEP _ _ plain := .ok plain

/-- An account with a password at a server that offers everything. -/
theorem loginPacket_read_back_scramble :
    ∃ resp, mysqlAuthResponse checksumCrypto cachingSHA2Password (str "secret")
        (List.replicate 20 1) = .ok resp ∧ resp.length = 32 ∧ resp ≠ List.replicate 32 0 ∧
      parseHandshakeResponse41 (encodeHandshakeResponse41 (packetCaps 0xFFFFFFFF (str "app") true)
        defaultCharsetUTF8MB4 (str "alice") resp (str "app") cachingSHA2Password) =
      .ok
        { capabilities := packetCaps 0xFFFFFFFF (str "app") true
          maxPacketSize := 0xFFFFFF
          characterSet := defaultCharsetUTF8MB4
          username := str "alice"
          authResponse := resp
          database := str "app"
          authPlugin := cachingSHA2Password } := by
  have hresp : mysqlAuthResponse checksumCrypto cachingSHA2Password (str "secret")
      (List.replicate 20 1) = .ok (scrambleCachingSHA2Password checksumCrypto (str "secret")
        (List.replicate 20 1)) := rfl
  exact ⟨_, hresp, by decide, by decide, (loginPacket_read_back checksumCrypto 0xFFFFFFFF true
    defaultCharsetUTF8MB4 (by decide) (by decide) (by decide) hresp (by decide)).1⟩

end DbPivot.Mysql
