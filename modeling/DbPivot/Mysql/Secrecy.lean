import DbPivot.Mysql.Auth

/-!
# A plaintext login keeps the password

Without TLS a login sends the password only under a scramble or under the public key of the server.
Two passwords that cannot be told apart by the scrambles and the ciphertexts are so not told apart
by anything the login does: the two logins are one and the same program, whatever the server sends
and in which order. Every packet of a plaintext login is of one of four kinds, and the packet with
the password in the clear is none of them.
-/

namespace DbPivot.Mysql

open DbPivot.Go DbPivot.System

variable {Key : Type} {crypto : Crypto Key} {p q : Bytes}

/-- The scrambles and the ciphertexts of two passwords are the same. -/
structure Agree (crypto : Crypto Key) (p q : Bytes) : Prop where
  native : ∀ salt, scrambleNativePassword crypto p salt = scrambleNativePassword crypto q salt
  cachingSHA2 : ∀ salt,
    scrambleCachingSHA2Password crypto p salt = scrambleCachingSHA2Password crypto q salt
  rsa : ∀ seed salt pub,
    encryptCachingSHA2Password crypto seed p salt pub =
      encryptCachingSHA2Password crypto seed q salt pub

/-! ## Two passwords, one program -/

theorem mysqlAuthResponse_congr (h : Agree crypto p q) (plugin salt : Bytes) :
    mysqlAuthResponse crypto plugin p salt = mysqlAuthResponse crypto plugin q salt := by
  rw [mysqlAuthResponse, mysqlAuthResponse, h.native, h.cachingSHA2]

theorem mysqlCachingSHA2RSA_congr (h : Agree crypto p q) (conn : Layer) (seq : UInt8)
    (salt : Bytes) :
    mysqlCachingSHA2RSA crypto conn seq p salt = mysqlCachingSHA2RSA crypto conn seq q salt := by
  simp only [mysqlCachingSHA2RSA, h.rsa]

theorem mysqlCachingSHA2More_congr (hp : p ≠ []) (hq : q ≠ []) (h : Agree crypto p q)
    (conn : Layer) (seq : UInt8) (payload salt : Bytes) :
    mysqlCachingSHA2More crypto conn seq payload p salt false =
      mysqlCachingSHA2More crypto conn seq payload q salt false := by
  match payload with
  | [] => rfl
  | [_] => rfl
  | _ :: _ :: _ =>
    simp only [mysqlCachingSHA2More, hp, hq, if_false, Bool.false_eq_true,
      mysqlCachingSHA2RSA_congr h]

theorem mysqlFinishAuth_congr (hp : p ≠ []) (hq : q ≠ []) (h : Agree crypto p q) (conn : Layer)
    (fuel : ℕ) (seq : UInt8) (plugin salt : Bytes) :
    mysqlFinishAuth crypto conn p false fuel seq plugin salt =
      mysqlFinishAuth crypto conn q false fuel seq plugin salt := by
  induction fuel generalizing seq plugin salt with
  | zero => rfl
  | succ fuel ih =>
    simp only [mysqlFinishAuth, mysqlAuthResponse_congr h, mysqlCachingSHA2More_congr hp hq h, ih]

theorem authenticateUpstreamMySQL_congr (hp : p ≠ []) (hq : q ≠ []) (h : Agree crypto p q)
    (fuel : ℕ) (conn : Layer) (user database : Bytes) :
    authenticateUpstreamMySQL crypto fuel conn user p database false none =
      authenticateUpstreamMySQL crypto fuel conn user q database false none := by
  simp only [authenticateUpstreamMySQL, upgrade, pure_bind, mysqlAuthResponse_congr h,
    mysqlFinishAuth_congr hp hq h]

/-! ## The packets of a plaintext login -/

/-- The packet holds the password only under a scramble or a public key. -/
inductive Sealed (crypto : Crypto Key) (user password database : Bytes) : Bytes → Prop where
  | response {plugin salt authResp : Bytes} (caps : UInt32)
      (hauth : mysqlAuthResponse crypto plugin password salt = .ok authResp) :
      Sealed crypto user password database
        (encodeHandshakeResponse41 caps defaultCharsetUTF8MB4 user authResp database plugin)
  | switch {plugin salt authResp : Bytes}
      (hauth : mysqlAuthResponse crypto plugin password salt = .ok authResp) :
      Sealed crypto user password database authResp
  | requestKey : Sealed crypto user password database [cachingSHA2RequestKey]
  | ciphertext {seed salt enc : Bytes} {pub : Key}
      (henc : encryptCachingSHA2Password crypto seed password salt pub = .ok enc) :
      Sealed crypto user password database enc

/-- A world that answers a login in any way and keeps the packets it is given to write. -/
def Recorded (packets : List Bytes) :
    (c : LoginCall) → loginInterface.Reply c → List Bytes → Prop
  | .writePacket _ _ payload, _, packets' => packets' = packets ++ [payload]
  | .readPacket _, _, packets' => packets' = packets
  | .handshake _, _, packets' => packets' = packets
  | .entropy, _, packets' => packets' = packets

/-- All packets so far are sealed. -/
def AllSealed (crypto : Crypto Key) (user password database : Bytes) (packets : List Bytes) :
    Prop := ∀ payload ∈ packets, Sealed crypto user password database payload

variable {user password database : Bytes} {packets : List Bytes}

/-- Abbreviates what is shown of every part of the login. -/
abbrev KeepsSealed (crypto : Crypto Key) (user password database : Bytes) {α : Type}
    (program : LoginM α) (packets : List Bytes) : Prop :=
  Ensures (.still Recorded) (AllSealed crypto user password database)
    (OnValue fun _ packets ↦ AllSealed crypto user password database packets) program packets

theorem onValue_of_always {α : Type} {always : List Bytes → Prop} {result : GoM GoError α}
    (h : always packets) : OnValue (fun _ packets ↦ always packets) result packets := by
  cases result with
  | ok value => exact h
  | error fault => trivial

theorem keepsSealed_readPacket (h : AllSealed crypto user password database packets) (conn : Layer)
    (context : String) :
    KeepsSealed crypto user password database (Login.readPacket conn context) packets := by
  apply Ensures.call h
  rintro reply _ rfl
  exact ⟨h, onValue_of_always h⟩

theorem keepsSealed_writePacket (h : AllSealed crypto user password database packets)
    {payload : Bytes} (hpayload : Sealed crypto user password database payload) (conn : Layer)
    (seq : UInt8) (change : GoError → GoError) :
    KeepsSealed crypto user password database (Login.writePacket conn seq payload change)
      packets := by
  have hall : AllSealed crypto user password database (packets ++ [payload]) := by
    intro other hother
    rcases List.mem_append.mp hother with hother | hother
    · exact h other hother
    · rw [List.mem_singleton.mp hother]
      exact hpayload
  apply Ensures.call h
  rintro reply _ rfl
  exact ⟨hall, onValue_of_always hall⟩

theorem keepsSealed_entropy (h : AllSealed crypto user password database packets) :
    KeepsSealed crypto user password database Login.entropy packets := by
  apply Ensures.call h
  rintro reply _ rfl
  exact ⟨h, h⟩

theorem keepsSealed_bind {α β : Type} {first : LoginM α} {next : α → LoginM β}
    (hfirst : KeepsSealed crypto user password database first packets)
    (hnext : ∀ value packets, AllSealed crypto user password database packets →
      KeepsSealed crypto user password database (next value) packets) :
    KeepsSealed crypto user password database (first >>= next) packets := by
  apply Ensures.bindValue
  apply hfirst.mono
  intro result packets hresult
  cases result with
  | ok value => exact hnext value packets hresult
  | error fault => trivial

theorem keepsSealed_lift {α : Type} (h : AllSealed crypto user password database packets)
    (result : GoM GoError α) :
    KeepsSealed crypto user password database (Program.lift result) packets :=
  Ensures.lift h fun _ _ ↦ h

theorem keepsSealed_lift_bind {α β : Type} (h : AllSealed crypto user password database packets)
    {result : GoM GoError α} {next : α → LoginM β}
    (hnext : ∀ value, result = .ok value →
      KeepsSealed crypto user password database (next value) packets) :
    KeepsSealed crypto user password database (Program.lift result >>= next) packets :=
  Ensures.liftBind h hnext

theorem keepsSealed_mysqlCachingSHA2RSA (h : AllSealed crypto user password database packets)
    (conn : Layer) (seq : UInt8) (salt : Bytes) :
    KeepsSealed crypto user password database (mysqlCachingSHA2RSA crypto conn seq password salt)
      packets := by
  apply keepsSealed_bind (keepsSealed_writePacket h .requestKey conn seq _)
  intro _ packets h
  apply keepsSealed_bind (keepsSealed_readPacket h conn _)
  intro _ packets h
  apply keepsSealed_lift_bind h
  intro _ _
  apply keepsSealed_lift_bind h
  intro pub _
  apply keepsSealed_bind (keepsSealed_entropy h)
  intro seed packets h
  apply keepsSealed_lift_bind h
  intro enc henc
  exact keepsSealed_writePacket h (.ciphertext henc) conn _ _

/-- Without TLS the request for the password itself is answered under the public key. -/
theorem keepsSealed_mysqlCachingSHA2More (hpassword : password ≠ [])
    (h : AllSealed crypto user password database packets) (conn : Layer) (seq : UInt8)
    (payload salt : Bytes) :
    KeepsSealed crypto user password database
      (mysqlCachingSHA2More crypto conn seq payload password salt false) packets := by
  match payload with
  | [] => exact keepsSealed_lift h _
  | [_] => exact keepsSealed_lift h _
  | _ :: marker :: _ =>
    simp only [mysqlCachingSHA2More, hpassword, if_false, Bool.false_eq_true]
    split
    · exact keepsSealed_lift h (.ok seq)
    · split
      · exact keepsSealed_mysqlCachingSHA2RSA h conn seq salt
      · exact keepsSealed_lift h _

theorem keepsSealed_mysqlFinishAuth (hpassword : password ≠ []) (conn : Layer) (fuel : ℕ)
    (seq : UInt8) (plugin salt : Bytes) (h : AllSealed crypto user password database packets) :
    KeepsSealed crypto user password database
      (mysqlFinishAuth crypto conn password false fuel seq plugin salt) packets := by
  induction fuel generalizing seq plugin salt packets with
  | zero => exact keepsSealed_lift h _
  | succ fuel ih =>
    apply keepsSealed_bind (keepsSealed_readPacket h conn _)
    rintro ⟨rseq, payload⟩ packets h
    match payload with
    | [] => exact keepsSealed_lift h _
    | header :: rest =>
      dsimp only
      split
      · exact keepsSealed_lift h (.ok ())
      · split
        · exact keepsSealed_lift h _
        · split
          · apply keepsSealed_lift_bind h
            rintro ⟨newPlugin, np⟩ _
            apply keepsSealed_lift_bind h
            intro authResp hauth
            apply keepsSealed_bind (keepsSealed_writePacket h (.switch hauth) conn _ _)
            intro next packets h
            exact ih next _ _ h
          · split
            · apply keepsSealed_lift_bind h
              intro _ _
              apply keepsSealed_bind (keepsSealed_mysqlCachingSHA2More hpassword h conn _ _ salt)
              intro next packets h
              exact ih next _ _ h
            · exact keepsSealed_lift h _

theorem keepsSealed_authenticateUpstreamMySQL (hpassword : password ≠ []) (fuel : ℕ) (conn : Layer)
    (user database : Bytes) :
    KeepsSealed crypto user password database
      (authenticateUpstreamMySQL crypto fuel conn user password database false none) [] := by
  have h : AllSealed crypto user password database [] := fun _ hmem ↦ absurd hmem List.not_mem_nil
  apply keepsSealed_bind (keepsSealed_readPacket h conn _)
  rintro ⟨seq, payload⟩ packets h
  apply keepsSealed_lift_bind h
  intro _ _
  apply keepsSealed_lift_bind h
  intro hs _
  simp only [upgrade, pure_bind]
  apply keepsSealed_lift_bind h
  intro authResp hauth
  apply keepsSealed_bind (keepsSealed_writePacket h (.response _ hauth) conn _ _)
  intro next packets h
  apply keepsSealed_bind (keepsSealed_mysqlFinishAuth hpassword conn fuel next _ _ h)
  intro _ packets h
  exact keepsSealed_lift h (.ok _)

/-! ## The password stays secret -/

/-- Without TLS two passwords with the same scrambles and ciphertexts give the same login, so they
write the same bytes to every server, and every packet of the login is sealed. -/
theorem plaintext_login_secret {p q : Bytes} (hp : p ≠ []) (hq : q ≠ []) (h : Agree crypto p q)
    (fuel : ℕ) (conn : Layer) (user database : Bytes) :
    authenticateUpstreamMySQL crypto fuel conn user p database false none =
      authenticateUpstreamMySQL crypto fuel conn user q database false none ∧
    (∀ u : Upstream,
      ((authenticateUpstreamMySQL crypto fuel conn user p database false none).exec
        Upstream.handler u).2.link.plain.output =
      ((authenticateUpstreamMySQL crypto fuel conn user q database false none).exec
        Upstream.handler u).2.link.plain.output) ∧
    ∀ state, Run (World.Step (.still Recorded))
        (authenticateUpstreamMySQL crypto fuel conn user p database false none, []) state →
      ∀ payload ∈ state.2, Sealed crypto user p database payload := by
  have hsame := authenticateUpstreamMySQL_congr hp hq h fuel conn user database
  refine ⟨hsame, fun u ↦ by rw [hsame], fun state hrun ↦ ?_⟩
  exact ((keepsSealed_authenticateUpstreamMySQL hp fuel conn user database).sound hrun).1

/-- Hashes and a cipher that show nothing of their input. -/
def blindCrypto : Crypto Unit where
  sha1 _ := List.replicate 20 0
  sha256 _ := List.replicate 32 0
  length_sha1 := length_zeroSHA1
  length_sha256 := length_zeroSHA256
  pemDecode := some
  parsePKIXPublicKey _ := .ok (some ())
  encryptOAEP seed _ _ := .ok seed

theorem agree_blindCrypto : Agree blindCrypto (str "secret") (str "hunter2") where
  native salt := by
    have hp : str "secret" ≠ [] := by decide
    have hq : str "hunter2" ≠ [] := by decide
    simp only [scrambleNativePassword, hp, hq, if_false]
    rfl
  cachingSHA2 salt := by
    have hp : str "secret" ≠ [] := by decide
    have hq : str "hunter2" ≠ [] := by decide
    simp only [scrambleCachingSHA2Password, hp, hq, if_false]
    rfl
  rsa seed salt pub := rfl

theorem plaintext_login_secret_of_blindCrypto :
    str "secret" ≠ str "hunter2" ∧
      authenticateUpstreamMySQL blindCrypto 3 .plain (str "app") (str "secret") (str "app") false
          none =
        authenticateUpstreamMySQL blindCrypto 3 .plain (str "app") (str "hunter2") (str "app") false
          none :=
  ⟨by decide, (plaintext_login_secret (by decide) (by decide) agree_blindCrypto 3 .plain (str "app")
    (str "app")).1⟩

end DbPivot.Mysql
