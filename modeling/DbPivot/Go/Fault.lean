import DbPivot.Go.Bytes

/-!
# Go computations with errors, run-time panics and bounded loops

A Go function that returns an `error` is a computation in `GoM`. Two further outcomes are kept
apart from a returned error: an index or slice expression evaluated out of range, which panics in
Go, and a loop that has used up the fuel it was given. Neither is a value the Go caller can see,
so a result that excludes both says that the function returns, whatever it returns.
-/

namespace DbPivot.Go

/-- An operand of a formatting verb. -/
inductive Operand where
  | text (value : Bytes)
  | number (value : ℤ)
  | texts (values : List Bytes)
deriving DecidableEq, Repr

/-- `fmt.Errorf`: the format, its operands and the wrapped error, if there is one. -/
inductive GoError where
  | errorf (format : String) (operands : List Operand) (cause : Option GoError)
deriving Repr

/-- `fmt.Errorf` without a wrapped error. -/
def errorf (format : String) (operands : List Operand) : GoError := .errorf format operands none

/-- `fmt.Errorf` with a `%w` or `%v` verb for another error. -/
def wrapf (format : String) (operands : List Operand) (cause : GoError) : GoError :=
  .errorf format operands (some cause)

/-- The ways a computation can end without a value. -/
inductive Fault (ε : Type) where
  | panic
  | outOfFuel
  | err (error : ε)
deriving Repr

abbrev GoM (ε α : Type) := Except (Fault ε) α

variable {ε α β : Type}

/-- `return ..., err`. -/
def fail (error : ε) : GoM ε α := .error (.err error)

/-- The computation returns, with a value or with an error. -/
def Returns : GoM ε α → Prop
  | .error .panic => False
  | .error .outOfFuel => False
  | _ => True

/-- The computation returns an error. -/
def Errs : GoM ε α → Prop
  | .error (.err _) => True
  | _ => False

instance (computation : GoM ε α) : Decidable (Returns computation) :=
  match computation with
  | .ok _ => isTrue trivial
  | .error (.err _) => isTrue trivial
  | .error .panic => isFalse id
  | .error .outOfFuel => isFalse id

instance (computation : GoM ε α) : Decidable (Errs computation) :=
  match computation with
  | .ok _ => isFalse id
  | .error (.err _) => isTrue trivial
  | .error .panic => isFalse id
  | .error .outOfFuel => isFalse id

@[simp] theorem returns_ok (value : α) : Returns (.ok value : GoM ε α) := trivial

@[simp] theorem returns_pure (value : α) : Returns (pure value : GoM ε α) := trivial

@[simp] theorem returns_fail (error : ε) : Returns (fail error : GoM ε α) := trivial

@[simp] theorem not_errs_ok (value : α) : ¬ Errs (.ok value : GoM ε α) := id

@[simp] theorem errs_fail (error : ε) : Errs (fail error : GoM ε α) := trivial

@[simp] theorem fail_ne_ok (error : ε) (value : α) : (fail error : GoM ε α) ≠ .ok value := by
  simp [fail]

@[simp] theorem fail_bind (error : ε) (next : α → GoM ε β) :
    (fail error >>= next) = fail error := rfl

@[simp] theorem ok_bind (value : α) (next : α → GoM ε β) :
    ((.ok value : GoM ε α) >>= next) = next value := rfl

theorem bind_eq_ok {first : GoM ε α} {next : α → GoM ε β} {result : β} :
    (first >>= next) = .ok result ↔ ∃ value, first = .ok value ∧ next value = .ok result := by
  cases first with
  | error fault => simp [bind, Except.bind]
  | ok value => simp

theorem bind_unit_eq_ok {first : GoM ε Unit} {next : Unit → GoM ε β} {result : β} :
    (first >>= next) = .ok result ↔ first = .ok () ∧ next () = .ok result := by
  rw [bind_eq_ok]
  exact ⟨fun ⟨(), hfirst, hnext⟩ ↦ ⟨hfirst, hnext⟩, fun ⟨hfirst, hnext⟩ ↦ ⟨(), hfirst, hnext⟩⟩

/-- `if cond { return err }`. -/
def refuse (cond : Prop) [Decidable cond] (error : ε) : GoM ε Unit :=
  if cond then fail error else pure ()

theorem refuse_eq_ok {cond : Prop} [Decidable cond] {error : ε} {result : Unit} :
    refuse cond error = .ok result ↔ ¬ cond := by
  unfold refuse
  split <;> simp [*, pure, Except.pure]

theorem refuse_bind_eq_ok {cond : Prop} [Decidable cond] {error : ε} {next : Unit → GoM ε β}
    {result : β} :
    (refuse cond error >>= next) = .ok result ↔ ¬ cond ∧ next () = .ok result := by
  unfold refuse
  split <;> simp [*, pure, Except.pure]

theorem refuse_bind_of_not {cond : Prop} [Decidable cond] {error : ε} {next : Unit → GoM ε β}
    (h : ¬ cond) : (refuse cond error >>= next) = next () := by
  rw [refuse, if_neg h]
  rfl

theorem refuse_bind_of {cond : Prop} [Decidable cond] {error : ε} {next : Unit → GoM ε β}
    (h : cond) : (refuse cond error >>= next) = fail error := by
  rw [refuse, if_pos h]
  rfl

theorem bind_congr_of_ok {first : GoM ε α} {left right : α → GoM ε β}
    (h : ∀ value, first = .ok value → left value = right value) :
    (first >>= left) = first >>= right := by
  cases first with
  | error fault => rfl
  | ok value => exact h value rfl

theorem returns_bind {first : GoM ε α} {next : α → GoM ε β} (hfirst : Returns first)
    (hnext : ∀ value, first = .ok value → Returns (next value)) : Returns (first >>= next) := by
  cases first with
  | error fault =>
    cases fault with
    | panic => exact hfirst
    | outOfFuel => exact hfirst
    | err error => trivial
  | ok value => exact hnext value rfl

theorem returns_bind_iff {first : GoM ε α} {next : α → GoM ε β} :
    Returns (first >>= next) ↔ Returns first ∧ ∀ value, first = .ok value → Returns (next value) := by
  refine ⟨fun h ↦ ⟨?_, fun value hvalue ↦ ?_⟩, fun h ↦ returns_bind h.1 h.2⟩
  · match first with
    | .ok _ => trivial
    | .error .panic => exact h
    | .error .outOfFuel => exact h
    | .error (.err _) => trivial
  · rw [hvalue] at h
    exact h

theorem returns_refuse (cond : Prop) [Decidable cond] (error : ε) :
    Returns (refuse cond error) := by
  unfold refuse
  split <;> trivial

/-- A computation that returns either has a value or an error. -/
theorem errs_of_returns {computation : GoM ε α} (hreturns : Returns computation)
    (hvalue : ∀ value, computation ≠ .ok value) : Errs computation := by
  cases computation with
  | ok value => exact absurd rfl (hvalue value)
  | error fault =>
    cases fault with
    | panic => exact hreturns
    | outOfFuel => exact hreturns
    | err error => trivial

theorem exists_fail_of_errs {computation : GoM ε α} (herrs : Errs computation) :
    ∃ error, computation = fail error := by
  cases computation with
  | ok value => exact absurd herrs id
  | error fault =>
    cases fault with
    | panic => exact absurd herrs id
    | outOfFuel => exact absurd herrs id
    | err error => exact ⟨error, rfl⟩

/-- Change the error a computation returns; a panic stays a panic. -/
def mapErr {ε' : Type} (change : ε → ε') : GoM ε α → GoM ε' α
  | .ok value => .ok value
  | .error .panic => .error .panic
  | .error .outOfFuel => .error .outOfFuel
  | .error (.err error) => .error (.err (change error))

@[simp] theorem mapErr_eq_ok {ε' : Type} {change : ε → ε'} {computation : GoM ε α} {value : α} :
    mapErr change computation = .ok value ↔ computation = .ok value := by
  cases computation with
  | ok other => simp [mapErr]
  | error fault => cases fault <;> simp [mapErr]

@[simp] theorem returns_mapErr {ε' : Type} {change : ε → ε'} {computation : GoM ε α} :
    Returns (mapErr change computation) ↔ Returns computation := by
  cases computation with
  | ok other => simp [mapErr]
  | error fault => cases fault <;> simp [mapErr, Returns]

/-- The computation returns an error of the given kind. -/
def FailsWith (bad : ε → Prop) (computation : GoM ε α) : Prop :=
  ∃ error, computation = fail error ∧ bad error

theorem failsWith_fail {bad : ε → Prop} {error : ε} :
    FailsWith bad (fail error : GoM ε α) ↔ bad error := by
  constructor
  · rintro ⟨other, hother, hbad⟩
    obtain rfl := Fault.err.inj (Except.error.inj hother)
    exact hbad
  · exact fun hbad ↦ ⟨error, rfl, hbad⟩

theorem not_failsWith_ok {bad : ε → Prop} {value : α} : ¬ FailsWith bad (.ok value : GoM ε α) := by
  rintro ⟨_, hother, -⟩
  cases hother

theorem failsWith_refuse {bad : ε → Prop} {cond : Prop} [Decidable cond] {error : ε} :
    FailsWith bad (refuse cond error) ↔ cond ∧ bad error := by
  unfold refuse
  split
  next hcond => rw [failsWith_fail, and_iff_right hcond]
  next hcond => exact iff_of_false not_failsWith_ok fun h ↦ hcond h.1

theorem failsWith_bind {bad : ε → Prop} {first : GoM ε α} {next : α → GoM ε β} :
    FailsWith bad (first >>= next) ↔
      FailsWith bad first ∨ ∃ value, first = .ok value ∧ FailsWith bad (next value) := by
  cases first with
  | error fault =>
    constructor
    · rintro ⟨error, herror, hbad⟩
      exact .inl ⟨error, congrArg Except.error (Except.error.inj herror), hbad⟩
    · rintro (⟨error, herror, hbad⟩ | ⟨value, hvalue, -⟩)
      · exact ⟨error, congrArg Except.error (Except.error.inj herror), hbad⟩
      · cases hvalue
  | ok value =>
    rw [ok_bind, or_iff_right not_failsWith_ok]
    constructor
    · exact fun h ↦ ⟨value, rfl, h⟩
    · rintro ⟨_, hvalue, h⟩
      obtain rfl := Except.ok.inj hvalue
      exact h

/-- The kind of a changed error. -/
theorem failsWith_mapErr_iff {ε' : Type} {bad : ε' → Prop} {change : ε → ε'}
    {computation : GoM ε α} :
    FailsWith bad (mapErr change computation) ↔
      FailsWith (fun error ↦ bad (change error)) computation := by
  rcases computation with (_ | _ | error) | value
  · constructor
    all_goals
      rintro ⟨_, h, -⟩
      cases h
  · constructor
    all_goals
      rintro ⟨_, h, -⟩
      cases h
  · have hbefore : FailsWith (fun error ↦ bad (change error)) (fail error : GoM ε α) ↔
        bad (change error) := failsWith_fail
    exact failsWith_fail.trans hbefore.symm
  · exact iff_of_false not_failsWith_ok not_failsWith_ok

/-- Wrapping keeps the kind of an error. -/
theorem failsWith_mapErr {bad : ε → Prop} {change : ε → ε}
    (hchange : ∀ error, bad (change error) ↔ bad error) {computation : GoM ε α} :
    FailsWith bad (mapErr change computation) ↔ FailsWith bad computation := by
  rcases computation with (_ | _ | error) | value
  · constructor
    all_goals
      rintro ⟨_, h, -⟩
      cases h
  · constructor
    all_goals
      rintro ⟨_, h, -⟩
      cases h
  · exact failsWith_fail.trans ((hchange error).trans failsWith_fail.symm)
  · exact iff_of_false not_failsWith_ok not_failsWith_ok

/-! ## Index and slice expressions -/

/-- `bytes[position]`. -/
def index (bytes : Bytes) (position : ℕ) : GoM ε UInt8 :=
  match bytes[position]? with
  | some byte => .ok byte
  | none => .error .panic

/-- `bytes[low:high]`. -/
def slice (bytes : Bytes) (low high : ℕ) : GoM ε Bytes :=
  if low ≤ high ∧ high ≤ bytes.length then .ok ((bytes.take high).drop low) else .error .panic

theorem index_eq_ok {bytes : Bytes} {position : ℕ} {byte : UInt8} :
    (index bytes position : GoM ε UInt8) = .ok byte ↔ bytes[position]? = some byte := by
  unfold index
  split <;> simp_all

theorem slice_eq_ok {bytes part : Bytes} {low high : ℕ} :
    (slice bytes low high : GoM ε Bytes) = .ok part ↔
      low ≤ high ∧ high ≤ bytes.length ∧ part = (bytes.take high).drop low := by
  unfold slice
  split <;> simp_all [eq_comm]

theorem slice_of_le {bytes : Bytes} {low high : ℕ} (hlow : low ≤ high)
    (hhigh : high ≤ bytes.length) :
    (slice bytes low high : GoM ε Bytes) = .ok ((bytes.take high).drop low) :=
  if_pos ⟨hlow, hhigh⟩

theorem index_of_lt {bytes : Bytes} {position : ℕ} (hposition : position < bytes.length) :
    (index bytes position : GoM ε UInt8) = .ok bytes[position] := by
  rw [index_eq_ok, List.getElem?_eq_getElem hposition]

/-- A slice that spans one of three consecutive pieces is that piece. -/
theorem slice_append (before middle after : Bytes) {low high : ℕ} (hlow : low = before.length)
    (hhigh : high = before.length + middle.length) :
    (slice (before ++ middle ++ after) low high : GoM ε Bytes) = .ok middle := by
  subst hlow hhigh
  have htake : (before ++ middle ++ after).take (before.length + middle.length) =
      before ++ middle := by
    rw [← List.length_append]
    exact List.take_left
  rw [slice_of_le (by simp) (by simp), htake, List.drop_left]

/-! ## Reading at a position -/

/-- The position is inside the string and has `rest` in front of it. -/
def At (bytes : Bytes) (position : ℕ) (rest : Bytes) : Prop :=
  position ≤ bytes.length ∧ bytes.drop position = rest

namespace At

variable {bytes part rest : Bytes} {position : ℕ}

theorem length (h : At bytes position rest) : bytes.length = position + rest.length := by
  have hrest := congrArg List.length h.2
  rw [List.length_drop] at hrest
  have hposition := h.1
  omega

theorem advance (h : At bytes position (part ++ rest)) :
    At bytes (position + part.length) rest := by
  constructor
  · rw [h.length, List.length_append]
    omega
  · rw [← List.drop_drop, h.2, List.drop_left]

theorem slice (h : At bytes position (part ++ rest)) :
    (Go.slice bytes position (position + part.length) : GoM ε Bytes) = .ok part := by
  have hhigh : position + part.length ≤ bytes.length := by
    rw [h.length, List.length_append]
    omega
  rw [slice_of_le (Nat.le_add_right _ _) hhigh, List.drop_take, Nat.add_sub_cancel_left, h.2,
    List.take_left]

theorem index {byte : UInt8} (h : At bytes position (byte :: rest)) :
    (Go.index bytes position : GoM ε UInt8) = .ok byte := by
  rw [index_eq_ok, ← Nat.add_zero position, ← List.getElem?_drop, h.2, List.getElem?_cons_zero]

theorem cons {byte : UInt8} (h : At bytes position (byte :: rest)) :
    At bytes (position + 1) rest := by
  have hpart : At bytes position ([byte] ++ rest) := h
  exact hpart.advance

end At

/-! ## Writing into a buffer -/

/-- `buffer[position] = byte`. -/
def setByte (buffer : Bytes) (position : ℕ) (byte : UInt8) : GoM ε Bytes :=
  if position < buffer.length then .ok (buffer.set position byte) else .error .panic

/-- `copy(buffer[position:], data)`, which copies what fits. -/
def copyTo (buffer : Bytes) (position : ℕ) (data : Bytes) : GoM ε Bytes :=
  if position ≤ buffer.length then
    .ok (buffer.take position ++ data.take (buffer.length - position) ++
      buffer.drop (position + data.length))
  else .error .panic

/-- `binary.BigEndian.PutUint32(buffer[position:position+4], word)`. -/
def putUint32 (buffer : Bytes) (position : ℕ) (word : UInt32) : GoM ε Bytes :=
  if position + 4 ≤ buffer.length then copyTo buffer position (be32 word) else .error .panic

/-- A copy into the zeros behind what is written already. -/
theorem copyTo_zeros (written data : Bytes) {zeros : ℕ} (hfits : data.length ≤ zeros) :
    (copyTo (written ++ List.replicate zeros 0) written.length data : GoM ε Bytes) =
      .ok (written ++ data ++ List.replicate (zeros - data.length) 0) := by
  have hposition : written.length ≤ (written ++ List.replicate zeros (0 : UInt8)).length := by
    rw [List.length_append]
    omega
  have hroom : (written ++ List.replicate zeros (0 : UInt8)).length - written.length = zeros := by
    rw [List.length_append, List.length_replicate]
    omega
  rw [copyTo, if_pos hposition, hroom, List.take_left, List.take_of_length_le hfits,
    List.drop_length_add_append, List.drop_replicate]

theorem setByte_zeros (written : Bytes) (byte : UInt8) (zeros : ℕ) :
    (setByte (written ++ List.replicate (zeros + 1) 0) written.length byte : GoM ε Bytes) =
      .ok (written ++ [byte] ++ List.replicate zeros 0) := by
  have hposition : written.length < (written ++ List.replicate (zeros + 1) (0 : UInt8)).length := by
    rw [List.length_append, List.length_replicate]
    omega
  rw [setByte, if_pos hposition, List.set_append_right _ _ le_rfl, Nat.sub_self,
    List.replicate_succ, List.set_cons_zero, List.append_assoc]
  rfl

theorem putUint32_zeros (written : Bytes) (word : UInt32) (zeros : ℕ) :
    (putUint32 (written ++ List.replicate (4 + zeros) 0) written.length word : GoM ε Bytes) =
      .ok (written ++ be32 word ++ List.replicate zeros 0) := by
  have hposition :
      written.length + 4 ≤ (written ++ List.replicate (4 + zeros) (0 : UInt8)).length := by
    rw [List.length_append, List.length_replicate]
    omega
  have hfits : (be32 word).length ≤ 4 + zeros := by
    rw [length_be32]
    omega
  rw [putUint32, if_pos hposition, copyTo_zeros written (be32 word) hfits, length_be32,
    Nat.add_sub_cancel_left]

end DbPivot.Go
