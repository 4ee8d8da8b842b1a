import DbPivot.Mysql.Wire

/-!
# Length-encoded integers

A 64-bit number below 0xFB is one byte. A larger one is a leading byte, which says how many bytes
follow, and those bytes in little-endian order. The relation `Lenenc` lists the encodings that the
decoder accepts: a number may have several, because nothing makes a sender use the shortest. The
encoder does, and what it writes is read back in front of anything and behind anything.

The leading bytes 0xFB and 0xFF mean something else in the protocol and begin no number.
-/

namespace DbPivot.Mysql

open DbPivot.Go

/-- The leading byte of an encoding with that many bytes behind it. -/
inductive Leads : UInt8 → ℕ → Prop where
  | two : Leads 0xFC 2
  | three : Leads 0xFD 3
  | eight : Leads 0xFE 8

/-- The encodings of a number. -/
inductive Lenenc : Bytes → UInt64 → Prop where
  | byte {n : UInt8} (hn : n < 0xFB) : Lenenc [n] (UInt64.ofNat n.toNat)
  | word {lead : UInt8} {code : Bytes} (hlead : Leads lead code.length) :
      Lenenc (lead :: code) (UInt64.ofNat (leNat code))

theorem Lenenc.length_pos {code : Bytes} {i : UInt64} (h : Lenenc code i) : 0 < code.length := by
  cases h with
  | byte hn => exact Nat.one_pos
  | word hlead => exact Nat.succ_pos _

/-! ## The decoder -/

section Decoder

variable {b rest : Bytes} {pos : ℕ} {first : UInt8}

theorem readLenencInt_of_length_le (h : b.length ≤ pos) : Errs (readLenencInt b pos) := by
  rw [readLenencInt, refuse_bind_of h]
  trivial

/-- One of the wider forms, where the decoder stands in front of its leading byte. -/
theorem wide_eq (h : At b pos (first :: rest)) (width : ℕ) (error : GoError) :
    (do
        refuse (b.length < pos + (width + 1)) error
        pure (UInt64.ofNat (leNat (← slice b (pos + 1) (pos + (width + 1)))), pos + (width + 1)) :
          GoM GoError (UInt64 × ℕ)) =
      if rest.length < width then fail error
      else .ok (UInt64.ofNat (leNat (rest.take width)), pos + (width + 1)) := by
  have hlength := h.length
  rw [List.length_cons] at hlength
  by_cases hshort : rest.length < width
  · rw [if_pos hshort, refuse_bind_of (by omega)]
  · have hcode : (rest.take width).length = width := List.length_take_of_le (by omega)
    have hat : At b (pos + 1) (rest.take width ++ rest.drop width) := by
      rw [List.take_append_drop]
      exact h.cons
    have hslice := hat.slice (ε := GoError)
    rw [hcode, Nat.add_assoc, Nat.add_comm 1 width] at hslice
    rw [if_neg hshort, refuse_bind_of_not (by omega), hslice]
    rfl

theorem readLenencInt_of_at (h : At b pos (first :: rest)) :
    readLenencInt b pos =
      if first < 0xFB then .ok (UInt64.ofNat first.toNat, pos + 1)
      else if first = 0xFC then
        if rest.length < 2 then fail (errorf "lenenc-int: truncated 2-byte" [])
        else .ok (UInt64.ofNat (leNat (rest.take 2)), pos + 3)
      else if first = 0xFD then
        if rest.length < 3 then fail (errorf "lenenc-int: truncated 3-byte" [])
        else .ok (UInt64.ofNat (leNat (rest.take 3)), pos + 4)
      else if first = 0xFE then
        if rest.length < 8 then fail (errorf "lenenc-int: truncated 8-byte" [])
        else .ok (UInt64.ofNat (leNat (rest.take 8)), pos + 9)
      else fail (errorf "lenenc-int: invalid leading byte 0x%02x" [.number first.toNat]) := by
  have hpos : ¬ b.length ≤ pos := by
    rw [h.length, List.length_cons]
    omega
  rw [readLenencInt, refuse_bind_of_not hpos, h.index, ok_bind]
  rw [← wide_eq h 2, ← wide_eq h 3, ← wide_eq h 8]
  rfl

/-- A wide form is there in full. -/
theorem lenenc_take {width : ℕ} (hlead : Leads first width) (hfits : ¬ rest.length < width) :
    Lenenc (first :: rest.take width) (UInt64.ofNat (leNat (rest.take width))) := by
  have hcode : (rest.take width).length = width := List.length_take_of_le (by omega)
  exact .word (hcode.symm ▸ hlead)

/-- The decoder stands in front of an encoding. -/
theorem readLenencInt_of_lenenc {code : Bytes} {i : UInt64} (hcode : Lenenc code i)
    (h : At b pos (code ++ rest)) : readLenencInt b pos = .ok (i, pos + code.length) := by
  cases hcode with
  | byte hn =>
    rw [readLenencInt_of_at h, if_pos hn]
    rfl
  | @word lead code hlead =>
    have hfits : ¬ (code ++ rest).length < code.length := by
      rw [List.length_append]
      omega
    rw [List.cons_append] at h
    rw [readLenencInt_of_at h, List.length_cons]
    have htake : (code ++ rest).take code.length = code := List.take_left
    generalize hwidth : code.length = width at hlead hfits htake
    cases hlead with
    | two => rw [if_neg (by decide), if_pos rfl, if_neg hfits, htake]
    | three => rw [if_neg (by decide), if_neg (by decide), if_pos rfl, if_neg hfits, htake]
    | eight =>
      rw [if_neg (by decide), if_neg (by decide), if_neg (by decide), if_pos rfl, if_neg hfits,
        htake]

/-- What the decoder returns is what some encoding at its position says. -/
theorem readLenencInt_eq_ok {i : UInt64} {next : ℕ} :
    readLenencInt b pos = .ok (i, next) ↔
      ∃ code rest, At b pos (code ++ rest) ∧ Lenenc code i ∧ next = pos + code.length := by
  constructor
  · intro h
    by_cases hpos : b.length ≤ pos
    · have herrs := readLenencInt_of_length_le hpos
      rw [h] at herrs
      exact absurd herrs (not_errs_ok _)
    obtain ⟨first, rest, hdrop⟩ := List.exists_cons_of_ne_nil (mt List.drop_eq_nil_iff.mp hpos)
    have hat : At b pos (first :: rest) := ⟨by omega, hdrop⟩
    have hwide {width : ℕ} (hlead : Leads first width) (hfits : ¬ rest.length < width)
        (hi : UInt64.ofNat (leNat (rest.take width)) = i) (hnext : pos + (width + 1) = next) :
        ∃ code rest, At b pos (code ++ rest) ∧ Lenenc code i ∧ next = pos + code.length := by
      refine ⟨first :: rest.take width, rest.drop width, ?_, hi ▸ lenenc_take hlead hfits, ?_⟩
      · rw [List.cons_append, List.take_append_drop]
        exact hat
      · rw [List.length_cons, List.length_take_of_le (by omega), hnext]
    rw [readLenencInt_of_at hat] at h
    split at h
    next hbyte =>
      obtain ⟨rfl, rfl⟩ := Prod.mk.inj (Except.ok.inj h)
      exact ⟨[first], rest, hat, .byte hbyte, rfl⟩
    split at h
    next hfirst =>
      subst hfirst
      split at h
      next => cases h
      next hfits =>
        obtain ⟨hi, hnext⟩ := Prod.mk.inj (Except.ok.inj h)
        exact hwide .two hfits hi hnext
    split at h
    next hfirst =>
      subst hfirst
      split at h
      next => cases h
      next hfits =>
        obtain ⟨hi, hnext⟩ := Prod.mk.inj (Except.ok.inj h)
        exact hwide .three hfits hi hnext
    split at h
    next hfirst =>
      subst hfirst
      split at h
      next => cases h
      next hfits =>
        obtain ⟨hi, hnext⟩ := Prod.mk.inj (Except.ok.inj h)
        exact hwide .eight hfits hi hnext
    next => cases h
  · intro h
    obtain ⟨code, rest, hat, hcode, rfl⟩ := h
    exact readLenencInt_of_lenenc hcode hat

/-- The decoder moves forward and not beyond the end. -/
theorem readLenencInt_bounds {i : UInt64} {next : ℕ} (h : readLenencInt b pos = .ok (i, next)) :
    pos < next ∧ next ≤ b.length := by
  obtain ⟨code, rest, hat, hcode, rfl⟩ := readLenencInt_eq_ok.mp h
  have hlength := hat.length
  have hpos := hcode.length_pos
  rw [List.length_append] at hlength
  omega

/-- No encoding stands at the beginning: there is nothing, the leading byte begins no number, or
the number is cut off. -/
def Unreadable : Bytes → Prop
  | [] => True
  | first :: rest => first = 0xFB ∨ first = 0xFF ∨ ∃ width, Leads first width ∧ rest.length < width

theorem not_unreadable_of_lt (hbyte : first < 0xFB) : ¬ Unreadable (first :: rest) := by
  rintro (rfl | rfl | ⟨width, hlead, -⟩)
  · exact absurd hbyte (by decide)
  · exact absurd hbyte (by decide)
  · cases hlead with
    | two => exact absurd hbyte (by decide)
    | three => exact absurd hbyte (by decide)
    | eight => exact absurd hbyte (by decide)

theorem unreadable_iff_of_leads {width : ℕ} (hlead : Leads first width) :
    Unreadable (first :: rest) ↔ rest.length < width := by
  constructor
  · rintro (rfl | rfl | ⟨width', hlead', hshort⟩)
    · cases hlead
    · cases hlead
    · have hwidth : width' = width := by
        cases hlead with
        | two => cases hlead' with | two => rfl
        | three => cases hlead' with | three => rfl
        | eight => cases hlead' with | eight => rfl
      exact hwidth ▸ hshort
  · exact fun hshort ↦ .inr (.inr ⟨width, hlead, hshort⟩)

theorem errs_wide_iff {width : ℕ} (hlead : Leads first width) {error : GoError}
    {value : UInt64 × ℕ} :
    Errs (if rest.length < width then fail error else .ok value : GoM GoError (UInt64 × ℕ)) ↔
      Unreadable (first :: rest) := by
  rw [unreadable_iff_of_leads hlead]
  split
  next hshort => exact iff_of_true (errs_fail _) hshort
  next hfits => exact iff_of_false (not_errs_ok _) hfits

theorem errs_readLenencInt_iff : Errs (readLenencInt b pos) ↔ Unreadable (b.drop pos) := by
  by_cases hpos : b.length ≤ pos
  · rw [List.drop_eq_nil_iff.mpr hpos]
    exact iff_of_true (readLenencInt_of_length_le hpos) trivial
  obtain ⟨first, rest, hdrop⟩ := List.exists_cons_of_ne_nil (mt List.drop_eq_nil_iff.mp hpos)
  rw [readLenencInt_of_at ⟨by omega, hdrop⟩, hdrop]
  split
  next hbyte => exact iff_of_false (not_errs_ok _) (not_unreadable_of_lt hbyte)
  split
  next hfirst => exact errs_wide_iff (hfirst ▸ .two)
  split
  next hfirst => exact errs_wide_iff (hfirst ▸ .three)
  split
  next hfirst => exact errs_wide_iff (hfirst ▸ .eight)
  next hbyte htwo hthree height =>
    refine iff_of_true (errs_fail _) ?_
    -- Only 0xFB and 0xFF are left.
    have hleft : first = 0xFB ∨ first = 0xFF := by grind
    exact hleft.imp_right .inl

/-- Every index and slice expression of the decoder is in range. -/
theorem returns_readLenencInt (b : Bytes) (pos : ℕ) : Returns (readLenencInt b pos) := by
  by_cases hpos : b.length ≤ pos
  · obtain ⟨error, herror⟩ := exists_fail_of_errs (readLenencInt_of_length_le hpos)
    rw [herror]
    trivial
  obtain ⟨first, rest, hdrop⟩ := List.exists_cons_of_ne_nil (mt List.drop_eq_nil_iff.mp hpos)
  rw [readLenencInt_of_at ⟨by omega, hdrop⟩]
  split
  · trivial
  split
  · split <;> trivial
  split
  · split <;> trivial
  split
  · split <;> trivial
  · trivial

end Decoder

/-! ## The encoder -/

theorem ofNat_leNat_leBytes {i : UInt64} {width : ℕ} (h : i.toNat < 256 ^ width) :
    UInt64.ofNat (leNat (leBytes width i.toNat)) = i := by
  rw [leNat_leBytes, Nat.mod_eq_of_lt h, UInt64.ofNat_toNat]

theorem lenenc_word {lead : UInt8} {width : ℕ} (hlead : Leads lead width) {i : UInt64}
    (h : i.toNat < 256 ^ width) : Lenenc (lead :: leBytes width i.toNat) i := by
  have hcode : Lenenc (lead :: leBytes width i.toNat)
      (UInt64.ofNat (leNat (leBytes width i.toNat))) :=
    .word ((length_leBytes width i.toNat).symm ▸ hlead)
  rw [ofNat_leNat_leBytes h] at hcode
  exact hcode

theorem lenenc_appendLenencInt (i : UInt64) : Lenenc (appendLenencInt [] i) i := by
  unfold appendLenencInt
  split
  next hbyte =>
    have hn : (UInt8.ofNat i.toNat).toNat = i.toNat := UInt8.toNat_ofNat_of_lt (show i.toNat < 256 by omega)
    have hcode : Lenenc [UInt8.ofNat i.toNat] (UInt64.ofNat (UInt8.ofNat i.toNat).toNat) :=
      .byte (UInt8.lt_iff_toNat_lt.mpr (by rw [hn]; exact hbyte))
    rw [hn, UInt64.ofNat_toNat] at hcode
    exact hcode
  split
  next => exact lenenc_word .two (by omega)
  split
  next => exact lenenc_word .three (by omega)
  next => exact lenenc_word .eight i.toNat_lt

theorem length_appendLenencInt (i : UInt64) :
    (appendLenencInt [] i).length =
      if i.toNat < 0xFB then 1 else if i.toNat ≤ 0xFFFF then 3
      else if i.toNat ≤ 0xFFFFFF then 4 else 9 := by
  unfold appendLenencInt
  split
  · rfl
  split
  · rfl
  split
  · rfl
  · rfl

/-- No encoding of a number is shorter than the encoder's. -/
theorem length_appendLenencInt_le {code : Bytes} {i : UInt64} (h : Lenenc code i) :
    (appendLenencInt [] i).length ≤ code.length := by
  rw [length_appendLenencInt]
  cases h with
  | @byte n hn =>
    have hvalue : (UInt64.ofNat n.toNat).toNat = n.toNat :=
      UInt64.toNat_ofNat_of_lt (show n.toNat < 2 ^ 64 from n.toNat_lt.trans (by decide))
    have hsmall : n.toNat < 0xFB := UInt8.lt_iff_toNat_lt.mp hn
    rw [hvalue, if_pos hsmall]
    rfl
  | @word lead code hlead =>
    have hbound := leNat_lt code
    have hvalue : (UInt64.ofNat (leNat code)).toNat ≤ leNat code := by
      rw [UInt64.toNat_ofNat']
      exact Nat.mod_le _ _
    rw [List.length_cons]
    generalize code.length = width at hlead hbound
    cases hlead with
    | two => grind
    | three => grind
    | eight => grind

/-- Decoding undoes encoding at every position of every string. The encoding is the shortest of
those the decoder accepts for the number. The decoder stays inside its string, fails exactly on what
is unreadable, and otherwise moves forward, at most to the end. -/
theorem lenencInt_exact :
    (∀ (i : UInt64) (p q : Bytes), readLenencInt (p ++ appendLenencInt [] i ++ q) p.length =
      .ok (i, p.length + (appendLenencInt [] i).length)) ∧
    (∀ (i : UInt64) (b : Bytes) (pos next : ℕ), readLenencInt b pos = .ok (i, next) →
      (appendLenencInt [] i).length ≤ next - pos) ∧
    (∀ (b : Bytes) (pos : ℕ), Returns (readLenencInt b pos)) ∧
    (∀ (b : Bytes) (pos : ℕ), Errs (readLenencInt b pos) ↔ Unreadable (b.drop pos)) ∧
    ∀ (b : Bytes) (pos next : ℕ) (i : UInt64), readLenencInt b pos = .ok (i, next) →
      pos < next ∧ next ≤ b.length := by
  refine ⟨?_, ?_, returns_readLenencInt, fun b pos ↦ errs_readLenencInt_iff,
    fun b pos next i ↦ readLenencInt_bounds⟩
  · intro i p q
    have hat : At (p ++ appendLenencInt [] i ++ q) p.length (appendLenencInt [] i ++ q) := by
      constructor
      · simp only [List.length_append]
        omega
      · rw [List.append_assoc, List.drop_left]
    exact readLenencInt_of_lenenc (lenenc_appendLenencInt i) hat
  · intro i b pos next h
    obtain ⟨code, rest, -, hcode, rfl⟩ := readLenencInt_eq_ok.mp h
    rw [Nat.add_sub_cancel_left]
    exact length_appendLenencInt_le hcode

theorem lenencInt_exact_two_bytes :
    readLenencInt [7, 0xFC, 0, 1] 1 = .ok (256, 4) ∧ (appendLenencInt [] 256).length ≤ 4 - 1 ∧
      1 < 4 ∧ 4 ≤ [7, 0xFC, 0, 1].length := by
  have hread : readLenencInt [7, 0xFC, 0, 1] 1 = .ok (256, 4) := by rfl
  exact ⟨hread, lenencInt_exact.2.1 256 _ 1 4 hread, lenencInt_exact.2.2.2.2 _ 1 4 256 hread⟩

end DbPivot.Mysql
