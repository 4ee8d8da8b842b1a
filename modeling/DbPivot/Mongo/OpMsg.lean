import DbPivot.Mongo.Wire

/-!
# What `ParseOpMsg` accepts

A body is a word of flags, sections in any order with one command document among them, and a checksum
if the flags announce one. The checksum is cut off before the sections are read, so a section that
reaches into it is refused, and the sections are read to their end. Whatever is accepted has this
form, and every body of this form is accepted with the document that the command denotes.
-/

namespace DbPivot.Mongo

open DbPivot.Go

/-! ## The loop read backwards -/

/-- A section that is skipped has a size that lies within the sections. -/
theorem exists_payload {sections : Bytes} (hlength : ¬ sections.length < 4)
    (hsize : ¬ (int32 (uint32LE (sections.take 4)) < 4 ∨
      int32 (uint32LE (sections.take 4)) > sections.length)) :
    ∃ payload, 4 + payload.length < 2 ^ 31 ∧
      1 :: sections = (Section.sequence payload).bytes ++
        sections.drop (int32 (uint32LE (sections.take 4))).toNat := by
  obtain ⟨size, hword⟩ : ∃ size : ℕ, int32 (uint32LE (sections.take 4)) = size :=
    Int.eq_ofNat_of_zero_le (by omega)
  rw [hword] at hsize ⊢
  obtain ⟨hlt, hbytes⟩ := eq_ofNat_of_int32 _ _ hword
  have htake : sections.take 4 = le32 (UInt32.ofNat size) := by
    rw [← hbytes, le32_uint32LE _ (List.length_take_of_le (by omega))]
  have hpayload : 4 + ((sections.take size).drop 4).length = size := by
    rw [List.length_drop, List.length_take_of_le (by omega)]
    omega
  refine ⟨(sections.take size).drop 4, by omega, ?_⟩
  rw [Section.bytes, hpayload, ← htake, Int.toNat_natCast, List.cons_append]
  congr 1
  calc
    sections = sections.take size ++ sections.drop size := (List.take_append_drop size sections).symm
    _ = (sections.take size).take 4 ++ (sections.take size).drop 4 ++ sections.drop size := by
      rw [List.take_append_drop 4]
    _ = sections.take 4 ++ (sections.take size).drop 4 ++ sections.drop size := by
      rw [List.take_take, Nat.min_eq_left (by omega)]

/-- One round of a loop that succeeds. -/
theorem parseSections_succ_eq_ok {fuel : ℕ} {sections : Bytes} {found : Option BSON} {d : BSON}
    (h : parseSections (fuel + 1) sections found = .ok d) :
    (sections = [] ∧ found = some d) ∨
    (∃ doc rest command, sections = (Section.body doc).bytes ++ rest ∧ IsDocument doc command ∧
      found = none ∧ parseSections fuel rest (some command) = .ok d) ∨
    ∃ payload rest, 4 + payload.length < 2 ^ 31 ∧
      sections = (Section.sequence payload).bytes ++ rest ∧
      parseSections fuel rest found = .ok d := by
  cases sections with
  | nil =>
    cases found with
    | none => cases h
    | some doc => exact .inl ⟨rfl, congrArg some (Except.ok.inj h)⟩
  | cons kind sections =>
    rw [parseSections_cons] at h
    split at h
    next hkind =>
      obtain ⟨⟨command, n⟩, hread, h⟩ := bind_eq_ok.mp h
      obtain ⟨hfound, h⟩ := refuse_bind_eq_ok.mp h
      obtain ⟨rest, hrest, h⟩ := bind_eq_ok.mp h
      obtain ⟨doc, hdoc, rfl, after, rfl⟩ := readBSONDocument_eq_ok.mp (mapErr_eq_ok.mp hread)
      obtain ⟨-, -, rfl⟩ := slice_eq_ok.mp hrest
      rw [List.take_length, List.drop_left] at h
      refine .inr (.inl ⟨doc, after, command, ?_, hdoc, by simpa using hfound, h⟩)
      rw [hkind, Section.bytes, List.cons_append]
    next =>
      split at h
      next hkind =>
        split at h
        next => cases h
        next hlength =>
          split at h
          next => cases h
          next hsize =>
            obtain ⟨payload, hfits, hbytes⟩ := exists_payload hlength hsize
            exact .inr (.inr ⟨payload, _, hfits, hkind ▸ hbytes, h⟩)
      next => cases h

/-- Behind the command document the loop accepts sequences only. -/
theorem parseSections_some_eq_ok {fuel : ℕ} {sections : Bytes} {doc d : BSON}
    (h : parseSections fuel sections (some doc) = .ok d) :
    d = doc ∧ ∃ payloads, (∀ payload ∈ payloads, 4 + payload.length < 2 ^ 31) ∧
      sections = OpMsgBody.sequences payloads := by
  induction fuel generalizing sections with
  | zero => exact nomatch h
  | succ fuel ih =>
    rcases parseSections_succ_eq_ok h with ⟨rfl, hfound⟩ | ⟨_, _, _, -, -, hfound, -⟩ |
      ⟨payload, rest, hfits, rfl, hrest⟩
    · exact ⟨(Option.some.inj hfound).symm, [], fun _ hmem ↦ absurd hmem List.not_mem_nil, rfl⟩
    · exact nomatch hfound
    · obtain ⟨hd, payloads, hpayloads, rfl⟩ := ih hrest
      exact ⟨hd, payload :: payloads, List.forall_mem_cons.mpr ⟨hfits, hpayloads⟩, rfl⟩

/-- The loop accepts one command document with sequences around it. -/
theorem parseSections_none_eq_ok {fuel : ℕ} {sections : Bytes} {d : BSON}
    (h : parseSections fuel sections none = .ok d) :
    ∃ before doc after, IsDocument doc d ∧
      (∀ payload ∈ before ++ after, 4 + payload.length < 2 ^ 31) ∧
      sections = OpMsgBody.sequences before ++
        ((Section.body doc).bytes ++ OpMsgBody.sequences after) := by
  induction fuel generalizing sections with
  | zero => exact nomatch h
  | succ fuel ih =>
    rcases parseSections_succ_eq_ok h with ⟨-, hfound⟩ | ⟨doc, rest, command, rfl, hdoc, -, hrest⟩ |
      ⟨payload, rest, hfits, rfl, hrest⟩
    · exact nomatch hfound
    · obtain ⟨rfl, after, hafter, rfl⟩ := parseSections_some_eq_ok hrest
      exact ⟨[], doc, after, hdoc, hafter, rfl⟩
    · obtain ⟨before, doc, after, hdoc, hpayloads, rfl⟩ := ih hrest
      refine ⟨payload :: before, doc, after, hdoc, ?_, ?_⟩
      · exact List.forall_mem_cons.mpr ⟨hfits, hpayloads⟩
      · exact (List.append_assoc _ _ _).symm

/-! ## Bodies -/

theorem trimChecksum_eq_ok {flags : UInt32} {sections trimmed : Bytes}
    (h : trimChecksum flags sections = .ok trimmed) :
    ∃ checksum, checksum.length = (if checksumPresent flags then 4 else 0) ∧
      sections = trimmed ++ checksum := by
  unfold trimChecksum at h
  split at h
  next hpresent =>
    split at h
    next => exact nomatch h
    next hlength =>
      obtain ⟨-, hle, rfl⟩ := slice_eq_ok.mp h
      refine ⟨sections.drop (sections.length - 4), ?_, ?_⟩
      · rw [if_pos hpresent, List.length_drop]
        omega
      · rw [List.drop_zero, List.take_append_drop]
  next habsent =>
    obtain rfl := Except.ok.inj h
    exact ⟨[], by rw [if_neg habsent, List.length_nil], (List.append_nil _).symm⟩

/-- What is accepted is well formed. -/
theorem exists_opMsgBody {body : Bytes} {flags : UInt32} {d : BSON}
    (h : parseOpMsg body = .ok (flags, d)) :
    ∃ m : OpMsgBody, m.Fits ∧ body = m.bytes ∧ m.flags = flags ∧ IsDocument m.doc d := by
  unfold parseOpMsg at h
  split at h
  next => exact nomatch h
  next hlength =>
    obtain ⟨word, hword, h⟩ := bind_eq_ok.mp h
    obtain ⟨-, -, rfl⟩ := slice_eq_ok.mp hword
    obtain ⟨all, hall, h⟩ := bind_eq_ok.mp h
    obtain ⟨-, -, rfl⟩ := slice_eq_ok.mp hall
    obtain ⟨sections, htrim, h⟩ := bind_eq_ok.mp h
    obtain ⟨doc, hparse, h⟩ := bind_eq_ok.mp h
    obtain ⟨rfl, rfl⟩ := Prod.mk.inj (Except.ok.inj h)
    rw [List.take_length] at htrim
    obtain ⟨checksum, hchecksum, hsplit⟩ := trimChecksum_eq_ok htrim
    obtain ⟨before, command, after, hdoc, hfits, rfl⟩ := parseSections_none_eq_ok hparse
    refine ⟨⟨_, before, command, after, checksum, hchecksum⟩, hfits, ?_, rfl, hdoc⟩
    rw [OpMsgBody.bytes, OpMsgBody.sections]
    dsimp only
    rw [← hsplit, List.drop_zero, le32_uint32LE _ (List.length_take_of_le (by omega)),
      List.take_append_drop]

/-- The body is well formed, with these flags and with a command that denotes the document. -/
def Denotes (body : Bytes) (flags : UInt32) (d : BSON) : Prop :=
  ∃ m : OpMsgBody, m.Fits ∧ body = m.bytes ∧ m.flags = flags ∧ IsDocument m.doc d

theorem parseOpMsg_eq_ok {body : Bytes} {flags : UInt32} {d : BSON} :
    parseOpMsg body = .ok (flags, d) ↔ Denotes body flags d := by
  constructor
  · exact exists_opMsgBody
  · rintro ⟨m, hfits, rfl, rfl, hdoc⟩
    exact m.parseOpMsg_of_isDocument hfits hdoc

/-- A document that the codec reads back is read back from a message. -/
theorem denotes_encodeOpMsgBody {flags : UInt32} (hflags : ¬ checksumPresent flags) {d : BSON}
    (hround : readBSONDocument (marshalBSON d) = .ok (d, (marshalBSON d).length)) :
    Denotes (encodeOpMsgBody flags d) flags d := by
  obtain ⟨doc, hdoc, hlength, hpre⟩ := readBSONDocument_eq_ok.mp hround
  have hmarshal : doc = marshalBSON d := hpre.eq_of_length hlength.symm
  refine ⟨⟨flags, [], marshalBSON d, [], [], (if_neg hflags).symm⟩, ?_, ?_, rfl, hmarshal ▸ hdoc⟩
  · exact fun _ hmem ↦ absurd hmem List.not_mem_nil
  · rw [encodeOpMsgBody, appendBSON_append, List.append_assoc]
    simp [OpMsgBody.bytes, OpMsgBody.sections, OpMsgBody.sequences, Section.bytes]

/-- `ParseOpMsg` returns on every body and accepts exactly the well-formed ones. What it returns
depends on the flags and on the command document alone, and it undoes `EncodeOpMsgBody`. -/
theorem parseOpMsg_exact (body : Bytes) :
    Returns (parseOpMsg body) ∧
    (∀ flags d, parseOpMsg body = .ok (flags, d) ↔ Denotes body flags d) ∧
    (∀ m m' : OpMsgBody, body = m.bytes → m.Fits → m'.Fits → m'.flags = m.flags → m'.doc = m.doc →
      (∃ d, IsDocument m.doc d) → parseOpMsg m'.bytes = parseOpMsg body) ∧
    ∀ flags d, ¬ checksumPresent flags →
      readBSONDocument (marshalBSON d) = .ok (d, (marshalBSON d).length) →
      body = encodeOpMsgBody flags d → parseOpMsg body = .ok (flags, d) := by
  refine ⟨returns_parseOpMsg body, fun flags d ↦ parseOpMsg_eq_ok, ?_, ?_⟩
  · rintro m m' rfl hfits hfits' hflags hdoc ⟨d, hd⟩
    rw [m.parseOpMsg_of_isDocument hfits hd, m'.parseOpMsg_of_isDocument hfits' (hdoc ▸ hd), hflags]
  · rintro flags d hflags hround rfl
    exact parseOpMsg_eq_ok.mpr (denotes_encodeOpMsgBody hflags hround)

end DbPivot.Mongo
