import DbPivot.Go.Socket

/-!
# Packets

A MySQL packet is a payload of any length, cut into frames of at most `0xFFFFFF` bytes. A frame that
is full says that another one follows, so a payload whose length is a multiple of the bound ends
with an empty frame. The frames of one packet are numbered consecutively by a byte.

`frames` gives the frames of a payload by a closed formula. The two loops of the source are compared
with it: writing a packet writes exactly these frames, and reading them gives the payload back.
-/

namespace DbPivot.Mysql

open DbPivot.Go

/-- `MaxPacketPayload`. -/
def maxPacketPayload : ℕ := 0xFFFFFF

theorem maxPacketPayload_pos : 0 < maxPacketPayload := by decide

/-- The header of a frame: three bytes of length and the sequence id. -/
def frameHeader (n : ℕ) (seq : UInt8) : Bytes := leBytes 3 n ++ [seq]

/-! ## The loops -/

/-- The loop of `ReadPacket`. -/
def readPacketLoop : ℕ → Bytes → SocketM (UInt8 × Bytes)
  | 0, _ => .lift (.error .outOfFuel)
  | fuel + 1, payload => do
    let hdr ← readFull 4
    let length := leNat (hdr.take 3)
    let seq := hdr.getD 3 0
    let chunk ← readFull length
    if length < maxPacketPayload then pure (seq, payload ++ chunk)
    else readPacketLoop fuel (payload ++ chunk)

/-- `ReadPacket`: the sequence id of the last frame and the payload. -/
def readPacket : SocketM (UInt8 × Bytes) :=
  ⟨fun s ↦ (readPacketLoop (s.input.length + 1) []).run s⟩

/-- The loop of `WritePacket`. -/
def writePacketLoop : ℕ → UInt8 → Bytes → SocketM UInt8
  | 0, _, _ => .lift (.error .outOfFuel)
  | fuel + 1, seq, payload => do
    let n := min payload.length maxPacketPayload
    write (frameHeader n seq)
    write (payload.take n)
    if n < maxPacketPayload then pure (seq + 1)
    else if payload.drop n = [] then do
      write (frameHeader 0 (seq + 1))
      pure (seq + 1 + 1)
    else writePacketLoop fuel (seq + 1) (payload.drop n)

/-- `WritePacket`: the next sequence id. -/
def writePacket (seq : UInt8) (payload : Bytes) : SocketM UInt8 :=
  writePacketLoop (payload.length + 1) seq payload

/-! ## Frames -/

/-- One frame on the wire. -/
structure Frame where
  seq : UInt8
  payload : Bytes
  fits : payload.length ≤ maxPacketPayload

/-- The bytes of a frame. -/
def Frame.bytes (frame : Frame) : Bytes :=
  frameHeader frame.payload.length frame.seq ++ frame.payload

/-- The number of frames of a payload. -/
def frameCount (payload : Bytes) : ℕ := payload.length / maxPacketPayload + 1

/-- The frame with the given index. -/
def frameAt (seq : UInt8) (payload : Bytes) (index : ℕ) : Frame where
  seq := seq + UInt8.ofNat index
  payload := (payload.drop (index * maxPacketPayload)).take maxPacketPayload
  fits := List.length_take_le _ _

/-- The frames of a packet that starts with the given sequence id. -/
def frames (seq : UInt8) (payload : Bytes) : List Frame :=
  (List.range (frameCount payload)).map (frameAt seq payload)

/-- The bytes of a packet. -/
def packetBytes (seq : UInt8) (payload : Bytes) : Bytes := (frames seq payload).flatMap Frame.bytes

/-- The sequence id after a packet. -/
def nextSeq (seq : UInt8) (payload : Bytes) : UInt8 := seq + UInt8.ofNat (frameCount payload)

@[simp]
theorem length_frames (seq : UInt8) (payload : Bytes) :
    (frames seq payload).length = frameCount payload := by
  rw [frames, List.length_map, List.length_range]

@[simp]
theorem length_frameHeader (n : ℕ) (seq : UInt8) : (frameHeader n seq).length = 4 := by
  rw [frameHeader, List.length_append, length_leBytes]
  rfl

theorem length_frame_bytes (frame : Frame) : frame.bytes.length = 4 + frame.payload.length := by
  rw [Frame.bytes, List.length_append, length_frameHeader]

/-- A payload below the bound is one frame. -/
theorem frames_of_lt {payload : Bytes} (h : payload.length < maxPacketPayload) (seq : UInt8) :
    frames seq payload = [⟨seq, payload, h.le⟩] := by
  have hcount : frameCount payload = 1 := by
    rw [frameCount, Nat.div_eq_of_lt h]
  have hseq : seq + UInt8.ofNat 0 = seq := UInt8.add_zero seq
  have hpayload : (payload.drop (0 * maxPacketPayload)).take maxPacketPayload = payload := by
    rw [Nat.zero_mul, List.drop_zero, List.take_of_length_le h.le]
  simp only [frames, hcount, List.range_one, List.map_cons, List.map_nil, frameAt, hseq, hpayload]

theorem frameCount_of_le {payload : Bytes} (h : maxPacketPayload ≤ payload.length) :
    frameCount payload = frameCount (payload.drop maxPacketPayload) + 1 := by
  rw [frameCount, frameCount, List.length_drop, Nat.div_eq_sub_div maxPacketPayload_pos h]

theorem ofNat_succ_add (seq : UInt8) (n : ℕ) :
    seq + UInt8.ofNat (n + 1) = seq + 1 + UInt8.ofNat n := by
  rw [UInt8.ofNat_add, UInt8.add_comm (UInt8.ofNat n), ← UInt8.add_assoc]
  rfl

/-- A longer payload starts with a full frame. -/
theorem frames_of_le {payload : Bytes} (h : maxPacketPayload ≤ payload.length) (seq : UInt8) :
    frames seq payload =
      ⟨seq, payload.take maxPacketPayload, List.length_take_le _ _⟩ ::
        frames (seq + 1) (payload.drop maxPacketPayload) := by
  have htail (index : ℕ) :
      frameAt seq payload (index + 1) =
        frameAt (seq + 1) (payload.drop maxPacketPayload) index := by
    have hdrop : payload.drop ((index + 1) * maxPacketPayload) =
        (payload.drop maxPacketPayload).drop (index * maxPacketPayload) := by
      rw [List.drop_drop, Nat.succ_mul, Nat.add_comm]
    simp only [frameAt, ofNat_succ_add, hdrop]
  have hhead : frameAt seq payload 0 =
      ⟨seq, payload.take maxPacketPayload, List.length_take_le _ _⟩ := by
    have hseq : seq + UInt8.ofNat 0 = seq := UInt8.add_zero seq
    simp only [frameAt, hseq, Nat.zero_mul, List.drop_zero]
  rw [frames, frameCount_of_le h, List.range_succ_eq_map, List.map_cons, List.map_map, hhead]
  congr 1
  exact List.map_congr_left fun index _ ↦ htail index

theorem packetBytes_of_lt {payload : Bytes} (h : payload.length < maxPacketPayload) (seq : UInt8) :
    packetBytes seq payload = frameHeader payload.length seq ++ payload := by
  rw [packetBytes, frames_of_lt h, List.flatMap_singleton, Frame.bytes]

theorem packetBytes_of_le {payload : Bytes} (h : maxPacketPayload ≤ payload.length) (seq : UInt8) :
    packetBytes seq payload =
      frameHeader maxPacketPayload seq ++ payload.take maxPacketPayload ++
        packetBytes (seq + 1) (payload.drop maxPacketPayload) := by
  have hlength : (payload.take maxPacketPayload).length = maxPacketPayload := by
    rw [List.length_take, Nat.min_eq_left h]
  rw [packetBytes, frames_of_le h, List.flatMap_cons, Frame.bytes, hlength, packetBytes]

theorem nextSeq_of_lt {payload : Bytes} (h : payload.length < maxPacketPayload) (seq : UInt8) :
    nextSeq seq payload = seq + 1 := by
  rw [nextSeq, frameCount, Nat.div_eq_of_lt h]
  rfl

theorem nextSeq_of_le {payload : Bytes} (h : maxPacketPayload ≤ payload.length) (seq : UInt8) :
    nextSeq seq payload = nextSeq (seq + 1) (payload.drop maxPacketPayload) := by
  rw [nextSeq, frameCount_of_le h, ofNat_succ_add, nextSeq]

/-- The sequence id of the last frame. -/
def lastSeq (seq : UInt8) (payload : Bytes) : UInt8 := nextSeq seq payload - 1

theorem lastSeq_add_one (seq : UInt8) (payload : Bytes) :
    lastSeq seq payload + 1 = nextSeq seq payload := UInt8.sub_add_cancel _ _

/-- Nothing of the payload is lost in the cut. -/
theorem flatMap_payload_frames (seq : UInt8) (payload : Bytes) :
    (frames seq payload).flatMap Frame.payload = payload := by
  induction hcount : frameCount payload generalizing seq payload with
  | zero => exact absurd hcount (Nat.succ_ne_zero _)
  | succ count ih =>
    by_cases hlt : payload.length < maxPacketPayload
    · rw [frames_of_lt hlt, List.flatMap_singleton]
    · have hle : maxPacketPayload ≤ payload.length := Nat.not_lt.mp hlt
      rw [frameCount_of_le hle] at hcount
      rw [frames_of_le hle, List.flatMap_cons, ih (seq + 1) _ (Nat.succ.inj hcount),
        List.take_append_drop]

/-! ## Writing a packet -/

/-- The loop writes the frames one after the other, as far as the connection takes them. -/
theorem writePacketLoop_eq (fuel : ℕ) (seq : UInt8) (payload : Bytes)
    (hfuel : payload.length < fuel) :
    writePacketLoop fuel seq payload =
      (do write (packetBytes seq payload); pure (nextSeq seq payload)) := by
  induction fuel generalizing seq payload with
  | zero => exact absurd hfuel (Nat.not_lt_zero _)
  | succ fuel ih =>
    rw [writePacketLoop]
    by_cases hlt : payload.length < maxPacketPayload
    · have hmin : min payload.length maxPacketPayload = payload.length := Nat.min_eq_left hlt.le
      simp only [hmin, hlt, if_true, List.take_length, packetBytes_of_lt hlt, nextSeq_of_lt hlt,
        write_append, bind_assoc]
    · have hle : maxPacketPayload ≤ payload.length := Nat.not_lt.mp hlt
      have hmin : min payload.length maxPacketPayload = maxPacketPayload := Nat.min_eq_right hle
      have hrest : (payload.drop maxPacketPayload).length < fuel := by
        have hpos := maxPacketPayload_pos
        rw [List.length_drop]
        omega
      simp only [hmin, lt_irrefl, if_false, packetBytes_of_le hle, nextSeq_of_le hle, write_append,
        bind_assoc]
      congr 1
      funext _
      congr 1
      funext _
      by_cases hempty : payload.drop maxPacketPayload = []
      · have hshort : ([] : Bytes).length < maxPacketPayload := maxPacketPayload_pos
        simp only [hempty, if_true, packetBytes_of_lt hshort, nextSeq_of_lt hshort, List.append_nil,
          List.length_nil]
      · rw [if_neg hempty, ih (seq + 1) (payload.drop maxPacketPayload) hrest]

theorem writePacket_eq (seq : UInt8) (payload : Bytes) :
    writePacket seq payload =
      (do write (packetBytes seq payload); pure (nextSeq seq payload)) :=
  writePacketLoop_eq (payload.length + 1) seq payload (Nat.lt_succ_self _)

/-- A packet adds a beginning of its bytes to the output. -/
theorem output_writePacket (seq : UInt8) (payload : Bytes) (s : Socket) :
    ∃ written, written <+: packetBytes seq payload ∧
      ((writePacket seq payload).run s).2.output = s.output ++ written := by
  obtain ⟨written, hpart, houtput, -, -⟩ := run_write (packetBytes seq payload) s
  refine ⟨written, hpart, ?_⟩
  rw [writePacket_eq, SocketM.run_bind]
  rcases hrun : (write (packetBytes seq payload)).run s with ⟨fault | _, after⟩
  · rw [hrun] at houtput
    exact houtput
  · rw [hrun] at houtput
    exact houtput

/-! ## Reading a packet -/

theorem silent_readPacketLoop (fuel : ℕ) (payload : Bytes) : (readPacketLoop fuel payload).Silent := by
  induction fuel generalizing payload with
  | zero => exact silent_lift _
  | succ fuel ih =>
    apply (silent_readFull 4).bind
    intro hdr
    apply (silent_readFull _).bind
    intro chunk
    split
    · exact fun _ ↦ rfl
    · exact ih _

/-- Reading a packet writes nothing. -/
theorem silent_readPacket : readPacket.Silent :=
  fun s ↦ silent_readPacketLoop (s.input.length + 1) [] s

/-- One round of the reading loop on a frame that is there in full. -/
theorem readPacketLoop_frame (fuel : ℕ) (acc : Bytes) (frame : Frame) (s : Socket) :
    (readPacketLoop (fuel + 1) acc).run { s with input := frame.bytes ++ s.input } =
      if frame.payload.length < maxPacketPayload then
        (.ok (frame.seq, acc ++ frame.payload), s)
      else (readPacketLoop fuel (acc ++ frame.payload)).run s := by
  have hheader : (readFull 4).run { s with input := frame.bytes ++ s.input } =
      (.ok (frameHeader frame.payload.length frame.seq),
        { s with input := frame.payload ++ s.input }) := by
    refine readFull_eq_ok.mpr ⟨length_frameHeader _ _, ?_⟩
    rw [Frame.bytes, List.append_assoc]
  have hbound : frame.payload.length < 256 ^ 3 := lt_of_le_of_lt frame.fits (by decide)
  have hlength : leNat ((frameHeader frame.payload.length frame.seq).take 3) =
      frame.payload.length := by
    rw [frameHeader, List.take_left' (length_leBytes 3 _), leNat_leBytes, Nat.mod_eq_of_lt hbound]
  have hseq : (frameHeader frame.payload.length frame.seq).getD 3 0 = frame.seq := by
    rw [frameHeader, List.getD_append_right _ _ _ _ (length_leBytes 3 _).le, length_leBytes]
    rfl
  have hchunk : (readFull frame.payload.length).run { s with input := frame.payload ++ s.input } =
      (.ok frame.payload, s) := readFull_eq_ok.mpr ⟨rfl, rfl⟩
  rw [readPacketLoop, SocketM.bind_of_ok hheader]
  simp only [hlength, hseq]
  rw [SocketM.bind_of_ok hchunk]
  split <;> rfl

theorem readPacketLoop_packetBytes (fuel : ℕ) (acc : Bytes) (seq : UInt8) (payload : Bytes)
    (s : Socket) (hfuel : frameCount payload ≤ fuel) :
    (readPacketLoop fuel acc).run { s with input := packetBytes seq payload ++ s.input } =
      (.ok (lastSeq seq payload, acc ++ payload), s) := by
  induction fuel generalizing acc seq payload with
  | zero => exact absurd hfuel (Nat.not_succ_le_zero _)
  | succ fuel ih =>
    by_cases hlt : payload.length < maxPacketPayload
    · have hlast : lastSeq seq payload = seq := by
        rw [lastSeq, nextSeq_of_lt hlt, UInt8.add_sub_cancel]
      have hround := readPacketLoop_frame fuel acc ⟨seq, payload, hlt.le⟩ s
      rw [if_pos hlt] at hround
      rw [packetBytes, frames_of_lt hlt, List.flatMap_singleton, hlast]
      exact hround
    · have hle : maxPacketPayload ≤ payload.length := Nat.not_lt.mp hlt
      have hcount : frameCount (payload.drop maxPacketPayload) ≤ fuel := by
        rw [frameCount_of_le hle] at hfuel
        omega
      have hlast : lastSeq seq payload = lastSeq (seq + 1) (payload.drop maxPacketPayload) := by
        rw [lastSeq, nextSeq_of_le hle, lastSeq]
      let rest : Bytes := packetBytes (seq + 1) (payload.drop maxPacketPayload) ++ s.input
      have hround := readPacketLoop_frame fuel acc
        ⟨seq, payload.take maxPacketPayload, List.length_take_le _ _⟩ { s with input := rest }
      have hfull : ¬ (payload.take maxPacketPayload).length < maxPacketPayload := by
        rw [List.length_take]
        omega
      rw [if_neg hfull] at hround
      rw [packetBytes, frames_of_le hle, List.flatMap_cons, List.append_assoc, hlast]
      calc
        _ = (readPacketLoop fuel (acc ++ payload.take maxPacketPayload)).run
              { s with input := rest } := hround
        _ = (.ok (lastSeq (seq + 1) (payload.drop maxPacketPayload),
              acc ++ payload.take maxPacketPayload ++ payload.drop maxPacketPayload), s) :=
          ih _ (seq + 1) (payload.drop maxPacketPayload) hcount
        _ = _ := by rw [List.append_assoc, List.take_append_drop]

/-- The bytes of a packet as the reader takes them: full frames and then one that is not full, with
any sequence ids. -/
inductive IsPacket : Bytes → Bytes → Prop where
  | last (frame : Frame) (hshort : frame.payload.length < maxPacketPayload) :
      IsPacket frame.bytes frame.payload
  | more (frame : Frame) (hfull : frame.payload.length = maxPacketPayload) {bytes payload : Bytes}
      (hrest : IsPacket bytes payload) : IsPacket (frame.bytes ++ bytes) (frame.payload ++ payload)

/-- A header and as many bytes as it says are a frame. -/
theorem exists_frame {hdr chunk : Bytes} (hhdr : hdr.length = 4)
    (hchunk : chunk.length = leNat (hdr.take 3)) :
    ∃ frame : Frame, frame.bytes = hdr ++ chunk ∧ frame.payload = chunk := by
  have htake : (hdr.take 3).length = 3 := by
    rw [List.length_take]
    omega
  have hbound := leNat_lt (hdr.take 3)
  rw [htake, ← hchunk] at hbound
  refine ⟨⟨hdr.getD 3 0, chunk, Nat.le_of_lt_succ hbound⟩, ?_, rfl⟩
  have hlast : hdr.drop 3 = [hdr.getD 3 0] := by
    match hdr, hhdr with
    | [_, _, _, _], _ => rfl
  have hlength := leBytes_leNat (hdr.take 3)
  rw [htake, ← hchunk] at hlength
  rw [Frame.bytes, frameHeader, hlength, ← hlast, List.take_append_drop]

theorem isPacket_of_readPacketLoop {fuel : ℕ} {acc payload : Bytes} {seq : UInt8} {s s' : Socket}
    (h : (readPacketLoop fuel acc).run s = (.ok (seq, payload), s')) :
    ∃ bytes chunk, IsPacket bytes chunk ∧ payload = acc ++ chunk ∧
      s = { s' with input := bytes ++ s'.input } := by
  induction fuel generalizing acc s with
  | zero => exact absurd (SocketM.lift_eq_ok.mp h).1 (by simp)
  | succ fuel ih =>
    obtain ⟨hdr, s₁, hheader, hbody⟩ := SocketM.bind_eq_ok.mp h
    obtain ⟨chunk, s₂, hpayload, hrest⟩ := SocketM.bind_eq_ok.mp hbody
    obtain ⟨hhdr, rfl⟩ := readFull_eq_ok.mp hheader
    obtain ⟨hchunk, rfl⟩ := readFull_eq_ok.mp hpayload
    obtain ⟨frame, hbytes, rfl⟩ := exists_frame hhdr hchunk
    split at hrest
    next hshort =>
      obtain ⟨hvalue, rfl⟩ := SocketM.pure_eq_ok.mp hrest
      refine ⟨_, _, .last frame (hchunk ▸ hshort), (Prod.mk.inj hvalue).2.symm, ?_⟩
      rw [hbytes, List.append_assoc]
    next hfull =>
      obtain ⟨bytes, rest, hpacket, rfl, rfl⟩ := ih hrest
      have hlength : frame.payload.length = maxPacketPayload :=
        le_antisymm frame.fits (hchunk ▸ not_lt.mp hfull)
      refine ⟨_, _, .more frame hlength hpacket, List.append_assoc _ _ _, ?_⟩
      rw [hbytes, List.append_assoc, List.append_assoc]

/-- What is read is one packet, and nothing behind it is touched. -/
theorem isPacket_of_readPacket {payload : Bytes} {seq : UInt8} {s s' : Socket}
    (h : readPacket.run s = (.ok (seq, payload), s')) :
    ∃ bytes, IsPacket bytes payload ∧ s = { s' with input := bytes ++ s'.input } := by
  have hloop : (readPacketLoop (s.input.length + 1) []).run s = (.ok (seq, payload), s') := h
  obtain ⟨bytes, chunk, hpacket, rfl, hs⟩ := isPacket_of_readPacketLoop hloop
  exact ⟨bytes, hpacket, hs⟩

theorem frameCount_le_length (seq : UInt8) (payload : Bytes) :
    frameCount payload ≤ (packetBytes seq payload).length := by
  rw [← length_frames seq payload, packetBytes, List.length_flatMap]
  have hone : ∀ n ∈ (frames seq payload).map fun frame ↦ frame.bytes.length, 1 ≤ n := by
    intro n hn
    obtain ⟨frame, -, rfl⟩ := List.mem_map.mp hn
    rw [length_frame_bytes]
    omega
  calc
    (frames seq payload).length = ((frames seq payload).map fun frame ↦ frame.bytes.length).length :=
      (List.length_map _).symm
    _ ≤ ((frames seq payload).map fun frame ↦ frame.bytes.length).sum :=
      List.length_le_sum_of_one_le _ hone

/-- Reading a packet that is there in full takes it and nothing else. -/
theorem readPacket_packetBytes (seq : UInt8) (payload : Bytes) (s : Socket) :
    readPacket.run { s with input := packetBytes seq payload ++ s.input } =
      (.ok (lastSeq seq payload, payload), s) := by
  have hfuel : frameCount payload ≤ (packetBytes seq payload ++ s.input).length + 1 := by
    have hcount := frameCount_le_length seq payload
    rw [List.length_append]
    omega
  exact readPacketLoop_packetBytes _ [] seq payload s hfuel

/-! ## Framing round-trips -/

/-- A packet is written as consecutively numbered frames of its payload, and is read back as the
payload with the id of the last frame, with the bytes behind it left alone. -/
theorem readPacket_writePacket (seq : UInt8) (payload input output rest before : Bytes)
    (room : Option ℕ) :
    ∃ (parts : List Frame) (next : UInt8),
      (writePacket seq payload).run ⟨input, output, none⟩ =
        (.ok next, ⟨input, output ++ parts.flatMap Frame.bytes, none⟩) ∧
      parts.length = payload.length / maxPacketPayload + 1 ∧
      parts.flatMap Frame.payload = payload ∧
      parts.map Frame.seq = (List.range parts.length).map (fun index ↦ seq + UInt8.ofNat index) ∧
      readPacket.run ⟨parts.flatMap Frame.bytes ++ rest, before, room⟩ =
        (.ok (next - 1, payload), ⟨rest, before, room⟩) := by
  refine ⟨frames seq payload, nextSeq seq payload, ?_, length_frames seq payload,
    flatMap_payload_frames seq payload, ?_, readPacket_packetBytes seq payload ⟨rest, before, room⟩⟩
  · rw [writePacket_eq, SocketM.run_bind, write_of_room rfl]
    rfl
  · rw [length_frames, frames, List.map_map]
    rfl

end DbPivot.Mysql
