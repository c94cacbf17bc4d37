import PcapFile.Pcap.Header

/-! # Pcap packet records (`pcap/packet.rs`)

    `packet.rs` is not among the sources, so the record codec is modelled on
    the specification (its sections 3.2 and 4.E): a record is a sixteen-byte
    header, `ts_secs`, `ts_subsecs`, `captured_len` and `original_len`, each
    a `u32` in the file's byte order, followed by `captured_len` bytes of
    data.  `RawPcapPacket` keeps the four fields and the data as they are.
    A slice too short for the header or for the data is `IncompleteBuffer`,
    the error the stream driver reads more input on; the writer emits the
    four fields and then the data, and reports the bytes it wrote.

    The codec is a bijection between the records whose length field is the
    length of their data and the byte strings that hold a whole record
    (`fromSlice_writeTo`, `eq_writeTo_of_fromSlice`), and the decoder can
    be fed a stream as it arrives (`fromSlice_extendsTo`).

    `PcapPacket`, which reads the timestamp by the file's resolution and
    checks the captured length against the snapshot length, is not
    modelled: the specification gives neither its timestamp conversion nor
    what its writer does with a packet longer than the snapshot length.
-/

namespace PcapFile

/-- Modelled from the spec: a packet record, its header fields kept as they
    are read. -/
structure RawPcapPacket where
  tsSecs : UInt32
  tsSubsecs : UInt32
  capturedLen : UInt32
  originalLen : UInt32
  data : Bytes
  deriving DecidableEq, Repr

namespace RawPcapPacket

/-- Modelled from the spec: `RawPcapPacket::from_slice::<B>`. -/
def fromSlice (B : Endianness) (slice : Bytes) : Outcome (Bytes × RawPcapPacket) :=
  if slice.length < 16 then .err .incompleteBuffer
  else do
    let (ts_secs, slice) ← unwrap (readU32 B slice)
    let (ts_subsecs, slice) ← unwrap (readU32 B slice)
    let (captured_len, slice) ← unwrap (readU32 B slice)
    let (original_len, slice) ← unwrap (readU32 B slice)
    if slice.length < captured_len.toNat then .err .incompleteBuffer
    else do
      let data ← sliceTo slice captured_len.toNat
      let rem ← sliceFrom slice captured_len.toNat
      pure (rem, ⟨ts_secs, ts_subsecs, captured_len, original_len, data⟩)

/-- Modelled from the spec: `RawPcapPacket::write_to::<B>`, the four header
    fields as they are and then the data. -/
def writeTo (B : Endianness) (p : RawPcapPacket) : Written :=
  ⟨writeU32 B p.tsSecs ++ writeU32 B p.tsSubsecs ++ writeU32 B p.capturedLen ++
      writeU32 B p.originalLen ++ p.data,
    16 + p.data.length⟩

/-- A record whose length field is the length of its data: the records the
    decoder returns, and the ones the writer writes so that they read
    back. -/
def WellFormed (p : RawPcapPacket) : Prop := p.capturedLen.toNat = p.data.length

instance (p : RawPcapPacket) : Decidable p.WellFormed := inferInstanceAs (Decidable (_ = _))

/-- The decoder once the four header fields are read. -/
theorem fromSlice_eq (B : Endianness) (secs subsecs cap orig : UInt32) (rest : Bytes) :
    fromSlice B (writeU32 B secs ++ (writeU32 B subsecs ++ (writeU32 B cap ++
        (writeU32 B orig ++ rest)))) =
      if rest.length < cap.toNat then .err .incompleteBuffer
      else .ok (rest.drop cap.toNat, ⟨secs, subsecs, cap, orig, rest.take cap.toNat⟩) := by
  unfold fromSlice
  rw [if_neg (by simp; omega)]
  simp only [readU32_writeU32, unwrap_some, Outcome.ok_bind]
  split
  · rfl
  · rw [sliceTo_of_le (by omega), sliceFrom_of_le (by omega)]
    rfl

/-- Every slice of sixteen bytes or more starts with the four header fields. -/
theorem exists_header (B : Endianness) {s : Bytes} (h : 16 ≤ s.length) :
    ∃ secs subsecs cap orig rest, s = writeU32 B secs ++ (writeU32 B subsecs ++
      (writeU32 B cap ++ (writeU32 B orig ++ rest))) := by
  obtain ⟨secs, s, rfl⟩ := exists_writeU32 B (s := s) (by omega)
  obtain ⟨subsecs, s, rfl⟩ := exists_writeU32 B (s := s) (by simp at h; omega)
  obtain ⟨cap, s, rfl⟩ := exists_writeU32 B (s := s) (by simp at h; omega)
  obtain ⟨orig, s, rfl⟩ := exists_writeU32 B (s := s) (by simp at h; omega)
  exact ⟨secs, subsecs, cap, orig, s, rfl⟩

/-- The record decoder never panics. -/
theorem fromSlice_isPanic (B : Endianness) (s : Bytes) : (fromSlice B s).isPanic = false := by
  by_cases hs : s.length < 16
  · simp [fromSlice, hs]
  obtain ⟨secs, subsecs, cap, orig, rest, rfl⟩ := exists_header B (s := s) (by omega)
  rw [fromSlice_eq]
  split <;> rfl

/-- **Prefix stability of the record decoder.** -/
theorem fromSlice_extendsTo (B : Endianness) (s ext : Bytes) :
    ExtendsTo (fromSlice B s) (fromSlice B (s ++ ext)) ext := by
  by_cases hs : s.length < 16
  · rw [show fromSlice B s = .err .incompleteBuffer from if_pos hs]
    exact ExtendsTo.incomplete _ ext
  obtain ⟨secs, subsecs, cap, orig, rest, rfl⟩ := exists_header B (s := s) (by omega)
  simp only [List.append_assoc, fromSlice_eq]
  split
  · exact ExtendsTo.incomplete _ ext
  · rename_i hr
    rw [if_neg (by simp; omega)]
    refine ⟨fun rem a h => ?_, fun e h => nomatch h⟩
    cases h
    rw [List.drop_append_of_le_length (by omega), List.take_append_of_le_length (by omega)]

/-- **Decode, then encode.**  A decoded record is well formed, and the
    slice it was read from is the record as the writer writes it, followed
    by the remainder. -/
theorem eq_writeTo_of_fromSlice {B : Endianness} {s rem : Bytes} {p : RawPcapPacket}
    (h : fromSlice B s = .ok (rem, p)) : p.WellFormed ∧ s = (writeTo B p).bytes ++ rem := by
  by_cases hs : s.length < 16
  · simp [fromSlice, hs] at h
  obtain ⟨secs, subsecs, cap, orig, rest, rfl⟩ := exists_header B (s := s) (by omega)
  rw [fromSlice_eq] at h
  split at h
  · cases h
  · cases h
    refine ⟨by simp only [WellFormed, List.length_take]; omega, ?_⟩
    simp only [writeTo, List.append_assoc, List.take_append_drop]

/-- **Encode, then decode.**  A well-formed record, written and followed by
    any bytes, reads back as itself with those bytes left over. -/
theorem fromSlice_writeTo (B : Endianness) {p : RawPcapPacket} (h : p.WellFormed)
    (rest : Bytes) : fromSlice B ((writeTo B p).bytes ++ rest) = .ok (rest, p) := by
  have h : p.capturedLen.toNat = p.data.length := h
  simp only [writeTo, List.append_assoc, fromSlice_eq, h]
  rw [if_neg (by simp), List.drop_left' rfl, List.take_left' rfl]

/-- The record writer writes the bytes it reports. -/
theorem writeTo_exact (B : Endianness) (p : RawPcapPacket) : (writeTo B p).Exact := by
  simp [writeTo, Written.Exact]
  omega

end RawPcapPacket

end PcapFile
