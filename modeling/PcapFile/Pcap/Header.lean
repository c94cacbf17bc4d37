import PcapFile.Basic

/-! # The pcap global header (`pcap/header.rs`)

    The 24-byte header of a legacy pcap file.  Its magic, read big endian,
    gives both the byte order of the other fields and the timestamp
    resolution.  `ts_correction` is an `i32`, kept as its two's-complement
    bit pattern.  The link type is a `DataLink`, read with `DataLink::from`
    and written with `u32::from`, so the header codec is a bijection only on
    the headers whose link type `DataLink::from` can return: a header with
    `Unknown(1)` is written as `ETHERNET` is, and read back with `ETHERNET`
    (`header_codec_bijection`, `unknown_link_type_read_back_named`).
-/

namespace PcapFile

/-- The pcap global header. -/
structure PcapHeader where
  versionMajor : UInt16
  versionMinor : UInt16
  tsCorrection : UInt32
  tsAccuracy : UInt32
  snaplen : UInt32
  datalink : DataLink
  tsResolution : TsResolution
  endianness : Endianness
  deriving DecidableEq, Repr

namespace PcapHeader

/-- `init_pcap_header::<B>`: the fields after the magic. -/
def initPcapHeader (B : Endianness) (src : Bytes) (ts_resolution : TsResolution)
    (endianness : Endianness) : Outcome (Bytes × PcapHeader) := do
  let (version_major, src) ← unwrap (readU16 B src)
  let (version_minor, src) ← unwrap (readU16 B src)
  let (ts_correction, src) ← unwrap (readU32 B src)
  let (ts_accuracy, src) ← unwrap (readU32 B src)
  let (snaplen, src) ← unwrap (readU32 B src)
  let (datalink, src) ← unwrap (readU32 B src)
  pure (src, ⟨version_major, version_minor, ts_correction, ts_accuracy, snaplen,
    DataLink.ofCode datalink, ts_resolution, endianness⟩)

/-- `PcapHeader::from_slice`. -/
def fromSlice (slice : Bytes) : Outcome (Bytes × PcapHeader) :=
  if slice.length < 24 then .err .incompleteBuffer
  else do
    let (magic_number, slice) ← unwrap (readU32 .big slice)
    match magic_number with
    | 0xA1B2C3D4 => initPcapHeader .big slice .microSecond .big
    | 0xA1B23C4D => initPcapHeader .big slice .nanoSecond .big
    | 0xD4C3B2A1 => initPcapHeader .little slice .microSecond .little
    | 0x4D3CB2A1 => initPcapHeader .little slice .nanoSecond .little
    | _ => .err (.invalidField "PcapHeader: wrong magic number")

/-- `PcapHeader::write_to`: every field in the header's own byte order. -/
def writeTo (h : PcapHeader) : Written :=
  let B := h.endianness
  let magic_number : UInt32 := match h.tsResolution with
    | .microSecond => 0xA1B2C3D4
    | .nanoSecond => 0xA1B23C4D
  ⟨writeU32 B magic_number ++ writeU16 B h.versionMajor ++ writeU16 B h.versionMinor ++
      writeU32 B h.tsCorrection ++ writeU32 B h.tsAccuracy ++ writeU32 B h.snaplen ++
      writeU32 B h.datalink.toCode,
    24⟩

@[simp] theorem writeTo_length (h : PcapHeader) : h.writeTo.bytes.length = 24 := by
  simp [writeTo]

/-- `impl Default for PcapHeader`: version 2.4, snaplen 65535, Ethernet,
    microseconds, big endian. -/
def default : PcapHeader := ⟨2, 4, 0, 0, 65535, .ethernet, .microSecond, .big⟩

/-- The fields after the magic, read from twenty bytes or more. -/
theorem initPcapHeader_eq (B : Endianness) (maj min : UInt16) (corr acc snap link : UInt32)
    (rest : Bytes) (r : TsResolution) (e : Endianness) :
    initPcapHeader B (writeU16 B maj ++ (writeU16 B min ++ (writeU32 B corr ++ (writeU32 B acc ++
      (writeU32 B snap ++ (writeU32 B link ++ rest)))))) r e =
      .ok (rest, ⟨maj, min, corr, acc, snap, .ofCode link, r, e⟩) := by
  simp [initPcapHeader]

/-- Every slice of twenty bytes or more holds the fields after the magic. -/
theorem exists_fields (B : Endianness) {s : Bytes} (h : 20 ≤ s.length) :
    ∃ maj min corr acc snap link rest, s = writeU16 B maj ++ (writeU16 B min ++
      (writeU32 B corr ++ (writeU32 B acc ++ (writeU32 B snap ++ (writeU32 B link ++ rest))))) := by
  obtain ⟨maj, s, rfl⟩ := exists_writeU16 B (s := s) (by omega)
  obtain ⟨min, s, rfl⟩ := exists_writeU16 B (s := s) (by simp at h; omega)
  obtain ⟨corr, s, rfl⟩ := exists_writeU32 B (s := s) (by simp at h; omega)
  obtain ⟨acc, s, rfl⟩ := exists_writeU32 B (s := s) (by simp at h; omega)
  obtain ⟨snap, s, rfl⟩ := exists_writeU32 B (s := s) (by simp at h; omega)
  obtain ⟨link, rest, rfl⟩ := exists_writeU32 B (s := s) (by simp at h; omega)
  exact ⟨maj, min, corr, acc, snap, link, rest, rfl⟩

theorem initPcapHeader_isPanic (B : Endianness) {s : Bytes} (h : 20 ≤ s.length)
    (r : TsResolution) (e : Endianness) : (initPcapHeader B s r e).isPanic = false := by
  obtain ⟨maj, min, corr, acc, snap, link, rest, rfl⟩ := exists_fields B h
  rw [initPcapHeader_eq]; rfl

theorem initPcapHeader_extendsTo (B : Endianness) {s : Bytes} (h : 20 ≤ s.length) (ext : Bytes)
    (r : TsResolution) (e : Endianness) :
    ExtendsTo (initPcapHeader B s r e) (initPcapHeader B (s ++ ext) r e) ext := by
  obtain ⟨maj, min, corr, acc, snap, link, rest, rfl⟩ := exists_fields B h
  simp only [List.append_assoc, initPcapHeader_eq]
  exact ⟨fun _ _ h => by cases h; rfl, fun _ h => nomatch h⟩

/-- `PcapHeader::from_slice` once the magic is read. -/
theorem fromSlice_magic (magic : UInt32) (rest : Bytes) (h : 20 ≤ rest.length) :
    fromSlice (writeU32 .big magic ++ rest) =
      match magic with
      | 0xA1B2C3D4 => initPcapHeader .big rest .microSecond .big
      | 0xA1B23C4D => initPcapHeader .big rest .nanoSecond .big
      | 0xD4C3B2A1 => initPcapHeader .little rest .microSecond .little
      | 0x4D3CB2A1 => initPcapHeader .little rest .nanoSecond .little
      | _ => .err (.invalidField "PcapHeader: wrong magic number") := by
  rw [fromSlice, if_neg (by simp; omega)]
  simp only [readU32_writeU32, unwrap_some, Outcome.ok_bind]

/-- **`PcapHeader::from_slice` never panics.** -/
theorem fromSlice_isPanic (s : Bytes) : (fromSlice s).isPanic = false := by
  by_cases hs : s.length < 24
  · simp [fromSlice, hs]
  obtain ⟨magic, rest, rfl⟩ := exists_writeU32 .big (s := s) (by omega)
  have hr : 20 ≤ rest.length := by simp at hs; omega
  rw [fromSlice_magic magic rest hr]
  split <;> first | rfl | exact initPcapHeader_isPanic _ hr _ _

/-- **Prefix stability of the header decoder.** -/
theorem fromSlice_extendsTo (s ext : Bytes) :
    ExtendsTo (fromSlice s) (fromSlice (s ++ ext)) ext := by
  by_cases hs : s.length < 24
  · rw [fromSlice, if_pos hs]; exact ExtendsTo.incomplete _ _
  obtain ⟨magic, rest, rfl⟩ := exists_writeU32 .big (s := s) (by omega)
  have hr : 20 ≤ rest.length := by simp at hs; omega
  rw [List.append_assoc, fromSlice_magic magic rest hr, fromSlice_magic magic _ (by simp; omega)]
  split <;> first | exact ExtendsTo.refl_err _ _ | exact initPcapHeader_extendsTo _ hr _ _ _

/-! ## Round trip -/

/-- **Encode, then decode.**  A header written in its own byte order, with
    the magic of its resolution, reads back as itself but for its link type,
    which reads back as the value `DataLink::from` gives for its code. -/
theorem fromSlice_writeTo (h : PcapHeader) (rest : Bytes) :
    fromSlice (h.writeTo.bytes ++ rest) =
      .ok (rest, { h with datalink := .ofCode h.datalink.toCode }) := by
  obtain ⟨maj, min, corr, acc, snap, link, r, e⟩ := h
  have hl : writeU32 .little (0xA1B2C3D4 : UInt32) = writeU32 .big 0xD4C3B2A1 := by decide
  have hn : writeU32 .little (0xA1B23C4D : UInt32) = writeU32 .big 0x4D3CB2A1 := by decide
  cases r <;> cases e <;> simp only [writeTo, List.append_assoc, hl, hn] <;>
    rw [fromSlice_magic _ _ (by simp; omega)] <;> exact initPcapHeader_eq ..

/-- A header reads back as itself exactly when its link type is canonical. -/
theorem fromSlice_writeTo_iff (h : PcapHeader) (rest : Bytes) :
    fromSlice (h.writeTo.bytes ++ rest) = .ok (rest, h) ↔ h.datalink.Canonical := by
  rw [fromSlice_writeTo, ← DataLink.ofCode_toCode_iff]
  constructor
  · intro heq
    exact congrArg (fun x => x.2.datalink) (Outcome.ok.inj heq)
  · intro hd
    rw [hd]

/-- The twenty bytes of fields after the magic, and what follows them. -/
theorem fields_take_drop (B : Endianness) (maj min : UInt16) (corr acc snap link : UInt32)
    (rest : Bytes) :
    let s := writeU16 B maj ++ (writeU16 B min ++ (writeU32 B corr ++ (writeU32 B acc ++
      (writeU32 B snap ++ (writeU32 B link ++ rest)))))
    s.take 20 = writeU16 B maj ++ writeU16 B min ++ writeU32 B corr ++ writeU32 B acc ++
      writeU32 B snap ++ writeU32 B link ∧ s.drop 20 = rest := by
  simp only [← List.append_assoc]
  exact ⟨List.take_left' (by simp), List.drop_left' (by simp)⟩

/-- The fields read in byte order `e` are written back as they were read,
    after the magic of `e` and the resolution. -/
theorem initPcapHeader_writeTo (e : Endianness) (r : TsResolution) {magic : UInt32}
    {rest : Bytes} (hr : 20 ≤ rest.length)
    (hm : writeU32 e (match r with | .microSecond => 0xA1B2C3D4 | .nanoSecond => 0xA1B23C4D) =
      writeU32 .big magic) :
    ∃ h, initPcapHeader e rest r e = .ok (rest.drop 20, h) ∧
      h.writeTo.bytes = writeU32 .big magic ++ rest.take 20 := by
  obtain ⟨maj, min, corr, acc, snap, link, rest, rfl⟩ := exists_fields e hr
  obtain ⟨ht, hd⟩ := fields_take_drop e maj min corr acc snap link rest
  refine ⟨⟨maj, min, corr, acc, snap, .ofCode link, r, e⟩, by rw [hd]; exact initPcapHeader_eq .., ?_⟩
  rw [ht, ← hm]
  cases r <;> simp [writeTo]

/-- **Decode, then encode.**  After any of the four magics, twenty bytes of
    fields decode to a header that is written back as the same bytes. -/
theorem writeTo_fromSlice (magic : UInt32)
    (hm : magic ∈ ([0xA1B2C3D4, 0xA1B23C4D, 0xD4C3B2A1, 0x4D3CB2A1] : List UInt32))
    (rest : Bytes) (hr : 20 ≤ rest.length) :
    ∃ h, fromSlice (writeU32 .big magic ++ rest) = .ok (rest.drop 20, h) ∧
      h.writeTo.bytes = writeU32 .big magic ++ rest.take 20 := by
  simp only [List.mem_cons, List.mem_nil_iff, or_false] at hm
  rw [fromSlice_magic _ _ hr]
  rcases hm with rfl | rfl | rfl | rfl
  · exact initPcapHeader_writeTo .big .microSecond hr rfl
  · exact initPcapHeader_writeTo .big .nanoSecond hr rfl
  · exact initPcapHeader_writeTo .little .microSecond hr (by decide)
  · exact initPcapHeader_writeTo .little .nanoSecond hr (by decide)

/-- Fields read after a magic that is the one `e` and `r` are written with
    are the bytes the header is written as. -/
theorem eq_writeTo_of_initPcapHeader {e : Endianness} {r : TsResolution} {magic : UInt32}
    {rest rem : Bytes} {h : PcapHeader} (hr : 20 ≤ rest.length)
    (hm : writeU32 e (match r with | .microSecond => 0xA1B2C3D4 | .nanoSecond => 0xA1B23C4D) =
      writeU32 .big magic)
    (hd : initPcapHeader e rest r e = .ok (rem, h)) :
    writeU32 .big magic ++ rest = h.writeTo.bytes ++ rem := by
  obtain ⟨h', hi, hw⟩ := initPcapHeader_writeTo e r hr hm
  obtain ⟨rfl, rfl⟩ := Prod.mk.inj (Outcome.ok.inj (hi.symm.trans hd))
  rw [hw, List.append_assoc, List.take_append_drop]

/-- **Decode, then encode, on any slice.**  A slice the header decoder
    accepts is the header as it is written, followed by what the decoder
    leaves. -/
theorem eq_writeTo_of_fromSlice {s rem : Bytes} {h : PcapHeader}
    (hd : fromSlice s = .ok (rem, h)) : s = h.writeTo.bytes ++ rem := by
  by_cases hs : s.length < 24
  · simp [fromSlice, hs] at hd
  obtain ⟨magic, rest, rfl⟩ := exists_writeU32 .big (s := s) (by omega)
  have hr : 20 ≤ rest.length := by simp at hs; omega
  rw [fromSlice_magic magic rest hr] at hd
  split at hd
  all_goals first | cases hd | exact eq_writeTo_of_initPcapHeader hr (by decide) hd

/-- **The header codec is a bijection** between the headers whose link type
    is canonical and the 24-byte strings that start with one of the four
    magics: a header, written and followed by any bytes, reads back as
    itself with those bytes left over exactly when its link type is one
    `DataLink::from` returns; and every string of 24 bytes or more whose
    first four bytes are a magic decodes to a header that is written as its
    first 24 bytes. -/
theorem header_codec_bijection :
    (∀ (h : PcapHeader) (rest : Bytes),
      fromSlice (h.writeTo.bytes ++ rest) = .ok (rest, h) ↔ h.datalink.Canonical) ∧
    ∀ s : Bytes, 24 ≤ s.length →
      (∃ magic ∈ ([0xA1B2C3D4, 0xA1B23C4D, 0xD4C3B2A1, 0x4D3CB2A1] : List UInt32),
        s.take 4 = writeU32 .big magic) →
      ∃ h, fromSlice s = .ok (s.drop 24, h) ∧ h.writeTo.bytes = s.take 24 := by
  refine ⟨fromSlice_writeTo_iff, fun s hs ⟨magic, hm, htake⟩ => ?_⟩
  obtain ⟨m, rest, rfl⟩ := exists_writeU32 .big (s := s) (by omega)
  obtain rfl : m = magic := by
    rw [List.take_left' (writeU32_length _ _)] at htake
    simpa using congrArg (readU32 .big) htake
  have hr : 20 ≤ rest.length := by simp at hs; omega
  simpa [List.take_append_eq_append_take, List.drop_append_eq_append_drop] using
    writeTo_fromSlice m hm rest hr

/-- The default header with the link type `Unknown(1)`: `ETHERNET`'s code
    under the unknown variant. -/
def unknownEthernet : PcapHeader := { default with datalink := .unknown 1 }

/-- A header whose link type is `Unknown(1)` is written as the default
    header is, and reads back as the default header, with `ETHERNET`. -/
theorem unknown_link_type_read_back_named :
    fromSlice unknownEthernet.writeTo.bytes = .ok ([], default) ∧ unknownEthernet ≠ default :=
  ⟨by decide, by decide⟩

/-- `PcapHeader::write_to` writes the twenty-four bytes it reports. -/
theorem writeTo_exact (h : PcapHeader) : h.writeTo.Exact := by
  simp [writeTo, Written.Exact]

end PcapHeader

end PcapFile
