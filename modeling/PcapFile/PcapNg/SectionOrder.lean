import PcapFile.PcapNg.Replay

/-! # The byte order of a section header (`RawBlock::from_slice`)

    A stream switches byte order at a section header, so the frame of a
    section header has to be read before its byte order is known.  Its
    type code `0A 0D 0D 0A` is a palindrome and reads the same in both
    orders; its length is read big endian and byte-swapped when the magic
    that starts the body is the little endian one; the body is decoded by
    `SectionHeaderBlock::from_slice`, which reads the magic big endian and
    every other field in the order the magic names.

    So the byte order the caller gives plays no part: on every slice that
    starts with the section header's type code the frame decoder, and the
    block decoder, return the same result in both byte orders, and what
    they return is encoded throughout in the byte order of the header's own
    magic (`section_header_ignores_caller_order`).
-/

namespace PcapFile.PcapNg

/-! ## Section 1: The section header decoder, inverted -/

namespace SectionHeaderBlock

/-- The magic read big endian names `e` when it is the magic written in `e`. -/
theorem writeU32_of_magicEndianness {magic : UInt32} {e : Endianness}
    (h : magicEndianness magic = .ok e) : writeU32 .big magic = writeU32 e 0x1A2B3C4D := by
  unfold magicEndianness at h
  split at h <;> cases h
  · rfl
  · exact writeU32_little_magic.symm

/-- What `parse_inner` read: the version, the section length and the bytes
    the options were read from. -/
theorem parseInner_eq_ok {B : Endianness} {s rem : Bytes} {maj min : UInt16} {len : UInt64}
    {opts : List SectionHeaderOption} (h : parseInner B s = .ok (rem, maj, min, len, opts)) :
    ∃ optBytes, s = writeU16 B maj ++ writeU16 B min ++ writeU64 B len ++ optBytes ∧
      optsFromSlice B optBytes = .ok (rem, opts) := by
  obtain ⟨⟨maj', s₁⟩, h1, h⟩ := Outcome.bind_eq_ok.mp h
  obtain ⟨⟨min', s₂⟩, h2, h⟩ := Outcome.bind_eq_ok.mp h
  obtain ⟨⟨len', s₃⟩, h3, h⟩ := Outcome.bind_eq_ok.mp h
  obtain ⟨⟨rem', opts'⟩, h4, h⟩ := Outcome.bind_eq_ok.mp h
  cases h
  refine ⟨s₃, ?_, h4⟩
  rw [eq_writeU16_of_readU16 (unwrap_eq_ok.mp h1), eq_writeU16_of_readU16 (unwrap_eq_ok.mp h2),
    eq_writeU64_of_readU64 (unwrap_eq_ok.mp h3)]
  simp only [List.append_assoc]

/-- **What a decoded section header was read from.**  The magic of its own
    byte order, then the version, the section length and the options, all
    in that byte order, whatever byte order the caller gave. -/
theorem fromSlice_eq_ok {B : Endianness} {s rem : Bytes} {h : SectionHeaderBlock}
    (hd : fromSlice B s = .ok (rem, h)) :
    ∃ optBytes, s = writeU32 h.endianness 0x1A2B3C4D ++ writeU16 h.endianness h.majorVersion ++
        writeU16 h.endianness h.minorVersion ++ writeU64 h.endianness h.sectionLength ++ optBytes ∧
      optsFromSlice h.endianness optBytes = .ok (rem, h.options) := by
  unfold fromSlice at hd
  split at hd
  · cases hd
  obtain ⟨⟨magic, s₁⟩, h1, hd⟩ := Outcome.bind_eq_ok.mp hd
  obtain ⟨e, he, hd⟩ := Outcome.bind_eq_ok.mp hd
  obtain ⟨⟨rem', maj, min, len, opts⟩, hp, hd⟩ := Outcome.bind_eq_ok.mp hd
  cases hd
  obtain ⟨optBytes, rfl, ho⟩ := parseInner_eq_ok hp
  refine ⟨optBytes, ?_, ho⟩
  rw [eq_writeU32_of_readU32 (unwrap_eq_ok.mp h1), writeU32_of_magicEndianness he]
  simp only [List.append_assoc]

end SectionHeaderBlock

/-! ## Section 2: The caller's byte order plays no part -/

namespace RawBlock

/-- After the section header's type code, the frame decoder reads the same
    bytes in both byte orders. -/
theorem fromSlice_sectionHeader_eq (B B' : Endianness) (rest : Bytes) :
    fromSlice B (writeU32 B sectionHeaderBlock ++ rest) =
      fromSlice B' (writeU32 B' sectionHeaderBlock ++ rest) := by
  by_cases hr : rest.length < 8
  · rw [fromSlice_short (by simp; omega), fromSlice_short (by simp; omega)]
  obtain ⟨len, rest, rfl⟩ := exists_writeU32 .big (s := rest) (by omega)
  obtain ⟨magic, rest, rfl⟩ := exists_writeU32 .big (s := rest) (by simp at hr; omega)
  rw [fromSlice_sectionHeader, fromSlice_sectionHeader]

/-- A frame read after the section header's type code is a section header. -/
theorem type_of_fromSlice_sectionHeader {B : Endianness} {rest rem : Bytes} {r : RawBlock}
    (h : fromSlice B (writeU32 B sectionHeaderBlock ++ rest) = .ok (rem, r)) :
    r.type_ = sectionHeaderBlock := by
  obtain ⟨B', hs, -, -⟩ := fromSlice_eq_ok_writeTo h
  have h4 := congrArg (readU32 B') hs
  rw [writeU32_sectionHeaderBlock B, ← writeU32_sectionHeaderBlock B', readU32_writeU32] at h4
  simp only [writeTo, List.append_assoc, readU32_writeU32, Option.some.injEq, Prod.mk.injEq] at h4
  exact h4.1.symm

end RawBlock

/-- A section header frame decodes the same in both byte orders. -/
theorem Block.tryFromRawBlock_sectionHeader_eq (B B' : Endianness) {raw : RawBlock}
    (h : raw.type_ = sectionHeaderBlock) :
    Block.tryFromRawBlock B raw = Block.tryFromRawBlock B' raw := by
  obtain ⟨t, len, cow, trailer⟩ := raw
  obtain rfl : t = sectionHeaderBlock := h
  cases cow with
  | borrowed body => rw [Block.tryFromRawBlock_sectionHeader, Block.tryFromRawBlock_sectionHeader]
  | owned body => rfl

/-! ## Section 3: Slices that start with the section header's type code -/

section TypeCode

variable {s : Bytes} (hs : s.take 4 = [0x0A, 0x0D, 0x0D, 0x0A])

include hs in
/-- Such a slice is the type code, written in either byte order, and what
    follows it. -/
theorem eq_sectionHeader_code (B : Endianness) : s = writeU32 B sectionHeaderBlock ++ s.drop 4 := by
  rw [writeU32_sectionHeaderBlock, ← hs, List.take_append_drop]

include hs in
/-- The frame decoder reads such a slice as it does big endian. -/
theorem RawBlock.fromSlice_of_sectionHeader_code (B : Endianness) :
    RawBlock.fromSlice B s = RawBlock.fromSlice .big s := by
  have h := RawBlock.fromSlice_sectionHeader_eq B .big (s.drop 4)
  rwa [← eq_sectionHeader_code hs B, ← eq_sectionHeader_code hs .big] at h

include hs in
/-- A frame read from such a slice is a section header, and the slice is the
    frame as written in the byte order of the magic that starts its body. -/
theorem RawBlock.frame_of_sectionHeader_code {B : Endianness} {rem : Bytes} {r : RawBlock}
    (h : RawBlock.fromSlice B s = .ok (rem, r)) :
    r.type_ = sectionHeaderBlock ∧ ∃ e rest, s = (RawBlock.writeTo e r).bytes ++ rem ∧
      r.body.bytes = writeU32 e 0x1A2B3C4D ++ rest := by
  have ht := RawBlock.type_of_fromSlice_sectionHeader (B := B)
    (by rw [← eq_sectionHeader_code hs B]; exact h)
  obtain ⟨e, hsrc, -, hmagic⟩ := RawBlock.fromSlice_eq_ok_writeTo h
  obtain ⟨rest, hrest⟩ := hmagic ht
  exact ⟨ht, e, rest, hsrc, hrest⟩

include hs in
/-- The block decoder reads such a slice the same in both byte orders. -/
theorem Block.fromSlice_of_sectionHeader_code :
    Block.fromSlice .big s = Block.fromSlice .little s := by
  unfold Block.fromSlice
  rw [RawBlock.fromSlice_of_sectionHeader_code hs .little]
  cases hr : RawBlock.fromSlice .big s with
  | ok p =>
    simp only [Outcome.ok_bind]
    rw [Block.tryFromRawBlock_sectionHeader_eq .big .little
      (RawBlock.frame_of_sectionHeader_code hs hr).1]
  | err e => rw [Outcome.err_bind, Outcome.err_bind]
  | panic m => rw [Outcome.panic_bind, Outcome.panic_bind]

include hs in
/-- A block decoded from such a slice is a section header whose lengths,
    magic, fields and options are all in the byte order its magic names. -/
theorem Block.fields_of_sectionHeader_code {B : Endianness} {rem : Bytes} {b : Block}
    (h : Block.fromSlice B s = .ok (rem, b)) :
    ∃ hdr len₁ len₂ optBytes rem', b = .sectionHeader hdr ∧
      s = writeU32 hdr.endianness sectionHeaderBlock ++ writeU32 hdr.endianness len₁ ++
        (writeU32 hdr.endianness 0x1A2B3C4D ++ writeU16 hdr.endianness hdr.majorVersion ++
          writeU16 hdr.endianness hdr.minorVersion ++ writeU64 hdr.endianness hdr.sectionLength ++
          optBytes) ++
        writeU32 hdr.endianness len₂ ++ rem ∧
      optsFromSlice hdr.endianness optBytes = .ok (rem', hdr.options) := by
  obtain ⟨⟨rem₁, raw⟩, hr, h⟩ := Outcome.bind_eq_ok.mp h
  dsimp only at h
  obtain ⟨b', hb, h⟩ := Outcome.bind_eq_ok.mp h
  cases h
  obtain ⟨ht, e, rest, hsrc, hbody⟩ := RawBlock.frame_of_sectionHeader_code hs hr
  obtain ⟨body, hcow, -, -⟩ := RawBlock.framed_of_fromSlice hr
  obtain ⟨t, len₁, cow, len₂⟩ := raw
  obtain rfl : t = sectionHeaderBlock := ht
  obtain rfl : cow = .borrowed body := hcow
  rw [Block.tryFromRawBlock_sectionHeader] at hb
  obtain ⟨⟨rem', hdr⟩, hd, rfl⟩ := Outcome.map_eq_ok.mp hb
  have hbody : body = writeU32 e 0x1A2B3C4D ++ rest := hbody
  have he : hdr.endianness = e :=
    SectionHeaderBlock.endianness_of_fromSlice (by rw [← hbody]; exact hd)
  obtain ⟨optBytes, hbody', hopts⟩ := SectionHeaderBlock.fromSlice_eq_ok hd
  refine ⟨hdr, len₁, len₂, optBytes, rem', rfl, ?_, hopts⟩
  rw [← hbody', hsrc, he]
  simp only [RawBlock.writeTo, Cow.bytes_borrowed]

end TypeCode

/-- **The section header ignores the caller's byte order.**  On every slice
    whose first four bytes are the section header's type code, the frame
    decoder returns the same result big and little endian, and so does the
    block decoder.  A frame it returns is, with what follows it, the slice
    itself as `RawBlock::write_to` writes the frame in the byte order of the
    magic that starts its body; a block it returns is a section header whose
    lengths, magic, version, section length and options are all encoded in
    the header's own byte order. -/
theorem section_header_ignores_caller_order (s : Bytes)
    (hs : s.take 4 = [0x0A, 0x0D, 0x0D, 0x0A]) :
    RawBlock.fromSlice .big s = RawBlock.fromSlice .little s ∧
    Block.fromSlice .big s = Block.fromSlice .little s ∧
    (∀ B rem r, RawBlock.fromSlice B s = .ok (rem, r) →
      ∃ e rest, s = (RawBlock.writeTo e r).bytes ++ rem ∧
        r.body.bytes = writeU32 e 0x1A2B3C4D ++ rest) ∧
    (∀ B rem b, Block.fromSlice B s = .ok (rem, b) →
      ∃ h len₁ len₂ optBytes rem', b = .sectionHeader h ∧
        s = writeU32 h.endianness sectionHeaderBlock ++ writeU32 h.endianness len₁ ++
          (writeU32 h.endianness 0x1A2B3C4D ++ writeU16 h.endianness h.majorVersion ++
            writeU16 h.endianness h.minorVersion ++ writeU64 h.endianness h.sectionLength ++
            optBytes) ++
          writeU32 h.endianness len₂ ++ rem ∧
        optsFromSlice h.endianness optBytes = .ok (rem', h.options)) :=
  ⟨(RawBlock.fromSlice_of_sectionHeader_code hs .little).symm,
    Block.fromSlice_of_sectionHeader_code hs,
    fun _ _ _ h => (RawBlock.frame_of_sectionHeader_code hs h).2,
    fun _ _ _ h => Block.fields_of_sectionHeader_code hs h⟩

/-- The little endian section header frame, read big and little endian: both
    decoders accept it, with the little endian section header it encodes. -/
theorem little_section_frame_order :
    RawBlock.fromSlice .little littleSectionFrame =
      .ok ([], ⟨sectionHeaderBlock, 28, .borrowed ((littleSectionFrame.drop 8).take 16), 28⟩) ∧
    Block.fromSlice .little littleSectionFrame =
      .ok ([], .sectionHeader ⟨.little, 1, 0, 0xFFFFFFFFFFFFFFFF, []⟩) ∧
    littleSectionFrame.take 4 = [0x0A, 0x0D, 0x0D, 0x0A] ∧
    RawBlock.fromSlice .big littleSectionFrame = RawBlock.fromSlice .little littleSectionFrame ∧
    Block.fromSlice .big littleSectionFrame = Block.fromSlice .little littleSectionFrame ∧
    (∀ B rem r, RawBlock.fromSlice B littleSectionFrame = .ok (rem, r) →
      ∃ e rest, littleSectionFrame = (RawBlock.writeTo e r).bytes ++ rem ∧
        r.body.bytes = writeU32 e 0x1A2B3C4D ++ rest) ∧
    (∀ B rem b, Block.fromSlice B littleSectionFrame = .ok (rem, b) →
      ∃ h len₁ len₂ optBytes rem', b = .sectionHeader h ∧
        littleSectionFrame = writeU32 h.endianness sectionHeaderBlock ++
          writeU32 h.endianness len₁ ++
          (writeU32 h.endianness 0x1A2B3C4D ++ writeU16 h.endianness h.majorVersion ++
            writeU16 h.endianness h.minorVersion ++ writeU64 h.endianness h.sectionLength ++
            optBytes) ++
          writeU32 h.endianness len₂ ++ rem ∧
        optsFromSlice h.endianness optBytes = .ok (rem', h.options)) :=
  ⟨rfl, rfl, rfl, section_header_ignores_caller_order littleSectionFrame rfl⟩

end PcapFile.PcapNg
