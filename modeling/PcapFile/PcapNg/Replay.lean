import PcapFile.PcapNg.Writer

/-! # Replaying raw frames (`write_raw_block` after `next_raw_block`)

    A frame `RawBlock::from_slice` reads is exactly the bytes
    `RawBlock::write_to` writes for it, in the byte order it was read in
    (`RawBlock.fromSlice_eq_ok_writeTo`).  For every block but a section
    header that is the byte order of the current section; a section header
    is read in the byte order its own magic names.

    `write_raw_block` writes in the byte order of the writer's section
    before the call.  So a writer in the parser's byte order replays every
    frame the parser returns byte for byte, except a section header that
    switches the byte order: its two length fields come out in the old
    order (`writeRawBlock_of_nextRawBlock`, `raw_replay_switch_byte_order`).
-/

namespace PcapFile.PcapNg

/-! ## Section 1: Frames are what `write_to` writes -/

/-- A section header frame written little endian: type, length 28, the
    magic, version 1.0, an unspecified section length, and the trailer. -/
def littleSectionFrame : Bytes :=
  [0x0A, 0x0D, 0x0D, 0x0A, 0x1C, 0x00, 0x00, 0x00,
   0x4D, 0x3C, 0x2B, 0x1A, 0x01, 0x00, 0x00, 0x00,
   0xFF, 0xFF, 0xFF, 0xFF, 0xFF, 0xFF, 0xFF, 0xFF,
   0x1C, 0x00, 0x00, 0x00]

namespace RawBlock

/-- The magic names the byte order it is written in. -/
theorem body_starts_with_magic {B : Endianness} {m len : UInt32} {body rest rem : Bytes}
    (hs : writeU32 B m ++ rest = body ++ (writeU32 B len ++ rem))
    (hb : body.length + 12 = len.toNat) (h4 : len.toNat % 4 = 0) (hm : m.toNat ≠ 12) :
    ∃ rest', body = writeU32 B m ++ rest' := by
  have hlen : 4 ≤ body.length := by
    rcases Nat.lt_or_ge body.length 4 with hlt | hge
    · obtain rfl : body = [] := List.eq_nil_of_length_eq_zero (by omega)
      have : m = len := (by simpa using congrArg (readU32 B) hs : m = len ∧ rest = rem).1
      subst this
      omega
    · exact hge
  refine ⟨body.drop 4, ?_⟩
  have htake := congrArg (List.take 4) hs
  rw [List.take_left' (by simp), List.take_append_of_le_length hlen] at htake
  rw [htake, List.take_append_drop]

/-- **A frame is what `RawBlock::write_to` writes.**  Every frame
    `from_slice` reads is the bytes `write_to` writes for it, in the byte
    order it was read in: `B` for every block but a section header, and
    for a section header the byte order its magic names, the magic being
    the first four bytes of its body. -/
theorem fromSlice_eq_ok_writeTo {B : Endianness} {src rem : Bytes} {r : RawBlock}
    (h : fromSlice B src = .ok (rem, r)) :
    ∃ B', src = (writeTo B' r).bytes ++ rem ∧ (r.type_ ≠ sectionHeaderBlock → B' = B) ∧
      (r.type_ = sectionHeaderBlock → ∃ rest, r.body.bytes = writeU32 B' 0x1A2B3C4D ++ rest) := by
  by_cases hs : src.length < 12
  · rw [fromSlice_short hs] at h; cases h
  rcases fromSlice_cases B (s := src) (by omega) with ⟨t, len, rest, ht, hr, rfl⟩ |
    ⟨len, magic, rest, rfl⟩
  · rw [fromSlice_of_ne B ht len rest hr] at h
    obtain ⟨body, rfl, -, -, rfl⟩ := innerParse_eq_ok h
    exact ⟨B, by simp [writeTo, Cow.bytes], fun _ => rfl, fun h => absurd h ht⟩
  · rw [fromSlice_sectionHeader] at h
    split at h
    · obtain ⟨body, rfl, hb, h4, hs⟩ := innerParse_eq_ok h
      refine ⟨.big, ?_, fun h => absurd rfl h, fun _ => ?_⟩
      · rw [hs]; simp [writeTo, Cow.bytes, writeU32_sectionHeaderBlock]
      · exact body_starts_with_magic hs hb h4 (by decide)
    · obtain ⟨body, rfl, hb, h4, hs⟩ := innerParse_eq_ok h
      have hlen : writeU32 .little (swapBytes32 len) = writeU32 .big len := by
        rw [← writeU32_big_swapBytes32, swapBytes32_swapBytes32]
      rw [← SectionHeaderBlock.writeU32_little_magic] at hs
      refine ⟨.little, ?_, fun h => absurd rfl h, fun _ => ?_⟩
      · rw [← SectionHeaderBlock.writeU32_little_magic, hs]
        simp [writeTo, Cow.bytes, writeU32_sectionHeaderBlock, hlen]
      · exact body_starts_with_magic hs hb h4 (by decide)
    · cases h

end RawBlock

/-! ## Section 2: Replaying with the writer -/

/-- A section header frame decodes by its body alone. -/
theorem Block.tryFromRawBlock_sectionHeader (B : Endianness) (len trailer : UInt32) (body : Bytes) :
    Block.tryFromRawBlock B ⟨sectionHeaderBlock, len, .borrowed body, trailer⟩ =
      (Block.sectionHeader ·.2) <$> SectionHeaderBlock.fromSlice .big body := rfl

/-- A section header decoded from a body that starts with the magic written
    in `e` has byte order `e`. -/
theorem SectionHeaderBlock.endianness_of_fromSlice {B e : Endianness} {rest rem : Bytes}
    {b : SectionHeaderBlock} (h : fromSlice B (writeU32 e 0x1A2B3C4D ++ rest) = .ok (rem, b)) :
    b.endianness = e := by
  obtain ⟨magic, hread, hmagic⟩ := readU32_magic e rest
  unfold fromSlice at h
  split at h
  · cases h
  rw [hread, unwrap_some, Outcome.ok_bind] at h
  simp only [hmagic, Outcome.ok_bind] at h
  obtain ⟨_, -, h⟩ := Outcome.bind_eq_ok.mp h
  cases h
  rfl

/-- A successful `next_raw_block` read a frame in the section's byte order
    and absorbed it. -/
theorem PcapNgParser.nextRawBlock_eq_ok {p p' : PcapNgParser} {src rem : Bytes} {r : RawBlock}
    (h : p.nextRawBlock src = (.ok (rem, r), p')) :
    RawBlock.fromSlice p.section_.endianness src = .ok (rem, r) ∧
      PcapNgParser.absorb p.section_.endianness p r = .ok p' := by
  unfold PcapNgParser.nextRawBlock at h
  rw [PcapNgParser.nextRawBlockInner_eq] at h
  split at h
  next rem' raw hf =>
    cases ha : PcapNgParser.absorb p.section_.endianness p raw <;>
      simp [ha, Outcome.withState] at h
    obtain ⟨⟨rfl, rfl⟩, rfl⟩ := h
    exact ⟨hf, ha⟩
  · cases h
  · cases h

/-- The section `write_raw_block` moves to on a frame the parser absorbed in
    the same byte order: the parser's new section, and for a section header
    the byte order its magic names. -/
theorem rawSection_of_absorb {B B' : Endianness} {p p' : PcapNgParser} {r : RawBlock}
    (s : SectionHeaderBlock) (ha : PcapNgParser.absorb B p r = .ok p') (hr : r.Framed)
    (hs : s.endianness = p.section_.endianness)
    (hmagic : r.type_ = sectionHeaderBlock →
      ∃ rest, r.body.bytes = writeU32 B' 0x1A2B3C4D ++ rest) :
    ∃ s', PcapNgWriter.rawSection B s r = .ok s' ∧
      s'.endianness = p'.section_.endianness ∧
      (r.type_ = sectionHeaderBlock → s'.endianness = B') := by
  rw [PcapNgParser.absorb_eq] at ha
  by_cases ht : r.type_ = sectionHeaderBlock
  · rw [if_pos (.inl ht)] at ha
    obtain ⟨b, hb, rfl⟩ := Outcome.map_eq_ok.mp ha
    obtain ⟨body, hbody, -, -⟩ := hr
    obtain ⟨rest, hrest⟩ := hmagic ht
    obtain ⟨t, len, cow, trailer⟩ := r
    obtain rfl : t = sectionHeaderBlock := ht
    obtain rfl : cow = .borrowed body := hbody
    change body = _ at hrest
    rw [Block.tryFromRawBlock_sectionHeader] at hb
    obtain ⟨⟨rem, s'⟩, hd, rfl⟩ := Outcome.map_eq_ok.mp hb
    refine ⟨s', ?_, rfl, fun _ => ?_⟩
    · simp [PcapNgWriter.rawSection, Block.tryFromRawBlock_sectionHeader, hd,
        Block.intoSectionHeader]
    · rw [hrest] at hd
      exact SectionHeaderBlock.endianness_of_fromSlice hd
  · refine ⟨s, if_neg ht, ?_, fun h => absurd h ht⟩
    rw [hs]
    split at ha
    · obtain ⟨b, hb, rfl⟩ := Outcome.map_eq_ok.mp ha
      have hns := mt (Block.type_of_tryFromRawBlock hb).1 ht
      cases b <;> first | rfl | exact absurd ⟨_, rfl⟩ hns
    · cases ha; rfl

/-- **Raw replay.**  For a writer in the parser's byte order whose sink
    accepts every write, `write_raw_block` on a frame `next_raw_block` just
    returned succeeds, moves to the byte order the parser moved to, and
    appends the frame as `write_to` writes it in the old byte order; those
    are the bytes the parser consumed whenever the byte order did not
    change, which is every frame but a section header in the other byte
    order. -/
theorem writeRawBlock_of_nextRawBlock {p p' : PcapNgParser} {w : PcapNgWriter}
    {src rem : Bytes} {r : RawBlock}
    (h : p.nextRawBlock src = (.ok (rem, r), p'))
    (hB : w.section_.endianness = p.section_.endianness) (hw : w.writer.room = none) :
    ∃ w', w.writeRawBlock r = (.ok (r.body.bytes.length + 6), w') ∧
      w'.section_.endianness = p'.section_.endianness ∧
      w'.writer.contents = w.writer.contents ++ (RawBlock.writeTo p.section_.endianness r).bytes ∧
      (p'.section_.endianness = p.section_.endianness →
        src = (RawBlock.writeTo p.section_.endianness r).bytes ++ rem) := by
  obtain ⟨hf, ha⟩ := PcapNgParser.nextRawBlock_eq_ok h
  obtain ⟨B', hsrc, hne, hmagic⟩ := RawBlock.fromSlice_eq_ok_writeTo hf
  obtain ⟨s', hs', hse, hsB'⟩ :=
    rawSection_of_absorb w.section_ ha (RawBlock.framed_of_fromSlice hf) hB hmagic
  have hwr : w.writeRawBlock r =
      { w with section_ := s' }.emit (RawBlock.writeTo p.section_.endianness r) := by
    simp only [PcapNgWriter.writeRawBlock, hB, hs']
  refine ⟨_, hwr.trans (PcapNgWriter.emit_of_unbounded (w := { w with section_ := s' }) hw _),
    hse, rfl, fun hsame => ?_⟩
  by_cases ht : r.type_ = sectionHeaderBlock
  · rw [hsrc, ← hsB' ht, hse, hsame]
  · rw [hsrc, hne ht]

/-- An interface description frame, read by a big endian parser and
    replayed by a big endian writer: the writer appends the frame itself. -/
theorem raw_replay_interface_description :
    ∃ r p', PcapNgParser.nextRawBlock ⟨.default, []⟩
        (Block.writeTo .big (.interfaceDescription ⟨.ethernet, 0xFFFF, []⟩)).bytes = (.ok ([], r), p') ∧
      ∃ w', (⟨.default, [], ⟨[], none⟩⟩ : PcapNgWriter).writeRawBlock r =
          (.ok (r.body.bytes.length + 6), w') ∧
        w'.section_.endianness = p'.section_.endianness ∧
        w'.writer.contents = [] ++ (RawBlock.writeTo .big r).bytes ∧
        (p'.section_.endianness = .big →
          (Block.writeTo .big (.interfaceDescription ⟨.ethernet, 0xFFFF, []⟩)).bytes =
            (RawBlock.writeTo .big r).bytes ++ []) := by
  obtain ⟨r, p', h⟩ : ∃ r p', PcapNgParser.nextRawBlock ⟨.default, []⟩
      (Block.writeTo .big (.interfaceDescription ⟨.ethernet, 0xFFFF, []⟩)).bytes = (.ok ([], r), p') :=
    ⟨_, _, rfl⟩
  exact ⟨r, p', h, writeRawBlock_of_nextRawBlock h rfl rfl⟩

/-- A big endian parser and a big endian writer, both as constructed from the
    default section header, and the little endian frame above: the parser
    returns it whole, the writer accepts it and moves to little endian, and
    the bytes it appends differ from the frame (its length fields come out
    big endian). -/
theorem raw_replay_switch_byte_order :
    ∃ p p' w w' r,
      PcapNgParser.new (Block.writeTo .big (.sectionHeader .default)).bytes = .ok ([], p) ∧
      PcapNgWriter.withSectionHeader ⟨[], none⟩ .default = .ok w ∧
      w.section_.endianness = p.section_.endianness ∧
      p.nextRawBlock littleSectionFrame = (.ok ([], r), p') ∧
      w.writeRawBlock r = (.ok 22, w') ∧
      w'.section_.endianness = p'.section_.endianness ∧
      w'.writer.contents ≠ w.writer.contents ++ littleSectionFrame :=
  ⟨_, _, _, _, _, rfl, rfl, rfl, rfl, rfl, rfl, by decide⟩

end PcapFile.PcapNg
