import PcapFile.PcapNg.Reader
import PcapFile.PcapNg.Framing
import PcapFile.PcapNg.SectionOrder

/-! # Writing a stream and reading it back

    `PcapNgWriter::write_block` writes every block by `Block::write_to` in
    the byte order of the section the block belongs to, and `PcapNgParser`
    reads every frame in the byte order of the section it is in; the two
    keep the same state (`writeBlock_eq_ok`).  So what the writer writes the
    parser reads back, block for block, for every block the codecs carry:

    * its body is aligned, so `inner_write_to` adds no padding that the
      body decoder would keep (a Simple Packet Block, a journal entry or an
      unknown block whose data is not aligned reads back padded);
    * its frame is shorter than `2^32` bytes, the most the `u32` length
      field holds (`Block.Fits`);
    * its fields and options are those each kind's decoder reads back
      (`Block.WellFormed`).

    Such a block is read back by `Block::from_slice` in its section's byte
    order (`block_read_back`) and by `next_block` in every parser state
    (`PcapNgParser.nextBlock_writeTo`).  A run follows by induction over
    the blocks written (`runWhole_framesFrom`), and through the buffer
    refinement of `PcapFile.ReadBuffer` so does the reader: whatever a
    writer made by `with_section_header` writes, a `PcapNgReader` reads back
    over any cutting of the stream into reads, then returns `None`, and
    ends in the writer's own state (`writer_stream_read_back`).

    The writer refuses a packet block naming an interface it has not
    described in the packet's section, and the reader keeps the interfaces
    of that section as the writer did; so `packet_interface` finds the
    interface of every packet the reader reads from a writer's stream
    (`reader_resolves_written_packets`).
-/

namespace PcapFile.PcapNg

/-! ## Section 1: Aligned bodies -/

theorem Written.concat_aligned {ws : List Written} (h : ∀ w ∈ ws, w.bytes.length % 4 = 0) :
    (Written.concat ws).bytes.length % 4 = 0 := by
  induction ws with
  | nil => rfl
  | cons w ws ih =>
    have hw := h w (List.mem_cons_self w ws)
    have hws := ih fun v hv => h v (List.mem_cons_of_mem w hv)
    simp only [Written.concat_cons, List.length_append]
    omega

theorem tlv_aligned (B : Endianness) (code : UInt16) (value : Bytes) :
    (tlv B code value).length % 4 = 0 := by
  have := padLen_add_mod value.length
  simp only [tlv_eq, List.length_append, writeU16_length, zeros_length]
  omega

/-- Options that are written as TLVs are written aligned, end marker
    included. -/
theorem writeOptsTo_aligned {α : Type} [PcapNgOption α] {B : Endianness} {opts : List α}
    (h : ∀ o ∈ opts, TlvRoundTrip B o) : (writeOptsTo B opts).bytes.length % 4 = 0 := by
  have hc : (Written.concat (opts.map (PcapNgOption.writeTo B))).bytes.length % 4 = 0 :=
    Written.concat_aligned fun w hw => by
      obtain ⟨o, ho, rfl⟩ := List.mem_map.mp hw
      obtain ⟨t, -, ht⟩ := h o ho
      rw [ht]
      exact tlv_aligned B t.1 t.2
  unfold writeOptsTo
  split
  · exact hc
  · simp only [List.length_append, writeU16_length]
    omega

theorem Record.WellFormed.addressSized {r : Record} (h : r.WellFormed) : r.AddressSized := by
  cases r with
  | end_ => exact h.elim
  | ipv4 a => exact h.1.1
  | ipv6 a => exact h.1.1
  | unknown a => trivial

/-- A record whose address has the size its writer assumes is written
    aligned. -/
theorem Record.writeTo_aligned (B : Endianness) {r : Record} (h : r.AddressSized) :
    (Record.writeTo B r).bytes.length % 4 = 0 := by
  rw [← Record.writeTo_exact B h]
  cases r with
  | end_ => simp [Record.writeTo]
  | ipv4 a =>
    have := padLen_add_mod (Ipv4Record.writeTo a).count
    simp only [Record.writeTo, addrRecordWriteTo]
    omega
  | ipv6 a =>
    have := padLen_add_mod (Ipv6Record.writeTo a).count
    simp only [Record.writeTo, addrRecordWriteTo]
    omega
  | unknown a =>
    have := padLen_add_mod a.value.length
    simp only [Record.writeTo]
    omega

/-! ## Section 2: The blocks that read back -/

namespace Block

/-- The blocks each kind's decoder reads back from the body its writer
    writes, with that body aligned: options and records that read back,
    an interface's link type canonical, with a code within the `u16` it
    is written as, the data
    of a Simple Packet Block and the entry of a journal block aligned, and
    an unknown block of a type the decoder does not know, whose length
    field is the length of its frame and whose value is aligned. -/
def WellFormed : Block → Prop
  | sectionHeader b => ∀ o ∈ b.options, o.WellFormed
  | interfaceDescription b =>
    b.linktype.toCode.toNat < 2 ^ 16 ∧ b.linktype.Canonical ∧ ∀ o ∈ b.options, o.WellFormed
  | packet b => b.WellFormed
  | simplePacket b => b.data.length % 4 = 0
  | nameResolution b => b.WellFormed
  | interfaceStatistics b => ∀ o ∈ b.options, o.WellFormed
  | enhancedPacket b => b.WellFormed
  | systemdJournalExport b => b.journalEntry.length % 4 = 0
  | unknown b =>
    b.type_ ∉ [sectionHeaderBlock, interfaceDescriptionBlock, packetBlock, simplePacketBlock,
      nameResolutionBlock, interfaceStatisticBlock, enhancedPacketBlock,
      systemdJournalExportBlock] ∧
    b.length.toNat = b.value.length + 12 ∧ b.value.length % 4 = 0

/-- A block whose frame, in either byte order, is shorter than `2^32` bytes:
    its length fits the `u32` length field. -/
def Fits (b : Block) : Prop :=
  (writeTo .big b).bytes.length < 2 ^ 32 ∧ (writeTo .little b).bytes.length < 2 ^ 32

instance (b : Block) : Decidable b.Fits := inferInstanceAs (Decidable (_ ∧ _))

theorem Fits.lt {b : Block} (h : b.Fits) : ∀ B, (writeTo B b).bytes.length < 2 ^ 32
  | .big => h.1
  | .little => h.2

theorem WellFormed.addressesSized {b : Block} (h : b.WellFormed) : b.AddressesSized := by
  cases b with
  | nameResolution a => exact fun r hr => (h.1 r hr).addressSized
  | _ => trivial

/-- The body of a well-formed block is aligned: every fixed part of it is,
    and so are its data with their padding, its records and its options. -/
theorem bodyWriteTo_aligned (B : Endianness) {b : Block} (h : b.WellFormed) :
    (b.bodyWriteTo B).bytes.length % 4 = 0 := by
  cases b with
  | sectionHeader a =>
    have := writeOptsTo_aligned fun o ho => SectionHeaderOption.tlvRoundTrip (B := B) (h o ho)
    simp only [bodyWriteTo, SectionHeaderBlock.writeTo, List.length_append, writeU32_length,
      writeU16_length, writeU64_length]
    omega
  | interfaceDescription a =>
    have := writeOptsTo_aligned fun o ho => InterfaceDescriptionOption.tlvRoundTrip (B := B) (h.2.2 o ho)
    simp only [bodyWriteTo, InterfaceDescriptionBlock.writeTo, List.length_append, writeU32_length,
      writeU16_length]
    omega
  | packet a =>
    have := writeOptsTo_aligned fun o ho => PacketOption.tlvRoundTrip (B := B) (h.2 o ho)
    have := padLen_add_mod a.data.length
    simp only [bodyWriteTo, PacketBlock.writeTo, List.length_append, writeU32_length,
      writeU16_length, zeros_length]
    omega
  | simplePacket a =>
    have := padLen_add_mod a.data.length
    simp only [bodyWriteTo, SimplePacketBlock.writeTo, List.length_append, writeU32_length,
      zeros_length]
    omega
  | nameResolution a =>
    refine Written.concat_aligned fun w hw => ?_
    simp only [List.mem_append, List.mem_map, List.mem_cons, List.mem_singleton,
      List.not_mem_nil, or_false] at hw
    rcases hw with ⟨r, hr, rfl⟩ | rfl | rfl
    · exact Record.writeTo_aligned B (h.1 r hr).addressSized
    · simp [Record.writeTo]
    · exact writeOptsTo_aligned fun o ho => NameResolutionOption.tlvRoundTrip (h.2 o ho)
  | interfaceStatistics a =>
    have := writeOptsTo_aligned fun o ho => InterfaceStatisticsOption.tlvRoundTrip (B := B) (h o ho)
    simp only [bodyWriteTo, InterfaceStatisticsBlock.writeTo, List.length_append, writeU32_length,
      writeU64_length]
    omega
  | enhancedPacket a =>
    have := writeOptsTo_aligned fun o ho => EnhancedPacketOption.tlvRoundTrip (B := B) (h.2.2 o ho)
    have := padLen_add_mod a.data.length
    simp only [bodyWriteTo, EnhancedPacketBlock.writeTo, List.length_append, writeU32_length,
      zeros_length]
    omega
  | systemdJournalExport a =>
    have := padLen_add_mod a.journalEntry.length
    simp only [bodyWriteTo, SystemdJournalExportBlock.writeTo, List.length_append, zeros_length]
    omega
  | unknown a => exact h.2.2

/-- Only a section header's body starts with the magic, in the byte order
    the header is written in. -/
theorem bodyWriteTo_magic {B : Endianness} {b : Block} (hwf : b.WellFormed)
    (hB : ∀ s, b = sectionHeader s → B = s.endianness) (hs : b.typeCode = sectionHeaderBlock) :
    ∃ rest, (b.bodyWriteTo B).bytes = writeU32 B 0x1A2B3C4D ++ rest := by
  cases b with
  | sectionHeader a =>
    obtain rfl := hB a rfl
    simp only [bodyWriteTo, SectionHeaderBlock.writeTo, List.append_assoc]
    exact ⟨_, rfl⟩
  | unknown a => exact absurd (hs ▸ List.mem_cons_self _ _) hwf.1
  | _ => exact absurd hs (by simp only [typeCode]; decide)

end Block

/-! ## Section 3: Frames -/

/-- Around an aligned body that counts what it writes, `inner_write_to`
    adds no padding: it writes the frame `RawBlock::write_to` writes with
    that body and the frame's length in both length fields. -/
theorem innerWriteTo_eq_rawWriteTo (B : Endianness) {body : Written} (hx : body.Exact)
    (h4 : body.bytes.length % 4 = 0) (code : UInt32) :
    (Block.innerWriteTo B body code).bytes =
      (RawBlock.writeTo B ⟨code, UInt32.ofNat (body.bytes.length + 12), .borrowed body.bytes,
        UInt32.ofNat (body.bytes.length + 12)⟩).bytes := by
  have hx : body.count = body.bytes.length := hx
  have hpad : padLen body.bytes.length = 0 := by unfold padLen; omega
  simp [Block.innerWriteTo, RawBlock.writeTo, hx, hpad, zeros]

/-- **Frame round trip.**  A frame whose length fields hold its length, a
    multiple of four, and whose body, for a section header, starts with the
    magic in the byte order it is written in, is read back from what
    `RawBlock::write_to` writes. -/
theorem RawBlock.fromSlice_writeTo_of_len (B : Endianness) {t len : UInt32} {body : Bytes}
    (hb : body.length + 12 = len.toNat) (h4 : len % 4 = 0)
    (hmagic : t = sectionHeaderBlock → ∃ rest, body = writeU32 B 0x1A2B3C4D ++ rest)
    (rest : Bytes) :
    RawBlock.fromSlice B ((RawBlock.writeTo B ⟨t, len, .borrowed body, len⟩).bytes ++ rest) =
      .ok (rest, ⟨t, len, .borrowed body, len⟩) := by
  have h12 : ¬len < 12 := by rw [lt_iff_toNat_u32]; show ¬len.toNat < 12; omega
  simp only [RawBlock.writeTo, Cow.bytes_borrowed, List.append_assoc]
  by_cases ht : t = sectionHeaderBlock
  · subst ht
    obtain ⟨body', rfl⟩ := hmagic rfl
    simp only [List.length_append, writeU32_length] at hb
    cases B with
    | big =>
      rw [List.append_assoc, RawBlock.fromSlice_sectionHeader]
      show RawBlock.innerParse .big _ sectionHeaderBlock len = _
      rw [← List.append_assoc, RawBlock.innerParse_frame .big _ len len _ rest h4 h12
        (by simp only [List.length_append, writeU32_length]; omega), if_neg (not_not.mpr rfl)]
    | little =>
      nth_rewrite 1 [← writeU32_big_swapBytes32 len]
      rw [SectionHeaderBlock.writeU32_little_magic, List.append_assoc, RawBlock.fromSlice_sectionHeader]
      show RawBlock.innerParse .little _ sectionHeaderBlock (swapBytes32 (swapBytes32 len)) = _
      rw [swapBytes32_swapBytes32, ← List.append_assoc, RawBlock.innerParse_frame .little _ len len _
        rest h4 h12 (by simp only [List.length_append, writeU32_length]; omega),
        if_neg (not_not.mpr rfl)]
  · rw [RawBlock.fromSlice_of_ne B ht len _ (by simp; omega),
      RawBlock.innerParse_frame B t len len body rest h4 h12 hb, if_neg (not_not.mpr rfl)]

/-! ## Section 4: Blocks -/

namespace Block

/-- A frame of a type the decoder does not know decodes as an unknown block
    with the frame's length field.  The type code is matched as a chain of
    comparisons of its bits, each of which fails. -/
theorem tryFromRawBlock_unknown (B : Endianness) {t : UInt32} (len trailer : UInt32) (body : Bytes)
    (ht : t ∉ [sectionHeaderBlock, interfaceDescriptionBlock, packetBlock, simplePacketBlock,
      nameResolutionBlock, interfaceStatisticBlock, enhancedPacketBlock, systemdJournalExportBlock]) :
    tryFromRawBlock B ⟨t, len, .borrowed body, trailer⟩ = .ok (unknown ⟨t, len, body⟩) := by
  obtain ⟨bv⟩ := t
  have hne : ∀ {x}, (⟨bv⟩ : UInt32) ≠ ⟨x⟩ → bv ≠ x := fun h e => h (congrArg UInt32.mk e)
  simp only [List.mem_cons, List.not_mem_nil, or_false, not_or] at ht
  obtain ⟨h1, h2, h3, h4, h5, h6, h7, h8⟩ := ht
  delta tryFromRawBlock tryFromRawBlock.match_1
  dsimp only
  rw [dif_neg (hne h1), dif_neg (hne h2), dif_neg (hne h3), dif_neg (hne h4), dif_neg (hne h5),
    dif_neg (hne h6), dif_neg (hne h7), dif_neg (hne h8)]
  rfl

/-- The frame of a well-formed block's body decodes as the block, a section
    header's in whatever byte order, given for an unknown block the length
    field it was written with. -/
theorem tryFromRawBlock_bodyWriteTo {B : Endianness} {b : Block} (hwf : b.WellFormed)
    (hB : ∀ s, b = sectionHeader s → B = s.endianness) {len : UInt32}
    (hlen : ∀ u, b = unknown u → len = u.length) (trailer : UInt32) :
    tryFromRawBlock B ⟨b.typeCode, len, .borrowed (b.bodyWriteTo B).bytes, trailer⟩ = .ok b := by
  cases b with
  | sectionHeader a =>
    obtain rfl := hB a rfl
    rw [typeCode, tryFromRawBlock_sectionHeader, bodyWriteTo,
      SectionHeaderBlock.fromSlice_writeTo .big a hwf]
    rfl
  | interfaceDescription a =>
    show (interfaceDescription ·.2) <$> InterfaceDescriptionBlock.fromSlice B _ = _
    rw [bodyWriteTo, InterfaceDescriptionBlock.fromSlice_writeTo B a hwf.1 hwf.2.1 hwf.2.2]
    rfl
  | packet a =>
    show (packet ·.2) <$> PacketBlock.fromSlice B _ = _
    rw [bodyWriteTo, PacketBlock.fromSlice_writeTo B a hwf]
    rfl
  | simplePacket a =>
    show (simplePacket ·.2) <$> SimplePacketBlock.fromSlice B _ = _
    rw [bodyWriteTo, SimplePacketBlock.fromSlice_writeTo_of_aligned B a hwf]
    rfl
  | nameResolution a =>
    show (nameResolution ·.2) <$> NameResolutionBlock.fromSlice B _ = _
    rw [bodyWriteTo, NameResolutionBlock.fromSlice_writeTo B hwf]
    rfl
  | interfaceStatistics a =>
    show (interfaceStatistics ·.2) <$> InterfaceStatisticsBlock.fromSlice B _ = _
    rw [bodyWriteTo, InterfaceStatisticsBlock.fromSlice_writeTo B a hwf]
    rfl
  | enhancedPacket a =>
    show (enhancedPacket ·.2) <$> EnhancedPacketBlock.fromSlice B _ = _
    rw [bodyWriteTo, EnhancedPacketBlock.fromSlice_writeTo B a hwf]
    rfl
  | systemdJournalExport a =>
    have h4 : a.journalEntry.length % 4 = 0 := hwf
    have hpad : padLen a.journalEntry.length = 0 := by unfold padLen; omega
    show (systemdJournalExport ·.2) <$> SystemdJournalExportBlock.fromSlice B _ = _
    simp [bodyWriteTo, SystemdJournalExportBlock.writeTo, SystemdJournalExportBlock.fromSlice, hpad,
      zeros]
  | unknown a =>
    obtain rfl := hlen a rfl
    exact tryFromRawBlock_unknown B a.length trailer a.value hwf.1

/-- **A written block is a frame that decodes as the block.**  A well-formed
    block that fits, a section header written in its own byte order, is
    written as the frame of its own body, which the frame decoder and the
    block decoder read back in the byte order it was written in, and a
    section header in either. -/
theorem writeTo_frame {B : Endianness} {b : Block} (hwf : b.WellFormed)
    (hfit : (writeTo B b).bytes.length < 2 ^ 32) (hB : ∀ s, b = sectionHeader s → B = s.endianness)
    (B' : Endianness) (hB' : B' = B ∨ b.typeCode = sectionHeaderBlock) :
    ∃ raw : RawBlock, (∀ rest, RawBlock.fromSlice B' ((writeTo B b).bytes ++ rest) = .ok (rest, raw)) ∧
      tryFromRawBlock B' raw = .ok b := by
  suffices h : ∃ raw : RawBlock, raw.type_ = b.typeCode ∧
      (∀ rest, RawBlock.fromSlice B ((writeTo B b).bytes ++ rest) = .ok (rest, raw)) ∧
      tryFromRawBlock B raw = .ok b by
    obtain ⟨raw, ht, hr, hd⟩ := h
    rcases hB' with rfl | hs
    · exact ⟨raw, hr, hd⟩
    -- a section header's frame starts with a type code that reads the same in both orders
    have hcode : ∀ rest, ((writeTo B b).bytes ++ rest).take 4 = [0x0A, 0x0D, 0x0D, 0x0A] := by
      intro rest
      rw [writeTo_eq_body]
      simp [innerWriteTo, hs, writeU32_sectionHeaderBlock]
    refine ⟨raw, fun rest => ?_, ?_⟩
    · rw [RawBlock.fromSlice_of_sectionHeader_code (hcode rest),
        ← RawBlock.fromSlice_of_sectionHeader_code (hcode rest) B]
      exact hr rest
    · rw [tryFromRawBlock_sectionHeader_eq B' B (ht.trans hs)]
      exact hd
  have hw := innerWriteTo_eq_rawWriteTo B (bodyWriteTo_exact B hwf.addressesSized)
    (bodyWriteTo_aligned B hwf) b.typeCode
  rw [← writeTo_eq_body] at hw
  have hlen : (b.bodyWriteTo B).bytes.length + 12 < 2 ^ 32 := by
    simp only [hw, RawBlock.writeTo, List.length_append, writeU32_length, Cow.bytes_borrowed] at hfit
    omega
  have hlen' := toNat_ofNat_u32 hlen
  have h4 : UInt32.ofNat ((b.bodyWriteTo B).bytes.length + 12) % 4 = 0 := by
    apply UInt32.toNat.inj
    rw [UInt32.toNat_mod, hlen']
    show (_ + 12) % 4 = 0
    have := bodyWriteTo_aligned B hwf
    omega
  have hu : ∀ u, b = unknown u → UInt32.ofNat ((b.bodyWriteTo B).bytes.length + 12) = u.length := by
    rintro u rfl
    show UInt32.ofNat (u.value.length + 12) = u.length
    rw [← hwf.2.1, ofNat_toNat_u32]
  generalize UInt32.ofNat ((b.bodyWriteTo B).bytes.length + 12) = len at hw hlen' h4 hu
  refine ⟨⟨b.typeCode, len, .borrowed _, len⟩, rfl, fun rest => ?_, tryFromRawBlock_bodyWriteTo hwf hB hu _⟩
  rw [hw]
  exact RawBlock.fromSlice_writeTo_of_len B hlen'.symm h4 (fun hs => bodyWriteTo_magic hwf hB hs) rest

end Block

/-- **Block round trip.**  For every byte order, every well-formed block
    whose frame fits the `u32` length field, a section header written in
    its own byte order, is read back by `Block::from_slice` from what
    `Block::write_to` writes, whatever follows it. -/
theorem block_read_back (B : Endianness) {b : Block} (hwf : b.WellFormed) (hfit : b.Fits)
    (hB : ∀ s, b = .sectionHeader s → B = s.endianness) (rest : Bytes) :
    Block.fromSlice B ((Block.writeTo B b).bytes ++ rest) = .ok (rest, b) := by
  obtain ⟨raw, hr, hd⟩ := Block.writeTo_frame hwf (hfit.lt B) hB B (.inl rfl)
  rw [Block.fromSlice_eq, hr rest, Outcome.ok_bind, hd]
  rfl

/-- An enhanced packet of three bytes, which its writer pads, with a
    comment. -/
def threeBytePacket : Block :=
  .enhancedPacket ⟨0, .fromNanos 1, 3, [1, 2, 3], [.comment ⟨[0x61], rfl⟩]⟩

theorem block_read_back_three_bytes :
    threeBytePacket.WellFormed ∧ threeBytePacket.Fits ∧
      (∀ s, threeBytePacket = .sectionHeader s → Endianness.little = s.endianness) ∧
      Block.fromSlice .little ((Block.writeTo .little threeBytePacket).bytes ++ [9]) =
        .ok ([9], threeBytePacket) :=
  have hwf : threeBytePacket.WellFormed :=
    ⟨by decide, by decide, fun o ho => by
      simp only [List.mem_singleton] at ho; subst ho; exact (by decide : 1 < 2 ^ 16)⟩
  have hfit : threeBytePacket.Fits := by decide
  have hB : ∀ s, threeBytePacket = .sectionHeader s → Endianness.little = s.endianness :=
    fun _ h => nomatch h
  ⟨hwf, hfit, hB, block_read_back .little hwf hfit hB [9]⟩

/-! ## Section 5: The parser reads what the writer writes -/

namespace PcapNgParser

/-- `next_block` on a frame the frame and block decoders accept in the
    section's byte order returns the block and moves as the block says. -/
theorem nextBlock_of_decoded {p : PcapNgParser} {src rem : Bytes} {raw : RawBlock} {b : Block}
    (hr : RawBlock.fromSlice p.section_.endianness src = .ok (rem, raw))
    (hb : Block.tryFromRawBlock p.section_.endianness raw = .ok b) :
    p.nextBlock src = (.ok (rem, b), p.afterBlock b) := by
  have ha : absorb p.section_.endianness p raw = .ok (p.afterBlock b) := by
    rw [absorb_eq]
    split
    · rw [hb]; rfl
    · rw [afterBlock_of_type hb ‹_› p]
  unfold nextBlock
  dsimp only
  rw [nextRawBlockInner_eq, hr]
  simp only [ha, Outcome.map_ok, Outcome.withState_ok, Outcome.ok_bind, hb]
  rfl

/-- **One written block, read.**  In every parser state, `next_block` reads
    a well-formed block that fits, written as `write_block` writes it, in
    the byte order of the section it belongs to, back as itself, whatever
    follows it, and moves to the state the block says. -/
theorem nextBlock_writeTo (p : PcapNgParser) {b : Block} (hwf : b.WellFormed) (hfit : b.Fits)
    (rest : Bytes) :
    p.nextBlock ((Block.writeTo (p.afterBlock b).section_.endianness b).bytes ++ rest) =
      (.ok (rest, b), p.afterBlock b) := by
  have hB' : p.section_.endianness = (p.afterBlock b).section_.endianness ∨
      b.typeCode = sectionHeaderBlock := by
    cases b <;> first | exact .inr rfl | exact .inl rfl
  obtain ⟨raw, hr, hd⟩ := Block.writeTo_frame hwf (hfit.lt _) (by rintro s rfl; rfl) _ hB'
  exact nextBlock_of_decoded (hr rest) hd

end PcapNgParser

/-- The bytes `write_block` writes for `bs` from the state `p`: every block
    in the byte order of the section it belongs to. -/
def framesFrom (p : PcapNgParser) : List Block → Bytes
  | [] => []
  | b :: bs =>
    (Block.writeTo (p.afterBlock b).section_.endianness b).bytes ++ framesFrom (p.afterBlock b) bs

theorem Block.writeTo_ne_nil (B : Endianness) (b : Block) : (Block.writeTo B b).bytes ≠ [] := by
  simp [Block.writeTo_eq_body, Block.innerWriteTo]

/-- The run lemma of the parser: from every state, `n` calls of `next_block`
    on every run of well-formed blocks that fit, written from that state,
    read back the first `n` blocks (all of them, and then the stream is
    exhausted, when `n` is larger) and leave the state they say and the
    frames of the other blocks. -/
theorem runWhole_framesFrom (p : PcapNgParser) {bs : List Block}
    (h : ∀ b ∈ bs, b.WellFormed ∧ b.Fits) {e : PcapError} (n : Nat) :
    ReadBuffer.runWhole (ReadBuffer.atEnd e PcapNgParser.nextBlock) n p (framesFrom p bs) =
      ((bs.take n).map .ok, (bs.take n).foldl PcapNgParser.afterBlock p,
        framesFrom ((bs.take n).foldl PcapNgParser.afterBlock p) (bs.drop n)) := by
  induction bs generalizing p n with
  | nil => simpa [framesFrom] using ReadBuffer.runWhole_nil (ReadBuffer.atEnd e PcapNgParser.nextBlock) n p
  | cons b bs ih =>
    obtain ⟨hwf, hfit⟩ := h b (List.mem_cons_self b bs)
    cases n with
    | zero => rfl
    | succ n =>
      have hstep := ReadBuffer.nextWhole_of_ok (by simp [framesFrom, Block.writeTo_ne_nil])
        (ReadBuffer.atEnd_of_ok (e := e) (p.nextBlock_writeTo hwf hfit (framesFrom (p.afterBlock b) bs)))
      rw [framesFrom, ReadBuffer.runWhole_succ_of_some hstep,
        ih (p.afterBlock b) (fun b' hb' => h b' (List.mem_cons_of_mem b hb')) n]
      rfl

/-! ## Section 6: The writer's stream -/

namespace PcapNgWriter

theorem withSectionHeader_contents {sink : Sink} {s : SectionHeaderBlock} {w : PcapNgWriter}
    (h : withSectionHeader sink s = .ok w) :
    w.writer.contents = sink.contents ++ (Block.writeTo s.endianness (.sectionHeader s)).bytes := by
  dsimp only [withSectionHeader] at h
  split at h
  · cases h; exact Sink.emit_contents ‹_›
  · cases h

/-- The run lemma of the writer: a run of `write_block` calls that all
    return `Ok` appends the frames of its blocks, each in the byte order of
    its section, and ends in the state the blocks say. -/
theorem run_writeBlock {w w' : PcapNgWriter} {bs : List Block}
    (h : w.run (bs.map .writeBlock) = some w') :
    w'.writer.contents = w.writer.contents ++ framesFrom w.state bs ∧
      w'.state = bs.foldl PcapNgParser.afterBlock w.state := by
  induction bs generalizing w with
  | nil => cases h; exact ⟨(List.append_nil _).symm, rfl⟩
  | cons b bs ih =>
    simp only [List.map_cons, run, call] at h
    split at h
    · rename_i w'' hb
      obtain ⟨-, hs, hc⟩ := writeBlock_eq_ok hb
      obtain ⟨ih1, ih2⟩ := ih h
      rw [hs] at ih1 ih2
      exact ⟨by rw [ih1, hc, framesFrom, List.append_assoc], ih2⟩
    · cases h

/-- Every statistics or enhanced packet block that a run of `write_block`
    calls, all returning `Ok`, wrote names an interface of the state the
    blocks before it say. -/
theorem interfaceRef_lt_of_run {w w' : PcapNgWriter} {pre post : List Block} {b : Block}
    (h : w.run ((pre ++ b :: post).map .writeBlock) = some w') :
    ∀ id ∈ b.interfaceRef,
      id.toNat < (pre.foldl PcapNgParser.afterBlock w.state).interfaces.length := by
  rw [List.map_append, run_append] at h
  cases hpre : w.run (pre.map .writeBlock) with
  | none => simp [hpre] at h
  | some wp =>
    simp only [hpre, Option.some_bind, List.map_cons, run, call] at h
    split at h
    · rw [← (run_writeBlock hpre).2]
      exact (writeBlock_eq_ok ‹_›).1
    · cases h

end PcapNgWriter

/-- `PcapNgParser::new` reads a section header written in its own byte
    order, whatever follows it. -/
theorem PcapNgParser.new_writeTo {s : SectionHeaderBlock} (hwf : (Block.sectionHeader s).WellFormed)
    (hfit : (Block.sectionHeader s).Fits) (rest : Bytes) :
    PcapNgParser.new ((Block.writeTo s.endianness (.sectionHeader s)).bytes ++ rest) =
      .ok (rest, ⟨s, []⟩) := by
  obtain ⟨raw, hr, hd⟩ := Block.writeTo_frame hwf (hfit.lt _) (by rintro s' ⟨⟩; rfl) .big (.inr rfl)
  rw [PcapNgParser.new_eq, Block.fromSlice_eq, hr rest, Outcome.ok_bind, hd]
  rfl

/-! ## Section 7: What the writer writes the reader reads back -/

open ReadBuffer in
/-- The run lemma of the reader on a writer's stream: however a source cuts
    the bytes a run of `write_block` calls wrote into non-empty reads,
    `PcapNgReader::new` succeeds on them, and after `n` calls of
    `next_block` the reader has returned the first `n` blocks written and
    holds the state they say. -/
theorem PcapNgReader.new_of_written {sink : Sink} {s : SectionHeaderBlock} {bs : List Block}
    {w₀ w : PcapNgWriter} (hs : (Block.sectionHeader s).WellFormed ∧ (Block.sectionHeader s).Fits)
    (hbs : ∀ b ∈ bs, b.WellFormed ∧ b.Fits) (h₀ : PcapNgWriter.withSectionHeader sink s = .ok w₀)
    (hrun : w₀.run (bs.map .writeBlock) = some w) {cs : List Bytes} (hcs : ∀ c ∈ cs, c ≠ [])
    (hcontents : w.writer.contents = sink.contents ++ cs.flatten) :
    ∃ r, PcapNgReader.new (ofChunks cs) = .ok r ∧ ∀ n, (r.run n).1 = (bs.take n).map .ok ∧
      (r.run n).2.parser = (bs.take n).foldl PcapNgParser.afterBlock w₀.state := by
  have hw₀ := PcapNgWriter.withSectionHeader_contents h₀
  have hs₀ := PcapNgWriter.withSectionHeader_state h₀
  have hstream : cs.flatten =
      (Block.writeTo s.endianness (.sectionHeader s)).bytes ++ framesFrom ⟨s, []⟩ bs := by
    rw [(PcapNgWriter.run_writeBlock hrun).1, hw₀, hs₀, List.append_assoc] at hcontents
    exact (List.append_cancel_left hcontents).symm
  obtain ⟨r, hr, hp, hpend, hc⟩ := (PcapNgReader.new_refines hcs).1 _ _
    (hstream ▸ PcapNgParser.new_writeTo hs.1 hs.2 (framesFrom ⟨s, []⟩ bs))
  refine ⟨r, hr, fun n => ?_⟩
  have hrun' := runWithContext_refines PcapNgParser.streamable_nextBlock n hc
    (PcapNgReader.new_eq_ok hcs hr).2.2 r.parser
  rw [hpend, hp, runWhole_framesFrom _ hbs] at hrun'
  simp only [view, Prod.mk.injEq] at hrun'
  simp only [PcapNgReader.run, hp, hs₀, hrun'.1, hrun'.2.1, and_self]

open ReadBuffer in
/-- **Writer to reader round trip.**  Take a writer made by
    `with_section_header` and a run of `write_block` calls that all return
    `Ok`, every block written (the section header included) well formed and
    shorter than `2^32` bytes.  However a source cuts the bytes the writer
    wrote into non-empty reads, `PcapNgReader::new` succeeds on them, its
    `next_block` returns the blocks written, in order, and then `None`, and
    the reader ends in the writer's state: the same section header and
    interfaces. -/
theorem writer_stream_read_back {sink : Sink} {s : SectionHeaderBlock} {bs : List Block}
    {w₀ w : PcapNgWriter} (hs : (Block.sectionHeader s).WellFormed ∧ (Block.sectionHeader s).Fits)
    (hbs : ∀ b ∈ bs, b.WellFormed ∧ b.Fits) (h₀ : PcapNgWriter.withSectionHeader sink s = .ok w₀)
    (hrun : w₀.run (bs.map .writeBlock) = some w) (cs : List Bytes) (hcs : ∀ c ∈ cs, c ≠ [])
    (hcontents : w.writer.contents = sink.contents ++ cs.flatten) (k : Nat) :
    (fun r => ((r.run (bs.length + k)).1, (r.run (bs.length + k)).2.parser)) <$>
        PcapNgReader.new (ofChunks cs) = .ok (bs.map .ok, w.state) := by
  obtain ⟨r, hr, hruns⟩ := PcapNgReader.new_of_written hs hbs h₀ hrun hcs hcontents
  obtain ⟨h1, h2⟩ := hruns (bs.length + k)
  rw [List.take_of_length_le (by omega)] at h1 h2
  rw [hr, Outcome.map_ok, h1, h2, (PcapNgWriter.run_writeBlock hrun).2]

/-- A section with one interface description and one empty packet on it. -/
def onePacketBlocks : List Block :=
  [.interfaceDescription ⟨.ethernet, 0xFFFF, []⟩, .enhancedPacket ⟨0, .fromNanos 0, 0, [], []⟩]

/-- The default section header and the blocks of `onePacketBlocks` are well
    formed and fit. -/
theorem onePacketBlocks_wellFormed :
    ((Block.sectionHeader .default).WellFormed ∧ (Block.sectionHeader .default).Fits) ∧
      ∀ b ∈ onePacketBlocks, b.WellFormed ∧ b.Fits := by
  refine ⟨⟨(fun _ h => nomatch h), by decide⟩, ?_⟩
  simp only [onePacketBlocks, List.mem_cons, List.mem_singleton, List.not_mem_nil, or_false]
  rintro b (rfl | rfl)
  exacts [⟨⟨by decide, trivial, (fun _ h => nomatch h)⟩, by decide⟩,
    ⟨⟨by decide, by decide, (fun _ h => nomatch h)⟩, by decide⟩]

theorem writer_stream_read_back_one_packet :
    ∃ w₀ w, PcapNgWriter.withSectionHeader ⟨[], none⟩ .default = .ok w₀ ∧
      w₀.run (onePacketBlocks.map .writeBlock) = some w ∧
      (fun r => ((r.run (onePacketBlocks.length + 1)).1, (r.run (onePacketBlocks.length + 1)).2.parser)) <$>
          PcapNgReader.new (ReadBuffer.ofChunks [w.writer.contents.take 30, w.writer.contents.drop 30]) =
        .ok (onePacketBlocks.map .ok, w.state) :=
  ⟨_, _, rfl, rfl, @writer_stream_read_back ⟨[], none⟩ .default onePacketBlocks _ _
    onePacketBlocks_wellFormed.1 onePacketBlocks_wellFormed.2 rfl rfl _ (by decide) (by simp) 1⟩

/-! ## Section 8: Every packet read from a writer's stream has its interface -/

open ReadBuffer in
/-- **No dangling interface reference on the way back.**  Take a writer and
    a run of `write_block` calls as in `writer_stream_read_back`, and a
    reader made over the bytes written, cut into non-empty reads.  Whenever
    the reader's `next_block` returns an enhanced packet block,
    `PcapNgReader::packet_interface` on it, right after that call, returns
    an interface description: the interface id check `write_block` makes is
    what the reader needs to resolve every packet it reads. -/
theorem reader_resolves_written_packets {sink : Sink} {s : SectionHeaderBlock}
    {bs : List Block} {w₀ w : PcapNgWriter}
    (hs : (Block.sectionHeader s).WellFormed ∧ (Block.sectionHeader s).Fits)
    (hbs : ∀ b ∈ bs, b.WellFormed ∧ b.Fits) (h₀ : PcapNgWriter.withSectionHeader sink s = .ok w₀)
    (hrun : w₀.run (bs.map .writeBlock) = some w) {cs : List Bytes} (hcs : ∀ c ∈ cs, c ≠ [])
    (hcontents : w.writer.contents = sink.contents ++ cs.flatten) {r : PcapNgReader}
    (hr : PcapNgReader.new (ofChunks cs) = .ok r) {n : Nat} {p : EnhancedPacketBlock}
    (hp : (r.run n).1.getLast? = some (.ok (.enhancedPacket p))) :
    ((r.run n).2.packetInterface p).isSome := by
  obtain ⟨r', hr', hruns⟩ := PcapNgReader.new_of_written hs hbs h₀ hrun hcs hcontents
  cases hr.symm.trans hr'
  obtain ⟨hres, hst⟩ := hruns n
  rw [hres, List.getLast?_map] at hp
  obtain ⟨b, hb, ⟨⟩⟩ := Option.map_eq_some'.mp hp
  obtain ⟨pre, hpre⟩ := List.getLast?_eq_some_iff.mp hb
  have hsplit : bs = pre ++ .enhancedPacket p :: bs.drop n := calc
    bs = bs.take n ++ bs.drop n := (List.take_append_drop n bs).symm
    _ = pre ++ .enhancedPacket p :: bs.drop n := by rw [hpre, List.append_assoc]; rfl
  rw [hsplit] at hrun
  have hid := PcapNgWriter.interfaceRef_lt_of_run hrun p.interfaceId rfl
  have hif : (r.run n).2.parser.interfaces =
      (pre.foldl PcapNgParser.afterBlock w₀.state).interfaces := by
    rw [hst, hpre, List.foldl_append]
    rfl
  simp [PcapNgReader.packetInterface, hif, hid]

/-- The empty packet of `onePacketBlocks`. -/
def emptyPacket : EnhancedPacketBlock := ⟨0, .fromNanos 0, 0, [], []⟩

/-- The frames of the default section header and of `onePacketBlocks`, as
    the writer writes them, cut into two reads. -/
def onePacketChunks : List Bytes :=
  let bytes := framesFrom ⟨.default, []⟩ (.sectionHeader .default :: onePacketBlocks)
  [bytes.take 30, bytes.drop 30]

theorem reader_resolves_written_packets_one_packet :
    ∃ w₀ w r, PcapNgWriter.withSectionHeader ⟨[], none⟩ .default = .ok w₀ ∧
      w₀.run (onePacketBlocks.map .writeBlock) = some w ∧
      w.writer.contents = [] ++ onePacketChunks.flatten ∧
      PcapNgReader.new (ReadBuffer.ofChunks onePacketChunks) = .ok r ∧
      (r.run 2).1.getLast? = some (.ok (.enhancedPacket emptyPacket)) ∧
      ((r.run 2).2.packetInterface emptyPacket).isSome :=
  ⟨_, _, _, rfl, rfl, by decide, rfl, rfl, @reader_resolves_written_packets ⟨[], none⟩ .default
    onePacketBlocks _ _ onePacketBlocks_wellFormed.1 onePacketBlocks_wellFormed.2 rfl rfl
    onePacketChunks (by decide) (by decide) _ rfl 2 emptyPacket rfl⟩

end PcapFile.PcapNg
