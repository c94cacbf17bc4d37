import PcapFile.PcapNg.Blocks.BlockCommon

/-! # Block framing (`inner_write_to`)

    `Block::write_to` does not measure the body it writes: `inner_write_to`
    runs the body writer once into a sink that discards its input and takes
    the count the writer returns as the body's length, then writes the type,
    the total length, the body, zero padding and the total length again.
    The frame is therefore consistent exactly when every body writer returns
    the number of bytes it writes (`Written.Exact`).

    Every option writer, and every block body writer but one, does
    (Section 1).  The exception is the name resolution record writer, which
    counts an IPv4 address as 4 bytes and an IPv6 address as 16 whatever
    its length; a block all of whose records have addresses of those sizes
    is framed around the body its writer writes (`writeTo_framed`), and one
    with a three-byte IPv4 address is not
    (`writeTo_shortAddress_miscounted`).
-/

namespace PcapFile.PcapNg

/-! ## Section 1: Writers that count what they write -/

theorem writeOptBytes_exact (B : Endianness) (code : UInt16) (value : Bytes) :
    (writeOptBytes B code value).Exact := by
  simp [Written.Exact, writeOptBytes]; omega

theorem writeCustomOpt_exact (B : Endianness) (code : UInt16) (pen : UInt32) (value : Bytes) :
    (writeCustomOpt B code pen value).Exact := by
  simp [Written.Exact, writeCustomOpt]; omega

section
variable (B : Endianness) (code : UInt16)

@[simp] theorem writeOptTo_exact_bytes (a : Bytes) : (WriteOptTo.writeOptTo B a code).Exact :=
  writeOptBytes_exact B code a

@[simp] theorem writeOptTo_exact_utf8 (a : Utf8Str) : (WriteOptTo.writeOptTo B a code).Exact :=
  writeOptBytes_exact B code a.bytes

@[simp] theorem writeOptTo_exact_u8 (a : UInt8) : (WriteOptTo.writeOptTo B a code).Exact := by
  simp [WriteOptTo.writeOptTo, Written.Exact]

@[simp] theorem writeOptTo_exact_u16 (a : UInt16) : (WriteOptTo.writeOptTo B a code).Exact := by
  simp [WriteOptTo.writeOptTo, Written.Exact]

@[simp] theorem writeOptTo_exact_u32 (a : UInt32) : (WriteOptTo.writeOptTo B a code).Exact := by
  simp [WriteOptTo.writeOptTo, Written.Exact]

@[simp] theorem writeOptTo_exact_u64 (a : UInt64) : (WriteOptTo.writeOptTo B a code).Exact := by
  simp [WriteOptTo.writeOptTo, Written.Exact]

@[simp] theorem writeOptTo_exact_customBinary (a : CustomBinaryOption) :
    (WriteOptTo.writeOptTo B a code).Exact :=
  writeCustomOpt_exact B code a.pen a.value

@[simp] theorem writeOptTo_exact_customUtf8 (a : CustomUtf8Option) :
    (WriteOptTo.writeOptTo B a code).Exact :=
  writeCustomOpt_exact B code a.pen a.value.bytes

@[simp] theorem writeOptTo_exact_unknown (a : UnknownOption) :
    (WriteOptTo.writeOptTo B a code).Exact :=
  writeOptBytes_exact B code a.value

end

theorem SectionHeaderOption.writeTo_exact (B : Endianness) (o : SectionHeaderOption) :
    (writeTo B o).Exact := by
  cases o <;> simp [writeTo]

theorem InterfaceDescriptionOption.writeTo_exact (B : Endianness) (o : InterfaceDescriptionOption) :
    (writeTo B o).Exact := by
  cases o <;> simp [writeTo]

theorem InterfaceStatisticsOption.writeTo_exact (B : Endianness) (o : InterfaceStatisticsOption) :
    (writeTo B o).Exact := by
  cases o <;> simp [writeTo]

theorem EnhancedPacketOption.writeTo_exact (B : Endianness) (o : EnhancedPacketOption) :
    (writeTo B o).Exact := by
  cases o <;> simp [writeTo]

theorem NameResolutionOption.writeTo_exact (B : Endianness) (o : NameResolutionOption) :
    (writeTo B o).Exact := by
  cases o <;> simp [writeTo]

theorem PacketOption.writeTo_exact (B : Endianness) (o : PacketOption) : (writeTo B o).Exact := by
  cases o <;> simp [writeTo]

/-- `write_opts_to` counts what it writes when every option's writer does. -/
theorem writeOptsTo_exact {α : Type} [PcapNgOption α] {B : Endianness}
    (h : ∀ o : α, (PcapNgOption.writeTo B o).Exact) (opts : List α) :
    (writeOptsTo B opts).Exact := by
  have hc : (Written.concat (opts.map (PcapNgOption.writeTo B))).Exact :=
    Written.concat_exact fun w hw => by
      obtain ⟨o, -, rfl⟩ := List.mem_map.mp hw
      exact h o
  unfold writeOptsTo
  split
  · exact hc
  · simp only [Written.Exact, List.length_append, writeU16_length] at hc ⊢; omega

theorem SectionHeaderBlock.writeTo_exact (B : Endianness) (b : SectionHeaderBlock) :
    (writeTo B b).Exact := by
  have := writeOptsTo_exact (SectionHeaderOption.writeTo_exact B) b.options
  simp only [Written.Exact, writeTo, List.length_append, writeU32_length, writeU16_length,
    writeU64_length] at this ⊢
  omega

theorem InterfaceDescriptionBlock.writeTo_exact (B : Endianness) (b : InterfaceDescriptionBlock) :
    (writeTo B b).Exact := by
  have := writeOptsTo_exact (InterfaceDescriptionOption.writeTo_exact B) b.options
  simp only [Written.Exact, writeTo, List.length_append, writeU32_length, writeU16_length]
    at this ⊢
  omega

theorem InterfaceStatisticsBlock.writeTo_exact (B : Endianness) (b : InterfaceStatisticsBlock) :
    (writeTo B b).Exact := by
  have := writeOptsTo_exact (InterfaceStatisticsOption.writeTo_exact B) b.options
  simp only [Written.Exact, writeTo, List.length_append, writeU32_length, writeU64_length]
    at this ⊢
  omega

theorem EnhancedPacketBlock.writeTo_exact (B : Endianness) (b : EnhancedPacketBlock) :
    (writeTo B b).Exact := by
  have := writeOptsTo_exact (EnhancedPacketOption.writeTo_exact B) b.options
  simp only [Written.Exact, writeTo, List.length_append, writeU32_length, zeros_length] at this ⊢
  omega

theorem PacketBlock.writeTo_exact (B : Endianness) (b : PacketBlock) : (writeTo B b).Exact := by
  have := writeOptsTo_exact (PacketOption.writeTo_exact B) b.options
  simp only [Written.Exact, writeTo, List.length_append, writeU16_length, writeU32_length,
    zeros_length] at this ⊢
  omega

theorem SimplePacketBlock.writeTo_exact (B : Endianness) (b : SimplePacketBlock) :
    (writeTo B b).Exact := by
  simp [Written.Exact, writeTo]; omega

theorem SystemdJournalExportBlock.writeTo_exact (B : Endianness) (b : SystemdJournalExportBlock) :
    (writeTo B b).Exact := by
  simp [Written.Exact, writeTo]

/-- The IP record writer counts what it writes exactly when the address has
    the length it assumes. -/
theorem ipRecordWriteTo_exact_iff (base : Nat) (r : IpRecord) :
    (ipRecordWriteTo base r).Exact ↔ r.ipAddr.length = base := by
  have := ipRecordWriteTo_count base r
  simp only [Written.Exact]
  omega

/-- A name resolution record whose address has the size its writer assumes:
    4 bytes for IPv4, 16 for IPv6. -/
def Record.AddressSized : Record → Prop
  | .ipv4 a => a.ipAddr.length = 4
  | .ipv6 a => a.ipAddr.length = 16
  | _ => True

theorem Record.addrRecordWriteTo_exact (B : Endianness) (type_ : UInt16) {w : Written}
    (h : w.Exact) : (addrRecordWriteTo B type_ w).Exact := by
  simp only [Written.Exact, addrRecordWriteTo, List.length_append, writeU16_length, zeros_length]
  rw [← h]

theorem Record.writeTo_exact (B : Endianness) {r : Record} (h : r.AddressSized) :
    (writeTo B r).Exact := by
  cases r with
  | end_ => simp [Written.Exact, writeTo]
  | ipv4 a => exact addrRecordWriteTo_exact B 1 ((ipRecordWriteTo_exact_iff 4 a).mpr h)
  | ipv6 a => exact addrRecordWriteTo_exact B 2 ((ipRecordWriteTo_exact_iff 16 a).mpr h)
  | unknown a => simp [Written.Exact, writeTo]; omega

theorem NameResolutionBlock.writeTo_exact (B : Endianness) {b : NameResolutionBlock}
    (h : ∀ r ∈ b.records, r.AddressSized) : (writeTo B b).Exact := by
  refine Written.concat_exact fun w hw => ?_
  simp only [List.mem_append, List.mem_map, List.mem_cons, List.mem_singleton,
    List.not_mem_nil, or_false] at hw
  rcases hw with ⟨r, hr, rfl⟩ | rfl | rfl
  · exact Record.writeTo_exact B (h r hr)
  · simp [Written.Exact, Record.writeTo]
  · exact writeOptsTo_exact (NameResolutionOption.writeTo_exact B) b.options

/-- A block none of whose name resolution records has an address of a size
    its writer does not assume. -/
def Block.AddressesSized : Block → Prop
  | .nameResolution b => ∀ r ∈ b.records, r.AddressSized
  | _ => True

/-- The type code `Block::write_to` frames each kind of block with. -/
def Block.typeCode : Block → UInt32
  | .sectionHeader _ => sectionHeaderBlock
  | .interfaceDescription _ => interfaceDescriptionBlock
  | .packet _ => packetBlock
  | .simplePacket _ => simplePacketBlock
  | .nameResolution _ => nameResolutionBlock
  | .interfaceStatistics _ => interfaceStatisticBlock
  | .enhancedPacket _ => enhancedPacketBlock
  | .systemdJournalExport _ => systemdJournalExportBlock
  | .unknown b => b.type_

/-- The body `Block::write_to` frames: the block kind's own `write_to`. -/
def Block.bodyWriteTo (B : Endianness) : Block → Written
  | .sectionHeader b => SectionHeaderBlock.writeTo B b
  | .interfaceDescription b => InterfaceDescriptionBlock.writeTo B b
  | .packet b => PacketBlock.writeTo B b
  | .simplePacket b => SimplePacketBlock.writeTo B b
  | .nameResolution b => NameResolutionBlock.writeTo B b
  | .interfaceStatistics b => InterfaceStatisticsBlock.writeTo B b
  | .enhancedPacket b => EnhancedPacketBlock.writeTo B b
  | .systemdJournalExport b => SystemdJournalExportBlock.writeTo B b
  | .unknown b => UnknownBlock.writeTo B b

/-- Every block is written by `inner_write_to` from its body writer. -/
theorem Block.writeTo_eq_body (B : Endianness) (b : Block) :
    Block.writeTo B b = Block.innerWriteTo B (b.bodyWriteTo B) b.typeCode := by
  cases b <;> rfl

/-- Every body writer counts what it writes when the block's addresses are
    sized. -/
theorem Block.bodyWriteTo_exact (B : Endianness) {b : Block} (h : b.AddressesSized) :
    (b.bodyWriteTo B).Exact := by
  cases b with
  | sectionHeader a => exact SectionHeaderBlock.writeTo_exact B a
  | interfaceDescription a => exact InterfaceDescriptionBlock.writeTo_exact B a
  | packet a => exact PacketBlock.writeTo_exact B a
  | simplePacket a => exact SimplePacketBlock.writeTo_exact B a
  | nameResolution a => exact NameResolutionBlock.writeTo_exact B h
  | interfaceStatistics a => exact InterfaceStatisticsBlock.writeTo_exact B a
  | enhancedPacket a => exact EnhancedPacketBlock.writeTo_exact B a
  | systemdJournalExport a => exact SystemdJournalExportBlock.writeTo_exact B a
  | unknown a => rfl

/-! ## Section 2: Frames -/

/-- The layout of a frame: the type code, the total length, the body, zero
    padding to a multiple of four, and the total length again. -/
def IsFrame (B : Endianness) (code : UInt32) (body : Bytes) (w : Written) : Prop :=
  w.bytes = writeU32 B code ++ writeU32 B (UInt32.ofNat w.bytes.length) ++ body ++
      zeros (padLen body.length) ++ writeU32 B (UInt32.ofNat w.bytes.length) ∧
    w.count = w.bytes.length ∧ w.bytes.length % 4 = 0

/-- `inner_write_to` lays out a frame around every body writer that counts
    what it writes. -/
theorem innerWriteTo_isFrame (B : Endianness) {body : Written} (h : body.Exact) (code : UInt32) :
    IsFrame B code body.bytes (Block.innerWriteTo B body code) := by
  have h' : body.count = body.bytes.length := h
  have hlen : (Block.innerWriteTo B body code).bytes.length =
      body.bytes.length + padLen body.bytes.length + 12 := by
    simp only [Block.innerWriteTo, List.length_append, writeU32_length, zeros_length, h']
    omega
  refine ⟨?_, ?_, ?_⟩
  · rw [hlen]; simp only [Block.innerWriteTo, h']
  · rw [hlen]; simp only [Block.innerWriteTo, h']
  · rw [hlen]; have := padLen_add_mod body.bytes.length; omega

/-- **Block framing.**  For every block whose name resolution records have
    addresses of the sizes their writer assumes, and every byte order,
    `Block::write_to` emits a frame around the body the block kind's own
    writer writes: the block's type code, the total length, that body, zero
    padding and the total length again, with the total a multiple of four
    and equal to the count returned.  That body writer, and every option
    writer, returns exactly the number of bytes it writes. -/
theorem writeTo_framed (B : Endianness) {b : Block} (h : b.AddressesSized) :
    IsFrame B b.typeCode (b.bodyWriteTo B).bytes (Block.writeTo B b) ∧ (b.bodyWriteTo B).Exact ∧
      (∀ o, (SectionHeaderOption.writeTo B o).Exact) ∧
      (∀ o, (InterfaceDescriptionOption.writeTo B o).Exact) ∧
      (∀ o, (InterfaceStatisticsOption.writeTo B o).Exact) ∧
      (∀ o, (EnhancedPacketOption.writeTo B o).Exact) ∧
      (∀ o, (NameResolutionOption.writeTo B o).Exact) ∧ ∀ o, (PacketOption.writeTo B o).Exact := by
  have hex := Block.bodyWriteTo_exact B h
  refine ⟨?_, hex, SectionHeaderOption.writeTo_exact B, InterfaceDescriptionOption.writeTo_exact B,
    InterfaceStatisticsOption.writeTo_exact B, EnhancedPacketOption.writeTo_exact B,
    NameResolutionOption.writeTo_exact B, PacketOption.writeTo_exact B⟩
  rw [Block.writeTo_eq_body]
  exact innerWriteTo_isFrame B hex b.typeCode

/-- A name resolution block with one IPv4 record whose address has four
    bytes, naming `a`. -/
def sizedAddressBlock : Block :=
  .nameResolution ⟨[.ipv4 ⟨[10, 0, 0, 1], [⟨[0x61], rfl⟩]⟩], []⟩

theorem writeTo_framed_sized_address :
    sizedAddressBlock.AddressesSized ∧
      IsFrame .big sizedAddressBlock.typeCode (sizedAddressBlock.bodyWriteTo .big).bytes
          (Block.writeTo .big sizedAddressBlock) ∧ (sizedAddressBlock.bodyWriteTo .big).Exact ∧
        (∀ o, (SectionHeaderOption.writeTo .big o).Exact) ∧
        (∀ o, (InterfaceDescriptionOption.writeTo .big o).Exact) ∧
        (∀ o, (InterfaceStatisticsOption.writeTo .big o).Exact) ∧
        (∀ o, (EnhancedPacketOption.writeTo .big o).Exact) ∧
        (∀ o, (NameResolutionOption.writeTo .big o).Exact) ∧
        ∀ o, (PacketOption.writeTo .big o).Exact := by
  have h : sizedAddressBlock.AddressesSized := by
    simp [sizedAddressBlock, Block.AddressesSized, Record.AddressSized]
  exact ⟨h, writeTo_framed .big h⟩

/-! ## Section 3: A record whose address is not four bytes -/

/-- A name resolution block with one IPv4 record whose address has three
    bytes, naming `a`. -/
def shortAddressBlock : Block :=
  .nameResolution ⟨[.ipv4 ⟨[1, 2, 3], [⟨[0x61], rfl⟩]⟩], []⟩

/-- The block is written as 27 bytes, but its count and both its length
    fields say 28. -/
theorem writeTo_shortAddress_miscounted :
    (Block.writeTo .big shortAddressBlock).count = 28 ∧
      (Block.writeTo .big shortAddressBlock).bytes.length = 27 ∧
      ((Block.writeTo .big shortAddressBlock).bytes.drop 4).take 4 = writeU32 .big 28 ∧
      (Block.writeTo .big shortAddressBlock).bytes.drop 23 = writeU32 .big 28 := by
  decide

end PcapFile.PcapNg
