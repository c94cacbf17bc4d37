import PcapFile.PcapNg.Blocks.SectionHeader
import PcapFile.PcapNg.Blocks.Interface
import PcapFile.PcapNg.Blocks.Packet
import PcapFile.PcapNg.Blocks.NameResolution

/-! # Block framing (`blocks/block_common.rs`)

    Every pcapng block is framed as `(type : u32, total length : u32, body,
    total length : u32)`, the total length counting the twelve framing
    bytes.  `RawBlock` is the frame with its body kept as bytes; `Block` is
    the frame with its body decoded by the block kind's own codec.

    The frame of a Section Header Block is read before the section's byte
    order is known: its type reads the same in both orders, its length is
    read big endian, and the byte-order magic at the start of the body
    decides whether the length is byte-swapped and in which order the
    trailer is read.

    The writer `inner_write_to` runs the body writer twice: once into a sink
    that drops the bytes, to learn the body length from the count it
    returns, and once for real.  The frame is consistent exactly when that
    count is the number of bytes the body writer emits
    (`Written.Exact`).
-/

namespace PcapFile.PcapNg

/-! ## Section 1: Block type codes -/

/-- `SECTION_HEADER_BLOCK`. -/
@[match_pattern] def sectionHeaderBlock : UInt32 := 0x0A0D0D0A
/-- `INTERFACE_DESCRIPTION_BLOCK`. -/
@[match_pattern] def interfaceDescriptionBlock : UInt32 := 0x00000001
/-- `PACKET_BLOCK`. -/
@[match_pattern] def packetBlock : UInt32 := 0x00000002
/-- `SIMPLE_PACKET_BLOCK`. -/
@[match_pattern] def simplePacketBlock : UInt32 := 0x00000003
/-- `NAME_RESOLUTION_BLOCK`. -/
@[match_pattern] def nameResolutionBlock : UInt32 := 0x00000004
/-- `INTERFACE_STATISTIC_BLOCK`. -/
@[match_pattern] def interfaceStatisticBlock : UInt32 := 0x00000005
/-- `ENHANCED_PACKET_BLOCK`. -/
@[match_pattern] def enhancedPacketBlock : UInt32 := 0x00000006
/-- `SYSTEMD_JOURNAL_EXPORT_BLOCK`. -/
@[match_pattern] def systemdJournalExportBlock : UInt32 := 0x00000009

/-- The section header's type code reads the same in both byte orders. -/
theorem writeU32_sectionHeaderBlock (B : Endianness) :
    writeU32 B sectionHeaderBlock = [0x0A, 0x0D, 0x0D, 0x0A] := by
  cases B <;> decide

/-! ## Section 2: Raw blocks -/

/-- A `Cow<[u8]>`: bytes borrowed from the input, or owned. -/
inductive Cow
  | borrowed (b : Bytes)
  | owned (b : Bytes)
  deriving DecidableEq, Repr

/-- The bytes of a `Cow`, whichever it is. -/
def Cow.bytes : Cow → Bytes
  | .borrowed b | .owned b => b

@[simp] theorem Cow.bytes_borrowed (b : Bytes) : (Cow.borrowed b).bytes = b := rfl

/-- A block frame with its body undecoded. -/
structure RawBlock where
  type_ : UInt32
  initialLen : UInt32
  body : Cow
  trailerLen : UInt32
  deriving DecidableEq, Repr

namespace RawBlock

/-- `inner_parse::<B>`: the frame once the type and the length are read. -/
def innerParse (B : Endianness) (slice : Bytes) (type_ initial_len : UInt32) :
    Outcome (Bytes × RawBlock) :=
  if initial_len % 4 ≠ 0 then .err (.invalidField "Block: (initial_len % 4) != 0")
  else if initial_len < 12 then .err (.invalidField "Block: initial_len < 12")
  else do
    let need ← checkedSub initial_len.toNat 8
    if slice.length < need then .err .incompleteBuffer
    else do
      let body_len ← checkedSub initial_len.toNat 12
      let body ← sliceTo slice body_len
      let rem ← sliceFrom slice body_len
      let (trailer_len, rem) ← unwrap (readU32 B rem)
      if initial_len ≠ trailer_len then
        .err (.invalidField "Block: initial_length != trailer_length")
      else pure (rem, ⟨type_, initial_len, .borrowed body, trailer_len⟩)

/-- `RawBlock::from_slice::<B>`. -/
def fromSlice (B : Endianness) (slice : Bytes) : Outcome (Bytes × RawBlock) :=
  if slice.length < 12 then .err .incompleteBuffer
  else do
    let (type_, slice) ← unwrap (readU32 B slice)
    if type_ = sectionHeaderBlock then do
      let (initial_len, slice) ← unwrap (readU32 .big slice)
      let (magic, _) ← unwrap (readU32 .big slice)
      match magic with
      | 0x1A2B3C4D => innerParse .big slice type_ initial_len
      | 0x4D3C2B1A => innerParse .little slice type_ (swapBytes32 initial_len)
      | _ => .err (.invalidField "SectionHeaderBlock: invalid magic number")
    else do
      let (initial_len, slice) ← orIncomplete (readU32 B slice)
      innerParse B slice type_ initial_len

/-- `RawBlock::write_to::<B>`: the frame as it is, with the count the code
    returns, `body.len() + 6`. -/
def writeTo (B : Endianness) (r : RawBlock) : Written :=
  ⟨writeU32 B r.type_ ++ writeU32 B r.initialLen ++ r.body.bytes ++ writeU32 B r.trailerLen,
    r.body.bytes.length + 6⟩

end RawBlock

/-! ## Section 3: The remaining block kinds -/

/-- Systemd Journal Export Block. -/
structure SystemdJournalExportBlock where
  journalEntry : Bytes
  deriving DecidableEq, Repr

namespace SystemdJournalExportBlock

/-- `SystemdJournalExportBlock::from_slice`: the whole body is the entry. -/
def fromSlice (_B : Endianness) (slice : Bytes) : Outcome (Bytes × SystemdJournalExportBlock) :=
  .ok ([], ⟨slice⟩)

/-- `SystemdJournalExportBlock::write_to`: the entry, then zero padding. -/
def writeTo (_B : Endianness) (b : SystemdJournalExportBlock) : Written :=
  let pad_len := padLen b.journalEntry.length
  ⟨b.journalEntry ++ zeros pad_len, b.journalEntry.length + pad_len⟩

end SystemdJournalExportBlock

/-- A block of a type the decoder does not know, kept verbatim. -/
structure UnknownBlock where
  type_ : UInt32
  length : UInt32
  value : Bytes
  deriving DecidableEq, Repr

namespace UnknownBlock

/-- `UnknownBlock::new`. -/
def new (type_ length : UInt32) (value : Bytes) : UnknownBlock := ⟨type_, length, value⟩

/-- `UnknownBlock::from_slice`, which is `unimplemented!()`: unknown blocks
    are built by `try_from_raw_block`, never by this decoder. -/
def fromSlice (_B : Endianness) (_slice : Bytes) : Outcome (Bytes × UnknownBlock) :=
  .panic "not implemented: UnkknownBlock::<as PcapNgBlock>::From_slice shouldn't be called"

/-- `UnknownBlock::write_to`: the value, with no padding. -/
def writeTo (_B : Endianness) (b : UnknownBlock) : Written := ⟨b.value, b.value.length⟩

end UnknownBlock

/-! ## Section 4: Blocks -/

/-- A decoded pcapng block. -/
inductive Block
  | sectionHeader (b : SectionHeaderBlock)
  | interfaceDescription (b : InterfaceDescriptionBlock)
  | packet (b : PacketBlock)
  | simplePacket (b : SimplePacketBlock)
  | nameResolution (b : NameResolutionBlock)
  | interfaceStatistics (b : InterfaceStatisticsBlock)
  | enhancedPacket (b : EnhancedPacketBlock)
  | systemdJournalExport (b : SystemdJournalExportBlock)
  | unknown (b : UnknownBlock)
  deriving DecidableEq

namespace Block

/-- `Block::try_from_raw_block::<B>`: a section header is decoded whatever
    `B` is, since its magic gives its byte order. -/
def tryFromRawBlock (B : Endianness) (raw : RawBlock) : Outcome Block :=
  match raw.body with
  | .borrowed body =>
    match raw.type_ with
    | sectionHeaderBlock => (sectionHeader ·.2) <$> SectionHeaderBlock.fromSlice .big body
    | interfaceDescriptionBlock =>
      (interfaceDescription ·.2) <$> InterfaceDescriptionBlock.fromSlice B body
    | packetBlock => (packet ·.2) <$> PacketBlock.fromSlice B body
    | simplePacketBlock => (simplePacket ·.2) <$> SimplePacketBlock.fromSlice B body
    | nameResolutionBlock => (nameResolution ·.2) <$> NameResolutionBlock.fromSlice B body
    | interfaceStatisticBlock =>
      (interfaceStatistics ·.2) <$> InterfaceStatisticsBlock.fromSlice B body
    | enhancedPacketBlock => (enhancedPacket ·.2) <$> EnhancedPacketBlock.fromSlice B body
    | systemdJournalExportBlock =>
      (systemdJournalExport ·.2) <$> SystemdJournalExportBlock.fromSlice B body
    | type_ => pure (unknown (UnknownBlock.new type_ raw.initialLen body))
  | .owned _ => .panic "The raw block is not borrowed"

/-- `Block::from_slice::<B>`. -/
def fromSlice (B : Endianness) (slice : Bytes) : Outcome (Bytes × Block) := do
  let (rem, raw_block) ← RawBlock.fromSlice B slice
  let block ← tryFromRawBlock B raw_block
  pure (rem, block)

/-- `inner_write_to`: the body writer's count from a dry run, the frame
    computed from it, then the body written for real. -/
def innerWriteTo (B : Endianness) (body : Written) (block_code : UInt32) : Written :=
  let data_len := body.count
  let pad_len := padLen data_len
  let block_len := data_len + pad_len + 12
  ⟨writeU32 B block_code ++ writeU32 B (UInt32.ofNat block_len) ++ body.bytes ++ zeros pad_len ++
      writeU32 B (UInt32.ofNat block_len),
    block_len⟩

/-- `Block::write_to::<B>`. -/
def writeTo (B : Endianness) : Block → Written
  | sectionHeader b => innerWriteTo B (SectionHeaderBlock.writeTo B b) sectionHeaderBlock
  | interfaceDescription b =>
    innerWriteTo B (InterfaceDescriptionBlock.writeTo B b) interfaceDescriptionBlock
  | packet b => innerWriteTo B (PacketBlock.writeTo B b) packetBlock
  | simplePacket b => innerWriteTo B (SimplePacketBlock.writeTo B b) simplePacketBlock
  | nameResolution b => innerWriteTo B (NameResolutionBlock.writeTo B b) nameResolutionBlock
  | interfaceStatistics b =>
    innerWriteTo B (InterfaceStatisticsBlock.writeTo B b) interfaceStatisticBlock
  | enhancedPacket b => innerWriteTo B (EnhancedPacketBlock.writeTo B b) enhancedPacketBlock
  | systemdJournalExport b =>
    innerWriteTo B (SystemdJournalExportBlock.writeTo B b) systemdJournalExportBlock
  | unknown b => innerWriteTo B (UnknownBlock.writeTo B b) b.type_

/-- `Block::into_section_header`. -/
def intoSectionHeader : Block → Option SectionHeaderBlock
  | sectionHeader a => some a
  | _ => none

/-- `Block::into_interface_description`. -/
def intoInterfaceDescription : Block → Option InterfaceDescriptionBlock
  | interfaceDescription a => some a
  | _ => none

end Block

/-- The interface descriptions among `bs` after the last section header:
    the interfaces a packet block after `bs` may refer to. -/
def interfacesSinceSection (bs : List Block) : List InterfaceDescriptionBlock :=
  ((bs.reverse.takeWhile fun b => b.intoSectionHeader.isNone).reverse).filterMap
    Block.intoInterfaceDescription

/-- The `PcapNgBlock` trait: a block kind's codec and its `into_block`. -/
class PcapNgBlock (β : Type) where
  fromSlice : Endianness → Bytes → Outcome (Bytes × β)
  writeTo : Endianness → β → Written
  intoBlock : β → Block

instance : PcapNgBlock SectionHeaderBlock :=
  ⟨SectionHeaderBlock.fromSlice, SectionHeaderBlock.writeTo, .sectionHeader⟩
instance : PcapNgBlock InterfaceDescriptionBlock :=
  ⟨InterfaceDescriptionBlock.fromSlice, InterfaceDescriptionBlock.writeTo, .interfaceDescription⟩
instance : PcapNgBlock PacketBlock := ⟨PacketBlock.fromSlice, PacketBlock.writeTo, .packet⟩
instance : PcapNgBlock SimplePacketBlock :=
  ⟨SimplePacketBlock.fromSlice, SimplePacketBlock.writeTo, .simplePacket⟩
instance : PcapNgBlock NameResolutionBlock :=
  ⟨NameResolutionBlock.fromSlice, NameResolutionBlock.writeTo, .nameResolution⟩
instance : PcapNgBlock InterfaceStatisticsBlock :=
  ⟨InterfaceStatisticsBlock.fromSlice, InterfaceStatisticsBlock.writeTo, .interfaceStatistics⟩
instance : PcapNgBlock EnhancedPacketBlock :=
  ⟨EnhancedPacketBlock.fromSlice, EnhancedPacketBlock.writeTo, .enhancedPacket⟩
instance : PcapNgBlock SystemdJournalExportBlock :=
  ⟨SystemdJournalExportBlock.fromSlice, SystemdJournalExportBlock.writeTo, .systemdJournalExport⟩
instance : PcapNgBlock UnknownBlock := ⟨UnknownBlock.fromSlice, UnknownBlock.writeTo, .unknown⟩

/-! ## Section 5: Laws of the frame decoder -/

namespace RawBlock

theorem toNat_le_of_not_lt {len : UInt32} (h : ¬len < 12) : 12 ≤ len.toNat := by
  rw [lt_iff_toNat_u32] at h; simpa using h

theorem innerParse_of_mod {B : Endianness} {s : Bytes} {t len : UInt32} (h4 : len % 4 ≠ 0) :
    innerParse B s t len = .err (.invalidField "Block: (initial_len % 4) != 0") := if_pos h4

theorem innerParse_of_lt {B : Endianness} {s : Bytes} {t len : UInt32} (h4 : len % 4 = 0)
    (h12 : len < 12) : innerParse B s t len = .err (.invalidField "Block: initial_len < 12") := by
  rw [innerParse, if_neg (not_not.mpr h4), if_pos h12]

/-- A frame whose body has not all arrived is incomplete. -/
theorem innerParse_short {B : Endianness} {s : Bytes} {t len : UInt32} (h4 : len % 4 = 0)
    (h12 : ¬len < 12) (hs : s.length + 8 < len.toNat) :
    innerParse B s t len = .err .incompleteBuffer := by
  have := toNat_le_of_not_lt h12
  rw [innerParse, if_neg (not_not.mpr h4), if_neg h12, checkedSub_of_le (by omega), Outcome.ok_bind,
    if_pos (by omega)]

/-- A whole frame: the body the length declares, then the trailer. -/
theorem innerParse_frame (B : Endianness) (t len trailer : UInt32) (body rest : Bytes)
    (h4 : len % 4 = 0) (h12 : ¬len < 12) (hb : body.length + 12 = len.toNat) :
    innerParse B (body ++ (writeU32 B trailer ++ rest)) t len =
      if len ≠ trailer then .err (.invalidField "Block: initial_length != trailer_length")
      else .ok (rest, ⟨t, len, .borrowed body, trailer⟩) := by
  rw [innerParse, if_neg (not_not.mpr h4), if_neg h12, checkedSub_of_le (by omega),
    Outcome.ok_bind, if_neg (by simp; omega), checkedSub_of_le (by omega), Outcome.ok_bind,
    sliceTo_of_le (by simp; omega), sliceFrom_of_le (by simp; omega)]
  simp only [Outcome.ok_bind, List.take_left' (by omega : body.length = len.toNat - 12),
    List.drop_left' (by omega : body.length = len.toNat - 12), readU32_writeU32, unwrap_some]
  rfl

/-- Every slice `inner_parse` sees, once the guards pass, is either short or
    a frame. -/
theorem innerParse_cases (B : Endianness) {s : Bytes} {len : UInt32} (h12 : ¬len < 12) :
    s.length + 8 < len.toNat ∨ ∃ body trailer rest, body.length + 12 = len.toNat ∧
      s = body ++ (writeU32 B trailer ++ rest) := by
  have := toNat_le_of_not_lt h12
  by_cases hs : s.length + 8 < len.toNat
  · exact .inl hs
  obtain ⟨trailer, rest, hr⟩ := exists_writeU32 B (s := s.drop (len.toNat - 12))
    (by simp; omega)
  refine .inr ⟨s.take (len.toNat - 12), trailer, rest, by simp; omega, ?_⟩
  rw [← hr, List.take_append_drop]

theorem innerParse_isPanic (B : Endianness) (s : Bytes) (t len : UInt32) :
    (innerParse B s t len).isPanic = false := by
  by_cases h4 : len % 4 = 0
  · by_cases h12 : len < 12
    · rw [innerParse_of_lt h4 h12]; rfl
    rcases innerParse_cases B (s := s) h12 with hs | ⟨body, trailer, rest, hb, rfl⟩
    · rw [innerParse_short h4 h12 hs]; rfl
    · rw [innerParse_frame B t len trailer body rest h4 h12 hb]; split <;> rfl
  · rw [innerParse_of_mod h4]; rfl

theorem innerParse_extendsTo (B : Endianness) (s ext : Bytes) (t len : UInt32) :
    ExtendsTo (innerParse B s t len) (innerParse B (s ++ ext) t len) ext := by
  by_cases h4 : len % 4 = 0
  · by_cases h12 : len < 12
    · rw [innerParse_of_lt h4 h12, innerParse_of_lt h4 h12]; exact ExtendsTo.refl_err _ _
    rcases innerParse_cases B (s := s) h12 with hs | ⟨body, trailer, rest, hb, rfl⟩
    · rw [innerParse_short h4 h12 hs]; exact ExtendsTo.incomplete _ _
    · rw [List.append_assoc, List.append_assoc, innerParse_frame B t len trailer body rest h4 h12 hb,
        innerParse_frame B t len trailer body (rest ++ ext) h4 h12 hb]
      split
      · exact ExtendsTo.refl_err _ _
      · exact ⟨fun rem a h => by cases h; rfl, fun _ h => nomatch h⟩
  · rw [innerParse_of_mod h4, innerParse_of_mod h4]; exact ExtendsTo.refl_err _ _

/-- A slice too short for a frame header is incomplete. -/
theorem fromSlice_short {B : Endianness} {s : Bytes} (hs : s.length < 12) :
    fromSlice B s = .err .incompleteBuffer := if_pos hs

/-- The frame of every block but a section header is read in `B`. -/
theorem fromSlice_of_ne (B : Endianness) {t : UInt32} (ht : t ≠ sectionHeaderBlock)
    (len : UInt32) (rest : Bytes) (hr : 4 ≤ rest.length) :
    fromSlice B (writeU32 B t ++ (writeU32 B len ++ rest)) = innerParse B rest t len := by
  rw [fromSlice, if_neg (by simp; omega)]
  simp only [readU32_writeU32, unwrap_some, Outcome.ok_bind, if_neg ht, orIncomplete_some]

/-- The frame of a section header: its length read big endian, and the byte
    order the magic names. -/
theorem fromSlice_sectionHeader (B : Endianness) (len magic : UInt32) (rest : Bytes) :
    fromSlice B (writeU32 B sectionHeaderBlock ++ (writeU32 .big len ++ (writeU32 .big magic ++ rest))) =
      match magic with
      | 0x1A2B3C4D => innerParse .big (writeU32 .big magic ++ rest) sectionHeaderBlock len
      | 0x4D3C2B1A =>
        innerParse .little (writeU32 .big magic ++ rest) sectionHeaderBlock (swapBytes32 len)
      | _ => .err (.invalidField "SectionHeaderBlock: invalid magic number") := by
  rw [fromSlice, if_neg (by simp; omega)]
  simp only [readU32_writeU32, unwrap_some, Outcome.ok_bind, ite_true]

/-- Every slice of at least twelve bytes starts with a frame header, read as
    `RawBlock::from_slice` reads it. -/
theorem fromSlice_cases (B : Endianness) {s : Bytes} (hs : 12 ≤ s.length) :
    (∃ t len rest, t ≠ sectionHeaderBlock ∧ 4 ≤ rest.length ∧
      s = writeU32 B t ++ (writeU32 B len ++ rest)) ∨
    ∃ len magic rest,
      s = writeU32 B sectionHeaderBlock ++ (writeU32 .big len ++ (writeU32 .big magic ++ rest)) := by
  obtain ⟨t, s₁, rfl⟩ := exists_writeU32 B (s := s) (by omega)
  by_cases ht : t = sectionHeaderBlock
  · subst ht
    obtain ⟨len, s₂, rfl⟩ := exists_writeU32 .big (s := s₁) (by simp at hs; omega)
    obtain ⟨magic, rest, rfl⟩ := exists_writeU32 .big (s := s₂) (by simp at hs; omega)
    exact .inr ⟨len, magic, rest, rfl⟩
  · obtain ⟨len, rest, rfl⟩ := exists_writeU32 B (s := s₁) (by simp at hs; omega)
    exact .inl ⟨t, len, rest, ht, by simp at hs; omega, rfl⟩

/-- **`RawBlock::from_slice` never panics.** -/
theorem fromSlice_isPanic (B : Endianness) (s : Bytes) : (fromSlice B s).isPanic = false := by
  by_cases hs : s.length < 12
  · rw [fromSlice_short hs]; rfl
  rcases fromSlice_cases B (s := s) (by omega) with ⟨t, len, rest, ht, hr, rfl⟩ |
    ⟨len, magic, rest, rfl⟩
  · rw [fromSlice_of_ne B ht len rest hr]; exact innerParse_isPanic _ _ _ _
  · rw [fromSlice_sectionHeader]; split <;> first | rfl | exact innerParse_isPanic _ _ _ _

/-- **Prefix stability of the frame decoder.** -/
theorem fromSlice_extendsTo (B : Endianness) (s ext : Bytes) :
    ExtendsTo (fromSlice B s) (fromSlice B (s ++ ext)) ext := by
  by_cases hs : s.length < 12
  · rw [fromSlice_short hs]; exact ExtendsTo.incomplete _ _
  rcases fromSlice_cases B (s := s) (by omega) with ⟨t, len, rest, ht, hr, rfl⟩ |
    ⟨len, magic, rest, rfl⟩
  · simp only [List.append_assoc]
    rw [fromSlice_of_ne B ht len rest hr, fromSlice_of_ne B ht len _ (by simp; omega)]
    exact innerParse_extendsTo B rest ext _ _
  · simp only [List.append_assoc]
    rw [fromSlice_sectionHeader, fromSlice_sectionHeader]
    split
    · simpa using innerParse_extendsTo .big (writeU32 .big _ ++ rest) ext _ _
    · simpa using innerParse_extendsTo .little (writeU32 .big _ ++ rest) ext _ _
    · exact ExtendsTo.refl_err _ _

end RawBlock

/-! ## Section 6: Laws of the block decoder -/

namespace RawBlock

/-- What a decoded frame holds: a borrowed body whose length is the declared
    length less twelve, a multiple of four. -/
def Framed (raw : RawBlock) : Prop :=
  ∃ body, raw.body = .borrowed body ∧ body.length + 12 = raw.initialLen.toNat ∧
    body.length % 4 = 0

/-- What `inner_parse` returns when it succeeds: the body the length
    declares, then a trailer equal to the length. -/
theorem innerParse_eq_ok {B : Endianness} {s rem : Bytes} {t len : UInt32} {raw : RawBlock}
    (h : innerParse B s t len = .ok (rem, raw)) :
    ∃ body, raw = ⟨t, len, .borrowed body, len⟩ ∧ body.length + 12 = len.toNat ∧
      len.toNat % 4 = 0 ∧ s = body ++ (writeU32 B len ++ rem) := by
  by_cases h4 : len % 4 = 0
  · by_cases h12 : len < 12
    · rw [innerParse_of_lt h4 h12] at h; cases h
    rcases innerParse_cases B (s := s) h12 with hs | ⟨body, trailer, rest, hb, rfl⟩
    · rw [innerParse_short h4 h12 hs] at h; cases h
    · rw [innerParse_frame B t len trailer body rest h4 h12 hb] at h
      split at h
      · cases h
      · obtain rfl : len = trailer := not_not.mp ‹_›
        cases h
        exact ⟨body, rfl, hb, by simpa using congrArg UInt32.toNat h4, rfl⟩
  · rw [innerParse_of_mod h4] at h; cases h

theorem framed_of_innerParse {B : Endianness} {s rem : Bytes} {t len : UInt32} {raw : RawBlock}
    (h : innerParse B s t len = .ok (rem, raw)) : raw.Framed := by
  obtain ⟨body, rfl, hb, h4, -⟩ := innerParse_eq_ok h
  exact ⟨body, rfl, hb, by omega⟩

/-- Every frame `RawBlock::from_slice` returns is framed. -/
theorem framed_of_fromSlice {B : Endianness} {s rem : Bytes} {raw : RawBlock}
    (h : fromSlice B s = .ok (rem, raw)) : raw.Framed := by
  by_cases hs : s.length < 12
  · rw [fromSlice_short hs] at h; cases h
  rcases fromSlice_cases B (s := s) (by omega) with ⟨t, len, rest, ht, hr, rfl⟩ |
    ⟨len, magic, rest, rfl⟩
  · rw [fromSlice_of_ne B ht len rest hr] at h; exact framed_of_innerParse h
  · rw [fromSlice_sectionHeader] at h
    split at h
    · exact framed_of_innerParse h
    · exact framed_of_innerParse h
    · cases h

end RawBlock

namespace Block

/-- The body decoder a block type selects, on a borrowed body. -/
theorem tryFromRawBlock_borrowed (B : Endianness) (t len trailer : UInt32) (body : Bytes) :
    tryFromRawBlock B ⟨t, len, .borrowed body, trailer⟩ =
      match t with
      | sectionHeaderBlock => (sectionHeader ·.2) <$> SectionHeaderBlock.fromSlice .big body
      | interfaceDescriptionBlock =>
        (interfaceDescription ·.2) <$> InterfaceDescriptionBlock.fromSlice B body
      | packetBlock => (packet ·.2) <$> PacketBlock.fromSlice B body
      | simplePacketBlock => (simplePacket ·.2) <$> SimplePacketBlock.fromSlice B body
      | nameResolutionBlock => (nameResolution ·.2) <$> NameResolutionBlock.fromSlice B body
      | interfaceStatisticBlock =>
        (interfaceStatistics ·.2) <$> InterfaceStatisticsBlock.fromSlice B body
      | enhancedPacketBlock => (enhancedPacket ·.2) <$> EnhancedPacketBlock.fromSlice B body
      | systemdJournalExportBlock =>
        (systemdJournalExport ·.2) <$> SystemdJournalExportBlock.fromSlice B body
      | type_ => pure (unknown (UnknownBlock.new type_ len body)) := rfl

/-- **`try_from_raw_block` never panics on a decoded frame.** -/
theorem tryFromRawBlock_isPanic (B : Endianness) {raw : RawBlock} (h : raw.Framed) :
    (tryFromRawBlock B raw).isPanic = false := by
  obtain ⟨t, len, cow, trailer⟩ := raw
  obtain ⟨body, rfl, -, h4⟩ := h
  rw [tryFromRawBlock_borrowed]
  split <;> simp only [Outcome.isPanic_map, Outcome.isPanic_pure,
    SectionHeaderBlock.fromSlice_isPanic, InterfaceDescriptionBlock.fromSlice_isPanic,
    PacketBlock.fromSlice_isPanic, SimplePacketBlock.fromSlice_isPanic,
    NameResolutionBlock.fromSlice_isPanic B h4, InterfaceStatisticsBlock.fromSlice_isPanic,
    EnhancedPacketBlock.fromSlice_isPanic]
  rfl

/-- Only a section header frame decodes to a section header, and only an
    interface description frame to an interface description. -/
theorem type_of_tryFromRawBlock {B : Endianness} {raw : RawBlock} {b : Block}
    (h : tryFromRawBlock B raw = .ok b) :
    ((∃ s, b = .sectionHeader s) → raw.type_ = sectionHeaderBlock) ∧
    ((∃ i, b = .interfaceDescription i) → raw.type_ = interfaceDescriptionBlock) := by
  obtain ⟨t, len, cow, trailer⟩ := raw
  cases cow with
  | owned => cases h
  | borrowed body =>
    rw [tryFromRawBlock_borrowed] at h
    split at h <;> first
      | (obtain ⟨_, -, rfl⟩ := Outcome.map_eq_ok.mp h; simp_all [sectionHeaderBlock,
          interfaceDescriptionBlock])
      | (cases h; simp)

/-- **`Block::from_slice` never panics.** -/
theorem fromSlice_isPanic (B : Endianness) (s : Bytes) : (fromSlice B s).isPanic = false :=
  Outcome.isPanic_bind (RawBlock.fromSlice_isPanic B s) fun _ hp =>
    Outcome.isPanic_bind (tryFromRawBlock_isPanic B (RawBlock.framed_of_fromSlice hp))
      fun _ _ => rfl

/-- A section header frame decodes to a section header. -/
theorem intoSectionHeader_of_tryFromRawBlock {B : Endianness} {raw : RawBlock} {b : Block}
    (h : tryFromRawBlock B raw = .ok b) (ht : raw.type_ = sectionHeaderBlock) :
    ∃ s, b = sectionHeader s := by
  obtain ⟨t, len, cow, trailer⟩ := raw
  dsimp only at ht; subst ht
  cases cow with
  | owned => cases h
  | borrowed body =>
    obtain ⟨p, -, rfl⟩ := Outcome.map_eq_ok.mp h
    exact ⟨_, rfl⟩

/-- An interface description frame decodes to an interface description. -/
theorem intoInterfaceDescription_of_tryFromRawBlock {B : Endianness} {raw : RawBlock} {b : Block}
    (h : tryFromRawBlock B raw = .ok b) (ht : raw.type_ = interfaceDescriptionBlock) :
    ∃ i, b = interfaceDescription i := by
  obtain ⟨t, len, cow, trailer⟩ := raw
  dsimp only at ht; subst ht
  cases cow with
  | owned => cases h
  | borrowed body =>
    obtain ⟨p, -, rfl⟩ := Outcome.map_eq_ok.mp h
    exact ⟨_, rfl⟩

/-- `Block::from_slice`, as the frame decoder followed by a step that reads
    the frame and not the bytes after it. -/
theorem fromSlice_eq (B : Endianness) (s : Bytes) :
    fromSlice B s = RawBlock.fromSlice B s >>= fun p => (p.1, ·) <$> tryFromRawBlock B p.2 := by
  unfold fromSlice
  cases RawBlock.fromSlice B s with
  | ok p => obtain ⟨rem, raw⟩ := p; cases tryFromRawBlock B raw <;> rfl
  | err e => rfl
  | panic m => rfl

/-- **Prefix stability of the block decoder.** -/
theorem fromSlice_extendsTo (B : Endianness) (s ext : Bytes) :
    ExtendsTo (fromSlice B s) (fromSlice B (s ++ ext)) ext := by
  rw [fromSlice_eq, fromSlice_eq]
  exact (RawBlock.fromSlice_extendsTo B s ext).bind _

end Block

end PcapFile.PcapNg
