import PcapFile.PcapNg.Replay
import PcapFile.PcapNg.Framing

/-! # Reading back what the writer wrote

    Reading a stream with `PcapNgParser` and writing the blocks it returns
    with `PcapNgWriter` gives a stream that reads back as the same blocks
    only if every block's encoding reads back as the block.  A name
    resolution record is where that fails: the decoder takes a record's
    last name up to the end of the value, with or without a closing zero
    byte, and the writer closes every name.  A record whose value fills
    the 16-bit length field and whose last name is not closed grows by one
    byte when it is written again, its length field wraps to zero, and the
    stream the writer emits is refused (`name_not_read_back`, for every
    such name, and `long_name_not_read_back`).
-/

namespace PcapFile.PcapNg

/-! ## Section 1: A whole frame of a block that does not change the state -/

/-- A whole frame of a block other than a section header or an interface
    description, in the section's byte order: `next_block` consumes it,
    returns its decoded body, and leaves the parser as it was. -/
theorem PcapNgParser.nextBlock_of_frame (p : PcapNgParser) {t len : UInt32}
    (ht : t ≠ sectionHeaderBlock) (hti : t ≠ interfaceDescriptionBlock) (body rest : Bytes)
    (hb : body.length + 12 = len.toNat) (h4 : len % 4 = 0) :
    p.nextBlock (writeU32 p.section_.endianness t ++ (writeU32 p.section_.endianness len ++
        (body ++ (writeU32 p.section_.endianness len ++ rest)))) =
      ((rest, ·) <$> Block.tryFromRawBlock p.section_.endianness ⟨t, len, .borrowed body, len⟩,
        p) := by
  have h12 : ¬len < 12 := by rw [lt_iff_toNat_u32]; show ¬len.toNat < 12; omega
  dsimp only [PcapNgParser.nextBlock]
  rw [PcapNgParser.nextRawBlockInner_eq, RawBlock.fromSlice_of_ne _ ht len _ (by simp; omega),
    RawBlock.innerParse_frame _ t len len body rest h4 h12 hb, if_neg (not_not.mpr rfl)]
  dsimp only
  rw [PcapNgParser.absorb_eq, if_neg (by simp [ht, hti])]
  simp only [Outcome.map_ok, Outcome.withState_ok, Outcome.ok_bind]
  cases Block.tryFromRawBlock p.section_.endianness ⟨t, len, .borrowed body, len⟩ <;> rfl

/-- A name resolution frame decodes by its body alone. -/
theorem Block.tryFromRawBlock_nameResolution (B : Endianness) (len trailer : UInt32)
    (body : Bytes) :
    Block.tryFromRawBlock B ⟨nameResolutionBlock, len, .borrowed body, trailer⟩ =
      (fun r => Block.nameResolution r.2) <$> NameResolutionBlock.fromSlice B body := rfl

/-- The parser made from the default section header, whatever follows it. -/
theorem PcapNgParser.new_default (rest : Bytes) :
    PcapNgParser.new ((Block.writeTo .big (.sectionHeader .default)).bytes ++ rest) =
      .ok (rest, ⟨.default, []⟩) := by
  have h : PcapNgParser.new (Block.writeTo .big (.sectionHeader .default)).bytes =
      .ok ([], ⟨.default, []⟩) := by decide
  exact (PcapNgParser.new_extendsTo _ rest).1 _ _ h

/-! ## Section 2: A record whose last name fills the length field -/

/-- The address `10.0.0.1` with one name. -/
def nameRecord (name : Utf8Str) : IpRecord := ⟨[10, 0, 0, 1], [name]⟩

/-- A name resolution block with that one record. -/
def nameBlock (name : Utf8Str) : NameResolutionBlock := ⟨[.ipv4 (nameRecord name)], []⟩

/-- The body of a name resolution block, big endian: an IPv4 record of
    length 65535, the address and the name with no closing zero byte, one
    byte of padding, and the end record. -/
def nameBody (name : Utf8Str) : Bytes :=
  writeU16 .big 1 ++ (writeU16 .big 0xFFFF ++
    ([10, 0, 0, 1] ++ name.bytes ++ ([0] ++ (writeU16 .big 0 ++ writeU16 .big 0))))

/-- The frame of that body: type 4, length 65556, the body, the trailer. -/
def nameFrame (name : Utf8Str) : Bytes :=
  writeU32 .big nameResolutionBlock ++ (writeU32 .big 65556 ++
    (nameBody name ++ (writeU32 .big 65556 ++ [])))

section LongName

variable {name : Utf8Str} (hlen : name.bytes.length = 65531) (h0 : (0 : UInt8) ∉ name.bytes)

include hlen in
/-- The body is 65544 bytes long. -/
theorem nameBody_length : (nameBody name).length = 65544 := by
  simp only [nameBody, List.length_append, writeU16_length, hlen]
  rfl

include hlen h0 in
/-- The record reads as the address and the one name. -/
theorem ipv4_fromSlice_name :
    Ipv4Record.fromSlice ([10, 0, 0, 1] ++ name.bytes) = .ok (nameRecord name) := by
  have hsplit : name.bytes.splitOn 0 = [name.bytes] :=
    List.splitOnP_eq_single _ _ fun x hx hx0 => h0 (beq_iff_eq.mp hx0 ▸ hx)
  have hne : name.bytes.isEmpty = false := by
    rw [List.isEmpty_eq_false]; intro h; rw [h] at hlen; cases hlen
  have hnames : recordNames [name.bytes] = .ok [name] := by
    rw [recordNames, if_neg (by rw [hne]; decide), fromUtf8_bytes]
    rfl
  have hl : ([10, 0, 0, 1] ++ name.bytes).length = 65535 := by
    rw [List.length_append, hlen]; rfl
  have ht : List.take 4 ([10, 0, 0, 1] ++ name.bytes) = [10, 0, 0, 1] := List.take_left' rfl
  have hd : List.drop 4 ([10, 0, 0, 1] ++ name.bytes) = name.bytes := List.drop_left' rfl
  unfold Ipv4Record.fromSlice ipRecordFromSlice
  rw [if_neg (by rw [hl]; decide), sliceTo_of_le (by rw [hl]; decide),
    sliceFrom_of_le (by rw [hl]; decide)]
  rw [Outcome.ok_bind, Outcome.ok_bind, ht, hd, hsplit, hnames, Outcome.ok_bind]
  rfl

include hlen h0 in
/-- The body reads as the block. -/
theorem fromSlice_nameBody :
    NameResolutionBlock.fromSlice .big (nameBody name) = .ok ([], nameBlock name) := by
  have hv : ([10, 0, 0, 1] ++ name.bytes).length = (0xFFFF : UInt16).toNat := by
    rw [List.length_append, hlen]; rfl
  have hrec : Record.fromSlice .big (nameBody name) =
      .ok (writeU16 .big 0 ++ writeU16 .big 0, .ipv4 (nameRecord name)) := by
    have ht : List.take (0xFFFF : UInt16).toNat ([10, 0, 0, 1] ++ name.bytes ++
        ([0] ++ (writeU16 .big 0 ++ writeU16 .big 0))) = [10, 0, 0, 1] ++ name.bytes :=
      List.take_left' hv
    have hd : List.drop ((0xFFFF : UInt16).toNat + padLen (0xFFFF : UInt16).toNat)
        ([10, 0, 0, 1] ++ name.bytes ++ ([0] ++ (writeU16 .big 0 ++ writeU16 .big 0))) =
        writeU16 .big 0 ++ writeU16 .big 0 := by
      rw [← List.append_assoc]
      exact List.drop_left' (by rw [List.length_append, hv]; rfl)
    unfold nameBody
    rw [Record.fromSlice_eq, if_neg (by rw [List.length_append, hv]; omega), ht]
    show (Record.ipv4 <$> Ipv4Record.fromSlice _) >>= _ = _
    rw [ipv4_fromSlice_name hlen h0, Outcome.map_ok, Outcome.ok_bind,
      sliceFrom_of_le (by rw [List.length_append, hv]; decide), hd]
    rfl
  have hend : Record.fromSlice .big (writeU16 .big 0 ++ writeU16 .big 0) = .ok ([], .end_) := by
    decide
  rw [NameResolutionBlock.fromSlice, NameResolutionBlock.recordsLoop_of_ne_end [] hrec
    (by simp), NameResolutionBlock.recordsLoop_of_end _ hend]
  rfl

include hlen in
/-- The writer closes the name: the record's value is now 65536 bytes, and
    its length field wraps to zero. -/
theorem writeTo_nameBlock :
    (NameResolutionBlock.writeTo .big (nameBlock name)).bytes =
      writeU16 .big 1 ++ (writeU16 .big 0 ++ (([10, 0, 0, 1] ++ (name.bytes ++ [0])) ++
        (writeU16 .big 0 ++ writeU16 .big 0))) ∧
    (NameResolutionBlock.writeTo .big (nameBlock name)).count = 65544 := by
  have hw : ipRecordWriteTo 4 (nameRecord name) = ⟨[10, 0, 0, 1] ++ (name.bytes ++ [0]), 65536⟩ := by
    simp only [ipRecordWriteTo, nameRecord, List.map_cons, List.map_nil, List.flatten_cons,
      List.flatten_nil, List.append_nil, List.sum_cons, List.sum_nil, hlen]
    rfl
  have h : NameResolutionBlock.writeTo .big (nameBlock name) = Written.concat
      [Record.addrRecordWriteTo .big 1 (ipRecordWriteTo 4 (nameRecord name)),
        ⟨writeU16 .big 0 ++ writeU16 .big 0, 4⟩, ⟨[], 0⟩] := rfl
  rw [h, hw]
  simp only [Written.concat_cons, Written.concat_nil, Record.addrRecordWriteTo, List.append_nil,
    List.append_assoc]
  exact ⟨rfl, rfl⟩

include hlen in
/-- Read again, the record's value is empty, which is too short for an IPv4
    record. -/
theorem fromSlice_writeTo_nameBlock :
    NameResolutionBlock.fromSlice .big (NameResolutionBlock.writeTo .big (nameBlock name)).bytes =
      .err (.invalidField "NameResolutionBlock: Ipv4Record len < 6") := by
  have hrec : ∀ rest, Record.fromSlice .big (writeU16 .big 1 ++ (writeU16 .big 0 ++ rest)) =
      .err (.invalidField "NameResolutionBlock: Ipv4Record len < 6") := by
    intro rest
    rw [Record.fromSlice_eq, if_neg (by simp)]
    rfl
  rw [(writeTo_nameBlock hlen).1, NameResolutionBlock.fromSlice,
    NameResolutionBlock.recordsLoop_of_err [] (hrec _)]
  rfl

include hlen in
/-- The whole block as the writer frames it: the body counts what it
    writes, so the frame is 65556 bytes. -/
theorem writeTo_nameResolution_nameBlock :
    (Block.writeTo .big (.nameResolution (nameBlock name))).bytes =
      writeU32 .big nameResolutionBlock ++ (writeU32 .big 65556 ++
        ((NameResolutionBlock.writeTo .big (nameBlock name)).bytes ++ (writeU32 .big 65556 ++ []))) := by
  have hc := (writeTo_nameBlock hlen).2
  simp only [Block.writeTo, Block.innerWriteTo, hc, List.append_nil, List.append_assoc]
  rfl

include hlen h0 in
/-- **A stream that is not read back as itself once written.**  The
    default section header, then a name resolution block whose one IPv4
    record holds a name of 65531 bytes with no closing zero byte: the parser
    reads the stream whole, the writer made from its section header writes
    the block without error, but the stream it emits, read again, ends in
    an error where the block was. -/
theorem name_not_read_back :
    ∃ p w₀ w n,
      PcapNgParser.new ((Block.writeTo .big (.sectionHeader .default)).bytes ++ nameFrame name) =
        .ok (nameFrame name, p) ∧
      (p.nextBlock (nameFrame name)).1 = .ok ([], .nameResolution (nameBlock name)) ∧
      PcapNgWriter.withSectionHeader ⟨[], none⟩ p.section_ = .ok w₀ ∧
      w₀.writeBlock (.nameResolution (nameBlock name)) = (.ok n, w) ∧
      PcapNgParser.new w.writer.contents =
        .ok ((Block.writeTo .big (.nameResolution (nameBlock name))).bytes, p) ∧
      (p.nextBlock (Block.writeTo .big (.nameResolution (nameBlock name))).bytes).1 =
        .err (.invalidField "NameResolutionBlock: Ipv4Record len < 6") := by
  have hne : nameResolutionBlock ≠ sectionHeaderBlock := by decide
  have hni : nameResolutionBlock ≠ interfaceDescriptionBlock := by decide
  have h4 : (65556 : UInt32) % 4 = 0 := by decide
  have hread : PcapNgParser.nextBlock ⟨.default, []⟩ (nameFrame name) =
      (([], ·) <$> Block.tryFromRawBlock .big ⟨nameResolutionBlock, 65556, .borrowed (nameBody name),
        65556⟩, ⟨.default, []⟩) :=
    PcapNgParser.nextBlock_of_frame ⟨.default, []⟩ hne hni (nameBody name) []
      (by rw [nameBody_length hlen]; rfl) h4
  have hl : (NameResolutionBlock.writeTo .big (nameBlock name)).bytes.length + 12 =
      (65556 : UInt32).toNat := by
    rw [(writeTo_nameBlock hlen).1]
    simp only [List.length_append, writeU16_length, hlen]
    rfl
  have hreread : PcapNgParser.nextBlock ⟨.default, []⟩
      (Block.writeTo .big (.nameResolution (nameBlock name))).bytes =
      (([], ·) <$> Block.tryFromRawBlock .big ⟨nameResolutionBlock, 65556,
        .borrowed (NameResolutionBlock.writeTo .big (nameBlock name)).bytes, 65556⟩,
        ⟨.default, []⟩) := by
    rw [writeTo_nameResolution_nameBlock hlen]
    exact PcapNgParser.nextBlock_of_frame ⟨.default, []⟩ hne hni
      (NameResolutionBlock.writeTo .big (nameBlock name)).bytes [] hl h4
  refine ⟨⟨.default, []⟩, _, _, _, PcapNgParser.new_default _, ?_, rfl, rfl, ?_, ?_⟩
  · rw [hread, Block.tryFromRawBlock_nameResolution, fromSlice_nameBody hlen h0]; rfl
  · show PcapNgParser.new ([] ++ _ ++ _) = _
    rw [List.nil_append]
    exact PcapNgParser.new_default _
  · rw [hreread, Block.tryFromRawBlock_nameResolution, fromSlice_writeTo_nameBlock hlen]; rfl

end LongName

/-- Letters `a` are valid UTF-8, one byte each. -/
theorem utf8Valid_replicate_a (n : Nat) : utf8Valid (List.replicate n 0x61) = true := by
  induction n with
  | zero => rfl
  | succ n ih =>
    rw [List.replicate_succ]
    unfold utf8Valid
    rw [if_pos (by decide), ih]

/-- A name of 65531 letters `a`. -/
def longName : Utf8Str := ⟨List.replicate 65531 0x61, utf8Valid_replicate_a 65531⟩

/-- The stream for the name of 65531 letters `a`. -/
theorem long_name_not_read_back :
    ∃ p w₀ w n,
      PcapNgParser.new ((Block.writeTo .big (.sectionHeader .default)).bytes ++
          nameFrame longName) = .ok (nameFrame longName, p) ∧
      (p.nextBlock (nameFrame longName)).1 = .ok ([], .nameResolution (nameBlock longName)) ∧
      PcapNgWriter.withSectionHeader ⟨[], none⟩ p.section_ = .ok w₀ ∧
      w₀.writeBlock (.nameResolution (nameBlock longName)) = (.ok n, w) ∧
      PcapNgParser.new w.writer.contents =
        .ok ((Block.writeTo .big (.nameResolution (nameBlock longName))).bytes, p) ∧
      (p.nextBlock (Block.writeTo .big (.nameResolution (nameBlock longName))).bytes).1 =
        .err (.invalidField "NameResolutionBlock: Ipv4Record len < 6") :=
  name_not_read_back (List.length_replicate _ _) fun h =>
    absurd (List.mem_replicate.mp h).2 (by decide)

end PcapFile.PcapNg
