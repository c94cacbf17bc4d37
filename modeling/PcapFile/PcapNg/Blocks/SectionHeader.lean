import PcapFile.PcapNg.Options

/-! # Section Header Block (`blocks/section_header.rs`)

    The block that opens every section.  Its body starts with the byte-order
    magic `0x1A2B3C4D`, read big endian: read back as `0x4D3C2B1A` it means
    the section is little endian.  Every other field, and the options, are
    read in the byte order the magic names, whatever order the caller asked
    for; the writer emits the magic in the block's own endianness and the
    other fields in the caller's order.
-/

namespace PcapFile.PcapNg

/-- The options of a Section Header Block. -/
inductive SectionHeaderOption
  | comment (a : Utf8Str)
  | hardware (a : Utf8Str)
  | os (a : Utf8Str)
  | userApplication (a : Utf8Str)
  | customBinary (a : CustomBinaryOption)
  | customUtf8 (a : CustomUtf8Option)
  | unknown (a : UnknownOption)
  deriving DecidableEq, Repr

namespace SectionHeaderOption

/-- `SectionHeaderOption::from_slice`. -/
def fromSlice (B : Endianness) (code length : UInt16) (slice : Bytes) :
    Outcome SectionHeaderOption :=
  match code with
  | 1 => comment <$> fromUtf8 slice
  | 2 => hardware <$> fromUtf8 slice
  | 3 => os <$> fromUtf8 slice
  | 4 => userApplication <$> fromUtf8 slice
  | 2988 | 19372 => customUtf8 <$> CustomUtf8Option.fromSlice B code slice
  | 2989 | 19373 => customBinary <$> CustomBinaryOption.fromSlice B code slice
  | _ => pure (unknown (UnknownOption.new code length slice))

/-- `SectionHeaderOption::write_to`. -/
def writeTo (B : Endianness) : SectionHeaderOption → Written
  | comment a => WriteOptTo.writeOptTo B a 1
  | hardware a => WriteOptTo.writeOptTo B a 2
  | os a => WriteOptTo.writeOptTo B a 3
  | userApplication a => WriteOptTo.writeOptTo B a 4
  | customBinary a => WriteOptTo.writeOptTo B a a.code
  | customUtf8 a => WriteOptTo.writeOptTo B a a.code
  | unknown a => WriteOptTo.writeOptTo B a a.code

instance : PcapNgOption SectionHeaderOption := ⟨fromSlice, writeTo⟩

/-- The options `write_to` emits as a TLV that `from_slice` reads back: every
    value fits the `u16` length field, a custom option carries a code of its
    own kind, and an unknown option a code no other variant has and a length
    field equal to its value's length. -/
def WellFormed : SectionHeaderOption → Prop
  | comment a | hardware a | os a | userApplication a => a.bytes.length < 2 ^ 16
  | customBinary a => (a.code = 2989 ∨ a.code = 19373) ∧ a.value.length + 4 < 2 ^ 16
  | customUtf8 a => (a.code = 2988 ∨ a.code = 19372) ∧ a.value.bytes.length + 4 < 2 ^ 16
  | unknown a =>
    a.code ∉ ([0, 1, 2, 3, 4, 2988, 19372, 2989, 19373] : List UInt16) ∧
      a.length.toNat = a.value.length

theorem fromSlice_isPanic (B : Endianness) (code length : UInt16) (v : Bytes) :
    (fromSlice B code length v).isPanic = false := by
  unfold fromSlice
  split <;> simp [fromUtf8_isPanic, customUtf8_isPanic, customBinary_isPanic]

theorem fromSlice_ne_ioError (B : Endianness) (code length : UInt16) (v : Bytes) :
    fromSlice B code length v ≠ .err .ioError := by
  unfold fromSlice
  split <;> first
    | exact Outcome.map_ne_err (fromUtf8_ne_ioError _)
    | exact Outcome.map_ne_err (customUtf8_ne_ioError _ _ _)
    | exact Outcome.map_ne_err (customBinary_ne_ioError _ _ _)
    | exact nofun

/-- Everything the decoder reads from a well-formed TLV is well formed. -/
theorem wellFormed_of_readsAs {B : Endianness} {t : UInt16 × Bytes} {o : SectionHeaderOption}
    (h : ReadsAs B t o) : o.WellFormed := by
  obtain ⟨code, v⟩ := t
  obtain ⟨h0, hlen, hd⟩ := h
  change fromSlice B code (UInt16.ofNat v.length) v = .ok o at hd
  unfold fromSlice at hd
  split at hd
  all_goals first
    | (obtain ⟨u, hu, rfl⟩ := Outcome.map_eq_ok.mp hd
       show u.bytes.length < 2 ^ 16
       rwa [bytes_of_fromUtf8 hu])
    | (obtain ⟨a, ha, rfl⟩ := Outcome.map_eq_ok.mp hd
       obtain ⟨hc, hb⟩ := customUtf8_of_fromSlice ha
       exact ⟨by simp [hc], by simp [← hb] at hlen; omega⟩)
    | (obtain ⟨a, ha, rfl⟩ := Outcome.map_eq_ok.mp hd
       obtain ⟨hc, hb⟩ := customBinary_of_fromSlice ha
       exact ⟨by simp [hc], by simp [← hb] at hlen; omega⟩)
    | (cases hd
       exact ⟨by simp_all, toNat_ofNat_u16 hlen⟩)

/-- Every well-formed option is written as a TLV that reads back as itself. -/
theorem tlvRoundTrip {B : Endianness} {o : SectionHeaderOption} (h : o.WellFormed) :
    TlvRoundTrip B o := by
  cases o with
  | comment a => exact tlvRoundTrip_utf8 (by decide) h rfl (writeOptTo_utf8 B a 1)
  | hardware a => exact tlvRoundTrip_utf8 (by decide) h rfl (writeOptTo_utf8 B a 2)
  | os a => exact tlvRoundTrip_utf8 (by decide) h rfl (writeOptTo_utf8 B a 3)
  | userApplication a => exact tlvRoundTrip_utf8 (by decide) h rfl (writeOptTo_utf8 B a 4)
  | customBinary a =>
    obtain ⟨code, pen, value⟩ := a
    obtain ⟨rfl | rfl, hl⟩ := h <;>
      exact tlvRoundTrip_customBinary (by simp) hl (fun _ _ => rfl) (writeOptTo_customBinary ..)
  | customUtf8 a =>
    obtain ⟨code, pen, value⟩ := a
    obtain ⟨rfl | rfl, hl⟩ := h <;>
      exact tlvRoundTrip_customUtf8 (by simp) hl (fun _ _ => rfl) (writeOptTo_customUtf8 ..)
  | unknown a =>
    refine tlvRoundTrip_unknown (fun h0 => h.1 (by rw [h0]; decide)) h.2 ?_ (writeOptTo_unknown B a a.code)
    change fromSlice _ _ _ _ = _
    unfold fromSlice
    split <;> first | rfl | exact absurd (‹a.code = _› ▸ h.1) (by decide)

end SectionHeaderOption

/-- Section Header Block.  `section_length` is an `i64`, kept as its
    two's-complement bit pattern. -/
structure SectionHeaderBlock where
  endianness : Endianness
  majorVersion : UInt16
  minorVersion : UInt16
  sectionLength : UInt64
  options : List SectionHeaderOption
  deriving DecidableEq, Repr

namespace SectionHeaderBlock

/-- `impl Default for SectionHeaderBlock`: big endian, version 1.0, section
    length `-1` (unspecified), no option. -/
def default : SectionHeaderBlock :=
  ⟨.big, 1, 0, 0xFFFFFFFFFFFFFFFF, []⟩

/-- `parse_inner::<B>`: the fields after the magic. -/
def parseInner (B : Endianness) (slice : Bytes) :
    Outcome (Bytes × UInt16 × UInt16 × UInt64 × List SectionHeaderOption) := do
  let (maj_ver, slice) ← unwrap (readU16 B slice)
  let (min_ver, slice) ← unwrap (readU16 B slice)
  let (sec_len, slice) ← unwrap (readU64 B slice)
  let (rem, opts) ← optsFromSlice B slice
  pure (rem, maj_ver, min_ver, sec_len, opts)

/-- The byte order a section's magic names. -/
def magicEndianness (magic : UInt32) : Outcome Endianness :=
  match magic with
  | 0x1A2B3C4D => pure .big
  | 0x4D3C2B1A => pure .little
  | _ => .err (.invalidField "SectionHeaderBlock: invalid magic number")

/-- `SectionHeaderBlock::from_slice`; the caller's byte order is not used. -/
def fromSlice (_B : Endianness) (slice : Bytes) : Outcome (Bytes × SectionHeaderBlock) :=
  if slice.length < 16 then .err (.invalidField "SectionHeaderBlock: block length < 16")
  else do
    let (magic, slice) ← unwrap (readU32 .big slice)
    let endianness ← magicEndianness magic
    let (rem, major_version, minor_version, section_length, options) ← parseInner endianness slice
    pure (rem, ⟨endianness, major_version, minor_version, section_length, options⟩)

/-- `SectionHeaderBlock::write_to::<B>`: the magic in the block's endianness,
    the other fields in `B`. -/
def writeTo (B : Endianness) (b : SectionHeaderBlock) : Written :=
  let opts := writeOptsTo B b.options
  ⟨writeU32 b.endianness 0x1A2B3C4D ++ writeU16 B b.majorVersion ++ writeU16 B b.minorVersion ++
      writeU64 B b.sectionLength ++ opts.bytes,
    16 + opts.count⟩

/-- The magic written little endian reads back, big endian, as the little
    endian magic. -/
theorem writeU32_little_magic :
    writeU32 .little 0x1A2B3C4D = writeU32 .big 0x4D3C2B1A := by decide

/-- The magic `write_to` emits, read big endian, names the block's endianness. -/
theorem readU32_magic (e : Endianness) (rest : Bytes) :
    ∃ magic, readU32 .big (writeU32 e 0x1A2B3C4D ++ rest) = some (magic, rest) ∧
      magicEndianness magic = .ok e := by
  cases e
  · exact ⟨_, readU32_writeU32 _ _ _, rfl⟩
  · exact ⟨0x4D3C2B1A, by rw [writeU32_little_magic, readU32_writeU32], rfl⟩

theorem magicEndianness_isPanic (magic : UInt32) : (magicEndianness magic).isPanic = false := by
  unfold magicEndianness; split <;> rfl

theorem parseInner_isPanic (B : Endianness) (s : Bytes) (h : 12 ≤ s.length) :
    (parseInner B s).isPanic = false := by
  obtain ⟨maj, s, rfl⟩ := exists_writeU16 B (s := s) (by omega)
  obtain ⟨min, s, rfl⟩ := exists_writeU16 B (s := s) (by simp at h; omega)
  obtain ⟨len, s, rfl⟩ := exists_writeU64 B (s := s) (by simp at h; omega)
  simp only [parseInner, readU16_writeU16, readU64_writeU64, unwrap_some, Outcome.ok_bind]
  exact Outcome.isPanic_bind (optsFromSlice_isPanic _ (SectionHeaderOption.fromSlice_isPanic B))
    fun _ _ => rfl

/-- Nothing `SectionHeaderBlock::from_slice` reads fails with an I/O error. -/
theorem fromSlice_ne_ioError (B : Endianness) (s : Bytes) : fromSlice B s ≠ .err .ioError := by
  unfold fromSlice
  split
  · exact nofun
  refine Outcome.bind_ne_err (unwrap_ne_err _ _) fun ⟨magic, rest⟩ _ => ?_
  refine Outcome.bind_ne_err ?_ fun e _ => ?_
  · unfold magicEndianness; split <;> exact nofun
  refine Outcome.bind_ne_err ?_ fun _ _ => nofun
  unfold parseInner
  refine Outcome.bind_ne_err (unwrap_ne_err _ _) fun _ _ => ?_
  refine Outcome.bind_ne_err (unwrap_ne_err _ _) fun _ _ => ?_
  refine Outcome.bind_ne_err (unwrap_ne_err _ _) fun _ _ => ?_
  exact Outcome.bind_ne_err (optsFromSlice_ne_ioError _ (SectionHeaderOption.fromSlice_ne_ioError e))
    fun _ _ => nofun

/-- `SectionHeaderBlock::from_slice` never panics. -/
theorem fromSlice_isPanic (B : Endianness) (s : Bytes) : (fromSlice B s).isPanic = false := by
  unfold fromSlice
  split
  · rfl
  obtain ⟨magic, rest, rfl⟩ := exists_writeU32 .big (s := s) (by omega)
  simp only [readU32_writeU32, unwrap_some, Outcome.ok_bind]
  exact Outcome.isPanic_bind (magicEndianness_isPanic magic) fun e _ =>
    Outcome.isPanic_bind (parseInner_isPanic e rest (by simp at *; omega)) fun _ _ => rfl

/-- **Section header round trip.**  A block written in its own byte order
    reads back as itself, whatever byte order the reader is given. -/
theorem fromSlice_writeTo (B : Endianness) (b : SectionHeaderBlock)
    (h : ∀ o ∈ b.options, o.WellFormed) :
    fromSlice B (writeTo b.endianness b).bytes = .ok ([], b) := by
  have hopts := optsFromSlice_writeOptsTo (B := b.endianness)
    (fun o ho => SectionHeaderOption.tlvRoundTrip (h o ho)) [] (fun _ => rfl)
  rw [List.append_nil] at hopts
  obtain ⟨magic, hread, hmagic⟩ := readU32_magic b.endianness
    (writeU16 b.endianness b.majorVersion ++ writeU16 b.endianness b.minorVersion ++
      writeU64 b.endianness b.sectionLength ++ (writeOptsTo b.endianness b.options).bytes)
  unfold fromSlice writeTo
  simp only [List.append_assoc] at hread ⊢
  rw [if_neg (by simp; omega), hread, unwrap_some, Outcome.ok_bind]
  simp only [hmagic, Outcome.ok_bind, parseInner, readU16_writeU16, readU64_writeU64, unwrap_some,
    hopts]
  rfl

/-- The options of a decoded section header are well formed. -/
theorem options_wellFormed {B : Endianness} {s rem : Bytes} {b : SectionHeaderBlock}
    (h : fromSlice B s = .ok (rem, b)) : ∀ o ∈ b.options, o.WellFormed := by
  unfold fromSlice at h
  split at h
  · cases h
  obtain ⟨⟨magic, s₁⟩, -, h⟩ := Outcome.bind_eq_ok.mp h
  obtain ⟨e, -, h⟩ := Outcome.bind_eq_ok.mp h
  obtain ⟨⟨rem', maj, min, len, opts⟩, hp, h⟩ := Outcome.bind_eq_ok.mp h
  cases h
  obtain ⟨_, -, hp⟩ := Outcome.bind_eq_ok.mp hp
  obtain ⟨_, -, hp⟩ := Outcome.bind_eq_ok.mp hp
  obtain ⟨_, -, hp⟩ := Outcome.bind_eq_ok.mp hp
  obtain ⟨⟨r, os⟩, ho, hp⟩ := Outcome.bind_eq_ok.mp hp
  cases hp
  exact fun o hmem => SectionHeaderOption.wellFormed_of_readsAs
    (optsFromSlice_readsAs ho o hmem).choose_spec

end SectionHeaderBlock

end PcapFile.PcapNg
