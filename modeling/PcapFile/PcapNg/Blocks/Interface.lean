import PcapFile.PcapNg.Options

/-! # Interface Description and Interface Statistics Blocks

    `blocks/interface_description.rs` and `blocks/interface_statistics.rs`.
    Both blocks are a fixed header followed by an option list.  The
    description options check the length of every fixed-size value before
    reading it; the statistics options read their `u64` values without a
    length check.

    One description option does not read back: `IfTzone` holds a `u32`, its
    writer emits four bytes, and its decoder rejects every value whose length
    is not one (`ifTzone_fromSlice`).  Its well-formedness is therefore
    `False`, and the round trip of an interface description is proved for
    every other option.
-/

namespace PcapFile.PcapNg

/-! ## Section 1: Interface Description options -/

/-- The options of an Interface Description Block. -/
inductive InterfaceDescriptionOption
  | comment (a : Utf8Str)
  | ifName (a : Utf8Str)
  | ifDescription (a : Utf8Str)
  | ifIpv4Addr (a : Bytes)
  | ifIpv6Addr (a : Bytes)
  | ifMacAddr (a : Bytes)
  | ifEuIAddr (a : UInt64)
  | ifSpeed (a : UInt64)
  | ifTsResol (a : UInt8)
  | ifTzone (a : UInt32)
  | ifFilter (a : Bytes)
  | ifOs (a : Utf8Str)
  | ifFcsLen (a : UInt8)
  | ifTsOffset (a : UInt64)
  | ifHardware (a : Utf8Str)
  | customBinary (a : CustomBinaryOption)
  | customUtf8 (a : CustomUtf8Option)
  | unknown (a : UnknownOption)
  deriving DecidableEq, Repr

namespace InterfaceDescriptionOption

/-- `InterfaceDescriptionOption::from_slice`. -/
def fromSlice (B : Endianness) (code length : UInt16) (slice : Bytes) :
    Outcome InterfaceDescriptionOption :=
  match code with
  | 1 => comment <$> fromUtf8 slice
  | 2 => ifName <$> fromUtf8 slice
  | 3 => ifDescription <$> fromUtf8 slice
  | 4 => do
    expectLen slice 8 "InterfaceDescriptionOption: IfIpv4Addr length != 8"
    pure (ifIpv4Addr slice)
  | 5 => do
    expectLen slice 17 "InterfaceDescriptionOption: IfIpv6Addr length != 17"
    pure (ifIpv6Addr slice)
  | 6 => do
    expectLen slice 6 "InterfaceDescriptionOption: IfMacAddr length != 6"
    pure (ifMacAddr slice)
  | 7 => do
    expectLen slice 8 "InterfaceDescriptionOption: IfEuIAddr length != 8"
    ifEuIAddr <$> readValue (readU64 B slice)
  | 8 => do
    expectLen slice 8 "InterfaceDescriptionOption: IfSpeed length != 8"
    ifSpeed <$> readValue (readU64 B slice)
  | 9 => do
    expectLen slice 1 "InterfaceDescriptionOption: IfTsResol length != 1"
    ifTsResol <$> readValue (readU8 slice)
  | 10 => do
    expectLen slice 1 "InterfaceDescriptionOption: IfTzone length != 1"
    ifTzone <$> readValue (readU32 B slice)
  | 11 =>
    if slice.isEmpty then .err (.invalidField "InterfaceDescriptionOption: IfFilter is empty")
    else pure (ifFilter slice)
  | 12 => ifOs <$> fromUtf8 slice
  | 13 => do
    expectLen slice 1 "InterfaceDescriptionOption: IfFcsLen length != 1"
    ifFcsLen <$> readValue (readU8 slice)
  | 14 => do
    expectLen slice 8 "InterfaceDescriptionOption: IfTsOffset length != 8"
    ifTsOffset <$> readValue (readU64 B slice)
  | 15 => ifHardware <$> fromUtf8 slice
  | 2988 | 19372 => customUtf8 <$> CustomUtf8Option.fromSlice B code slice
  | 2989 | 19373 => customBinary <$> CustomBinaryOption.fromSlice B code slice
  | _ => pure (unknown (UnknownOption.new code length slice))

/-- `InterfaceDescriptionOption::write_to`. -/
def writeTo (B : Endianness) : InterfaceDescriptionOption → Written
  | comment a => WriteOptTo.writeOptTo B a 1
  | ifName a => WriteOptTo.writeOptTo B a 2
  | ifDescription a => WriteOptTo.writeOptTo B a 3
  | ifIpv4Addr a => WriteOptTo.writeOptTo B a 4
  | ifIpv6Addr a => WriteOptTo.writeOptTo B a 5
  | ifMacAddr a => WriteOptTo.writeOptTo B a 6
  | ifEuIAddr a => WriteOptTo.writeOptTo B a 7
  | ifSpeed a => WriteOptTo.writeOptTo B a 8
  | ifTsResol a => WriteOptTo.writeOptTo B a 9
  | ifTzone a => WriteOptTo.writeOptTo B a 10
  | ifFilter a => WriteOptTo.writeOptTo B a 11
  | ifOs a => WriteOptTo.writeOptTo B a 12
  | ifFcsLen a => WriteOptTo.writeOptTo B a 13
  | ifTsOffset a => WriteOptTo.writeOptTo B a 14
  | ifHardware a => WriteOptTo.writeOptTo B a 15
  | customBinary a => WriteOptTo.writeOptTo B a a.code
  | customUtf8 a => WriteOptTo.writeOptTo B a a.code
  | unknown a => WriteOptTo.writeOptTo B a a.code

instance : PcapNgOption InterfaceDescriptionOption := ⟨fromSlice, writeTo⟩

/-- The options `write_to` emits as a TLV that `from_slice` reads back: each
    value fits the `u16` length field and has the length its code's decoder
    requires, a custom option carries a code of its own kind, and an unknown
    option a code no other variant has.  No `IfTzone` option reads back. -/
def WellFormed : InterfaceDescriptionOption → Prop
  | comment a | ifName a | ifDescription a | ifOs a | ifHardware a => a.bytes.length < 2 ^ 16
  | ifIpv4Addr a => a.length = 8
  | ifIpv6Addr a => a.length = 17
  | ifMacAddr a => a.length = 6
  | ifEuIAddr _ | ifSpeed _ | ifTsResol _ | ifFcsLen _ | ifTsOffset _ => True
  | ifTzone _ => False
  | ifFilter a => a ≠ [] ∧ a.length < 2 ^ 16
  | customBinary a => (a.code = 2989 ∨ a.code = 19373) ∧ a.value.length + 4 < 2 ^ 16
  | customUtf8 a => (a.code = 2988 ∨ a.code = 19372) ∧ a.value.bytes.length + 4 < 2 ^ 16
  | unknown a =>
    a.code ∉ ([0, 1, 2, 3, 4, 5, 6, 7, 8, 9, 10, 11, 12, 13, 14, 15, 2988, 19372, 2989, 19373] :
      List UInt16) ∧ a.length.toNat = a.value.length

/-- The `IfTzone` decoder: a value of any length but one is rejected, and a
    one-byte value is too short for the `u32` it reads. -/
theorem ifTzone_fromSlice (B : Endianness) (length : UInt16) (v : Bytes) :
    fromSlice B 10 length v = .err (if v.length = 1 then .incompleteBuffer
      else .invalidField "InterfaceDescriptionOption: IfTzone length != 1") := by
  change (do expectLen v 1 _; ifTzone <$> readValue (readU32 B v)) = _
  by_cases h : v.length = 1
  · have : readU32 B v = none := Option.not_isSome_iff_eq_none.mp (by rw [readU32_isSome]; omega)
    simp [expectLen_of_eq _ h, h, this]
  · simp [expectLen, h]

theorem fromSlice_isPanic (B : Endianness) (code length : UInt16) (v : Bytes) :
    (fromSlice B code length v).isPanic = false := by
  unfold fromSlice
  split <;> (try split) <;>
    simp [fromUtf8_isPanic, customUtf8_isPanic, customBinary_isPanic, Outcome.isPanic_bind]

/-- Everything the decoder reads from a well-formed TLV is well formed. -/
theorem wellFormed_of_readsAs {B : Endianness} {t : UInt16 × Bytes}
    {o : InterfaceDescriptionOption} (h : ReadsAs B t o) : o.WellFormed := by
  obtain ⟨code, v⟩ := t
  obtain ⟨h0, hlen, hd⟩ := h
  change fromSlice B code (UInt16.ofNat v.length) v = .ok o at hd
  by_cases hz : code = 10
  · subst hz; rw [ifTzone_fromSlice] at hd; cases hd
  unfold fromSlice at hd
  split at hd
  all_goals first
    | (obtain ⟨u, hu, rfl⟩ := Outcome.map_eq_ok.mp hd
       show u.bytes.length < 2 ^ 16
       rwa [bytes_of_fromUtf8 hu])
    | (obtain ⟨u, hu, h⟩ := Outcome.bind_eq_ok.mp hd
       first
         | (cases h; exact length_of_expectLen hu)
         | (obtain ⟨x, -, rfl⟩ := Outcome.map_eq_ok.mp h; trivial))
    | (split at hd
       · cases hd
       · rename_i hv
         cases hd
         exact ⟨by simpa using hv, hlen⟩)
    | (obtain ⟨a, ha, rfl⟩ := Outcome.map_eq_ok.mp hd
       obtain ⟨hc, hb⟩ := customUtf8_of_fromSlice ha
       exact ⟨by simp [hc], by simp [← hb] at hlen; omega⟩)
    | (obtain ⟨a, ha, rfl⟩ := Outcome.map_eq_ok.mp hd
       obtain ⟨hc, hb⟩ := customBinary_of_fromSlice ha
       exact ⟨by simp [hc], by simp [← hb] at hlen; omega⟩)
    | (cases hd
       exact ⟨by simp_all, toNat_ofNat_u16 hlen⟩)

/-- Every well-formed option is written as a TLV that reads back as itself. -/
theorem tlvRoundTrip {B : Endianness} {o : InterfaceDescriptionOption} (h : o.WellFormed) :
    TlvRoundTrip B o := by
  cases o with
  | comment a => exact tlvRoundTrip_utf8 (by decide) h rfl (writeOptTo_utf8 B a 1)
  | ifName a => exact tlvRoundTrip_utf8 (by decide) h rfl (writeOptTo_utf8 B a 2)
  | ifDescription a => exact tlvRoundTrip_utf8 (by decide) h rfl (writeOptTo_utf8 B a 3)
  | ifIpv4Addr a => exact tlvRoundTrip_fixed (by decide) rfl h (by decide) (writeOptTo_bytes B a 4)
  | ifIpv6Addr a => exact tlvRoundTrip_fixed (by decide) rfl h (by decide) (writeOptTo_bytes B a 5)
  | ifMacAddr a => exact tlvRoundTrip_fixed (by decide) rfl h (by decide) (writeOptTo_bytes B a 6)
  | ifEuIAddr a =>
    exact tlvRoundTrip_checked (by decide) (readU64_writeU64_nil B a) rfl (by simp) (by decide)
      (writeOptTo_u64 B a 7)
  | ifSpeed a =>
    exact tlvRoundTrip_checked (by decide) (readU64_writeU64_nil B a) rfl (by simp) (by decide)
      (writeOptTo_u64 B a 8)
  | ifTsResol a =>
    exact tlvRoundTrip_read (by decide) (readU8_cons a []) (by simp) rfl
      (writeOptTo_u8 B a 9)
  | ifTzone a => exact h.elim
  | ifFilter a =>
    exact ⟨(11, a), ⟨by simp, h.2, if_neg (by simpa using h.1)⟩, writeOptTo_bytes B a 11⟩
  | ifOs a => exact tlvRoundTrip_utf8 (by decide) h rfl (writeOptTo_utf8 B a 12)
  | ifFcsLen a =>
    exact tlvRoundTrip_read (by decide) (readU8_cons a []) (by simp) rfl
      (writeOptTo_u8 B a 13)
  | ifTsOffset a =>
    exact tlvRoundTrip_checked (by decide) (readU64_writeU64_nil B a) rfl (by simp) (by decide)
      (writeOptTo_u64 B a 14)
  | ifHardware a => exact tlvRoundTrip_utf8 (by decide) h rfl (writeOptTo_utf8 B a 15)
  | customBinary a =>
    obtain ⟨code, pen, value⟩ := a
    obtain ⟨rfl | rfl, hl⟩ := h <;>
      exact tlvRoundTrip_customBinary (by simp) hl (fun _ _ => rfl) (writeOptTo_customBinary ..)
  | customUtf8 a =>
    obtain ⟨code, pen, value⟩ := a
    obtain ⟨rfl | rfl, hl⟩ := h <;>
      exact tlvRoundTrip_customUtf8 (by simp) hl (fun _ _ => rfl) (writeOptTo_customUtf8 ..)
  | unknown a =>
    refine tlvRoundTrip_unknown (fun h0 => h.1 (by rw [h0]; decide)) h.2 ?_ (writeOptTo_unknown B a a.code)
    change fromSlice _ _ _ _ = _
    unfold fromSlice
    split <;> first | rfl | exact absurd (‹a.code = _› ▸ h.1) (by decide)

end InterfaceDescriptionOption

/-! ## Section 2: Interface Description Block -/

/-- Interface Description Block. -/
structure InterfaceDescriptionBlock where
  linktype : DataLink
  snaplen : UInt32
  options : List InterfaceDescriptionOption
  deriving DecidableEq, Repr

namespace InterfaceDescriptionBlock

/-- `InterfaceDescriptionBlock::new`. -/
def new (linktype : DataLink) (snaplen : UInt32) : InterfaceDescriptionBlock :=
  ⟨linktype, snaplen, []⟩

/-- `InterfaceDescriptionBlock::from_slice::<B>`. -/
def fromSlice (B : Endianness) (slice : Bytes) : Outcome (Bytes × InterfaceDescriptionBlock) :=
  if slice.length < 8 then .err (.invalidField "InterfaceDescriptionBlock: block length < 8")
  else do
    let (linktype, slice) ← unwrap (readU16 B slice)
    let (reserved, slice) ← unwrap (readU16 B slice)
    if reserved ≠ 0 then .err (.invalidField "InterfaceDescriptionBlock: reserved != 0")
    else do
      let (snaplen, slice) ← unwrap (readU32 B slice)
      let (slice, options) ← optsFromSlice B slice
      pure (slice, ⟨DataLink.ofCode (UInt32.ofNat linktype.toNat), snaplen, options⟩)

/-- `InterfaceDescriptionBlock::write_to::<B>`: the link type is truncated to
    its low sixteen bits (`u32::from(self.linktype) as u16`). -/
def writeTo (B : Endianness) (b : InterfaceDescriptionBlock) : Written :=
  let opts := writeOptsTo B b.options
  ⟨writeU16 B (UInt16.ofNat b.linktype.toCode.toNat) ++ writeU16 B 0 ++ writeU32 B b.snaplen ++ opts.bytes,
    8 + opts.count⟩

/-- `InterfaceDescriptionBlock::from_slice` never panics. -/
theorem fromSlice_isPanic (B : Endianness) (s : Bytes) : (fromSlice B s).isPanic = false := by
  unfold fromSlice
  split
  · rfl
  obtain ⟨lt, s, rfl⟩ := exists_writeU16 B (s := s) (by omega)
  obtain ⟨res, s, rfl⟩ := exists_writeU16 B (s := s) (by simp at *; omega)
  obtain ⟨snap, s, rfl⟩ := exists_writeU32 B (s := s) (by simp at *; omega)
  simp only [readU16_writeU16, readU32_writeU32, unwrap_some, Outcome.ok_bind]
  split
  · rfl
  exact Outcome.isPanic_bind
    (optsFromSlice_isPanic _ (InterfaceDescriptionOption.fromSlice_isPanic B)) fun _ _ => rfl

/-- **Interface description round trip.**  A block whose link type is
    canonical and has a code that fits the sixteen bits it is written in
    reads back as itself. -/
theorem fromSlice_writeTo (B : Endianness) (b : InterfaceDescriptionBlock)
    (hlink : b.linktype.toCode.toNat < 2 ^ 16) (hcan : b.linktype.Canonical)
    (h : ∀ o ∈ b.options, o.WellFormed) :
    fromSlice B (writeTo B b).bytes = .ok ([], b) := by
  have hopts := optsFromSlice_writeOptsTo (B := B)
    (fun o ho => InterfaceDescriptionOption.tlvRoundTrip (h o ho)) [] (fun _ => rfl)
  rw [List.append_nil] at hopts
  unfold fromSlice writeTo
  simp only [List.append_assoc]
  rw [if_neg (by simp; omega)]
  simp only [readU16_writeU16, readU32_writeU32, unwrap_some, Outcome.ok_bind, hopts]
  rw [if_neg (by decide)]
  simp only [Outcome.ok_bind, toNat_ofNat_u16 hlink, ofNat_toNat_u32,
    DataLink.ofCode_toCode_iff.mpr hcan]
  rfl

/-- A decoded interface description has a canonical link type whose code is
    below `2^16`, and well-formed options. -/
theorem wellFormed_of_fromSlice {B : Endianness} {s rem : Bytes} {b : InterfaceDescriptionBlock}
    (h : fromSlice B s = .ok (rem, b)) :
    b.linktype.toCode.toNat < 2 ^ 16 ∧ b.linktype.Canonical ∧ ∀ o ∈ b.options, o.WellFormed := by
  unfold fromSlice at h
  split at h
  · cases h
  obtain ⟨⟨lt, s₁⟩, -, h⟩ := Outcome.bind_eq_ok.mp h
  obtain ⟨⟨res, s₂⟩, -, h⟩ := Outcome.bind_eq_ok.mp h
  dsimp only at h
  split at h
  · cases h
  obtain ⟨⟨snap, s₃⟩, -, h⟩ := Outcome.bind_eq_ok.mp h
  obtain ⟨⟨r, os⟩, ho, h⟩ := Outcome.bind_eq_ok.mp h
  cases h
  refine ⟨by simpa using lt.toNat_lt, DataLink.canonical_ofCode _, fun o hmem => ?_⟩
  exact InterfaceDescriptionOption.wellFormed_of_readsAs (optsFromSlice_readsAs ho o hmem).choose_spec

end InterfaceDescriptionBlock

/-! ## Section 3: Interface Statistics options -/

/-- The options of an Interface Statistics Block. -/
inductive InterfaceStatisticsOption
  | comment (a : Utf8Str)
  | isbStartTime (a : UInt64)
  | isbEndTime (a : UInt64)
  | isbIfRecv (a : UInt64)
  | isbIfDrop (a : UInt64)
  | isbFilterAccept (a : UInt64)
  | isbOsDrop (a : UInt64)
  | isbUsrDeliv (a : UInt64)
  | customBinary (a : CustomBinaryOption)
  | customUtf8 (a : CustomUtf8Option)
  | unknown (a : UnknownOption)
  deriving DecidableEq, Repr

namespace InterfaceStatisticsOption

/-- `InterfaceStatisticsOption::from_slice`: the `u64` values are read with
    no length check. -/
def fromSlice (B : Endianness) (code length : UInt16) (slice : Bytes) :
    Outcome InterfaceStatisticsOption :=
  match code with
  | 1 => comment <$> fromUtf8 slice
  | 2 => isbStartTime <$> readValue (readU64 B slice)
  | 3 => isbEndTime <$> readValue (readU64 B slice)
  | 4 => isbIfRecv <$> readValue (readU64 B slice)
  | 5 => isbIfDrop <$> readValue (readU64 B slice)
  | 6 => isbFilterAccept <$> readValue (readU64 B slice)
  | 7 => isbOsDrop <$> readValue (readU64 B slice)
  | 8 => isbUsrDeliv <$> readValue (readU64 B slice)
  | 2988 | 19372 => customUtf8 <$> CustomUtf8Option.fromSlice B code slice
  | 2989 | 19373 => customBinary <$> CustomBinaryOption.fromSlice B code slice
  | _ => pure (unknown (UnknownOption.new code length slice))

/-- `InterfaceStatisticsOption::write_to`. -/
def writeTo (B : Endianness) : InterfaceStatisticsOption → Written
  | comment a => WriteOptTo.writeOptTo B a 1
  | isbStartTime a => WriteOptTo.writeOptTo B a 2
  | isbEndTime a => WriteOptTo.writeOptTo B a 3
  | isbIfRecv a => WriteOptTo.writeOptTo B a 4
  | isbIfDrop a => WriteOptTo.writeOptTo B a 5
  | isbFilterAccept a => WriteOptTo.writeOptTo B a 6
  | isbOsDrop a => WriteOptTo.writeOptTo B a 7
  | isbUsrDeliv a => WriteOptTo.writeOptTo B a 8
  | customBinary a => WriteOptTo.writeOptTo B a a.code
  | customUtf8 a => WriteOptTo.writeOptTo B a a.code
  | unknown a => WriteOptTo.writeOptTo B a a.code

instance : PcapNgOption InterfaceStatisticsOption := ⟨fromSlice, writeTo⟩

/-- The options `write_to` emits as a TLV that `from_slice` reads back. -/
def WellFormed : InterfaceStatisticsOption → Prop
  | comment a => a.bytes.length < 2 ^ 16
  | isbStartTime _ | isbEndTime _ | isbIfRecv _ | isbIfDrop _ | isbFilterAccept _ | isbOsDrop _
  | isbUsrDeliv _ => True
  | customBinary a => (a.code = 2989 ∨ a.code = 19373) ∧ a.value.length + 4 < 2 ^ 16
  | customUtf8 a => (a.code = 2988 ∨ a.code = 19372) ∧ a.value.bytes.length + 4 < 2 ^ 16
  | unknown a =>
    a.code ∉ ([0, 1, 2, 3, 4, 5, 6, 7, 8, 2988, 19372, 2989, 19373] : List UInt16) ∧
      a.length.toNat = a.value.length

theorem fromSlice_isPanic (B : Endianness) (code length : UInt16) (v : Bytes) :
    (fromSlice B code length v).isPanic = false := by
  unfold fromSlice
  split <;> simp [fromUtf8_isPanic, customUtf8_isPanic, customBinary_isPanic]

/-- Everything the decoder reads from a well-formed TLV is well formed. -/
theorem wellFormed_of_readsAs {B : Endianness} {t : UInt16 × Bytes}
    {o : InterfaceStatisticsOption} (h : ReadsAs B t o) : o.WellFormed := by
  obtain ⟨code, v⟩ := t
  obtain ⟨h0, hlen, hd⟩ := h
  change fromSlice B code (UInt16.ofNat v.length) v = .ok o at hd
  unfold fromSlice at hd
  split at hd
  all_goals first
    | (obtain ⟨u, hu, rfl⟩ := Outcome.map_eq_ok.mp hd
       first
         | trivial
         | (show u.bytes.length < 2 ^ 16
            rwa [bytes_of_fromUtf8 hu]))
    | (obtain ⟨a, ha, rfl⟩ := Outcome.map_eq_ok.mp hd
       obtain ⟨hc, hb⟩ := customUtf8_of_fromSlice ha
       exact ⟨by simp [hc], by simp [← hb] at hlen; omega⟩)
    | (obtain ⟨a, ha, rfl⟩ := Outcome.map_eq_ok.mp hd
       obtain ⟨hc, hb⟩ := customBinary_of_fromSlice ha
       exact ⟨by simp [hc], by simp [← hb] at hlen; omega⟩)
    | (cases hd
       exact ⟨by simp_all, toNat_ofNat_u16 hlen⟩)

/-- Every well-formed option is written as a TLV that reads back as itself. -/
theorem tlvRoundTrip {B : Endianness} {o : InterfaceStatisticsOption} (h : o.WellFormed) :
    TlvRoundTrip B o := by
  cases o with
  | comment a => exact tlvRoundTrip_utf8 (by decide) h rfl (writeOptTo_utf8 B a 1)
  | isbStartTime a =>
    exact tlvRoundTrip_read (by decide) (readU64_writeU64_nil B a) (by simp) rfl (writeOptTo_u64 B a 2)
  | isbEndTime a =>
    exact tlvRoundTrip_read (by decide) (readU64_writeU64_nil B a) (by simp) rfl (writeOptTo_u64 B a 3)
  | isbIfRecv a =>
    exact tlvRoundTrip_read (by decide) (readU64_writeU64_nil B a) (by simp) rfl (writeOptTo_u64 B a 4)
  | isbIfDrop a =>
    exact tlvRoundTrip_read (by decide) (readU64_writeU64_nil B a) (by simp) rfl (writeOptTo_u64 B a 5)
  | isbFilterAccept a =>
    exact tlvRoundTrip_read (by decide) (readU64_writeU64_nil B a) (by simp) rfl (writeOptTo_u64 B a 6)
  | isbOsDrop a =>
    exact tlvRoundTrip_read (by decide) (readU64_writeU64_nil B a) (by simp) rfl (writeOptTo_u64 B a 7)
  | isbUsrDeliv a =>
    exact tlvRoundTrip_read (by decide) (readU64_writeU64_nil B a) (by simp) rfl (writeOptTo_u64 B a 8)
  | customBinary a =>
    obtain ⟨code, pen, value⟩ := a
    obtain ⟨rfl | rfl, hl⟩ := h <;>
      exact tlvRoundTrip_customBinary (by simp) hl (fun _ _ => rfl) (writeOptTo_customBinary ..)
  | customUtf8 a =>
    obtain ⟨code, pen, value⟩ := a
    obtain ⟨rfl | rfl, hl⟩ := h <;>
      exact tlvRoundTrip_customUtf8 (by simp) hl (fun _ _ => rfl) (writeOptTo_customUtf8 ..)
  | unknown a =>
    refine tlvRoundTrip_unknown (fun h0 => h.1 (by rw [h0]; decide)) h.2 ?_ (writeOptTo_unknown B a a.code)
    change fromSlice _ _ _ _ = _
    unfold fromSlice
    split <;> first | rfl | exact absurd (‹a.code = _› ▸ h.1) (by decide)

end InterfaceStatisticsOption

/-! ## Section 4: Interface Statistics Block -/

/-- Interface Statistics Block. -/
structure InterfaceStatisticsBlock where
  interfaceId : UInt32
  timestamp : UInt64
  options : List InterfaceStatisticsOption
  deriving DecidableEq, Repr

namespace InterfaceStatisticsBlock

/-- `InterfaceStatisticsBlock::from_slice::<B>`. -/
def fromSlice (B : Endianness) (slice : Bytes) : Outcome (Bytes × InterfaceStatisticsBlock) :=
  if slice.length < 12 then .err (.invalidField "InterfaceStatisticsBlock: block length < 12")
  else do
    let (interface_id, slice) ← unwrap (readU32 B slice)
    let (timestamp, slice) ← unwrap (readU64 B slice)
    let (slice, options) ← optsFromSlice B slice
    pure (slice, ⟨interface_id, timestamp, options⟩)

/-- `InterfaceStatisticsBlock::write_to::<B>`. -/
def writeTo (B : Endianness) (b : InterfaceStatisticsBlock) : Written :=
  let opts := writeOptsTo B b.options
  ⟨writeU32 B b.interfaceId ++ writeU64 B b.timestamp ++ opts.bytes, 12 + opts.count⟩

/-- `InterfaceStatisticsBlock::from_slice` never panics. -/
theorem fromSlice_isPanic (B : Endianness) (s : Bytes) : (fromSlice B s).isPanic = false := by
  unfold fromSlice
  split
  · rfl
  obtain ⟨id, s, rfl⟩ := exists_writeU32 B (s := s) (by omega)
  obtain ⟨ts, s, rfl⟩ := exists_writeU64 B (s := s) (by simp at *; omega)
  simp only [readU32_writeU32, readU64_writeU64, unwrap_some, Outcome.ok_bind]
  exact Outcome.isPanic_bind
    (optsFromSlice_isPanic _ (InterfaceStatisticsOption.fromSlice_isPanic B)) fun _ _ => rfl

/-- **Interface statistics round trip.** -/
theorem fromSlice_writeTo (B : Endianness) (b : InterfaceStatisticsBlock)
    (h : ∀ o ∈ b.options, o.WellFormed) :
    fromSlice B (writeTo B b).bytes = .ok ([], b) := by
  have hopts := optsFromSlice_writeOptsTo (B := B)
    (fun o ho => InterfaceStatisticsOption.tlvRoundTrip (h o ho)) [] (fun _ => rfl)
  rw [List.append_nil] at hopts
  unfold fromSlice writeTo
  simp only [List.append_assoc]
  rw [if_neg (by simp; omega)]
  simp only [readU32_writeU32, readU64_writeU64, unwrap_some, Outcome.ok_bind, hopts]
  rfl

/-- The options of a decoded statistics block are well formed. -/
theorem options_wellFormed {B : Endianness} {s rem : Bytes} {b : InterfaceStatisticsBlock}
    (h : fromSlice B s = .ok (rem, b)) : ∀ o ∈ b.options, o.WellFormed := by
  unfold fromSlice at h
  split at h
  · cases h
  obtain ⟨_, -, h⟩ := Outcome.bind_eq_ok.mp h
  obtain ⟨_, -, h⟩ := Outcome.bind_eq_ok.mp h
  obtain ⟨⟨r, os⟩, ho, h⟩ := Outcome.bind_eq_ok.mp h
  cases h
  exact fun o hmem => InterfaceStatisticsOption.wellFormed_of_readsAs
    (optsFromSlice_readsAs ho o hmem).choose_spec

end InterfaceStatisticsBlock

end PcapFile.PcapNg
