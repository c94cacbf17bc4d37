import PcapFile.PcapNg.Rewrite

/-! # Field widths: the writers' casts and a 32-bit `usize`

    The block writers put values of wider types into fixed-width fields
    with `as` casts, which keep the low bits.  An Enhanced Packet Block
    writes its timestamp, a `Duration` of up to `2^64` seconds, as two
    `u32` halves of its nanosecond count, and its data length as a `u32`;
    an Interface Description Block writes the `u32` code of its link type
    as a `u16`, and reads the code back with `DataLink::from`.  A block reads
    back as itself exactly when every value fits its field and, for the
    link type, is the value `DataLink::from` gives for its code
    (`fixed_width_fields_read_back_iff`).

    The decoders add lengths in `usize`.  The model elsewhere takes the
    64-bit target, where none of these sums can wrap.  On a 32-bit target
    one of them can: `captured_len as usize + pad_len` in
    `EnhancedPacketBlock::from_slice` reaches `2^32` for a captured length
    within three of `2^32`.  With overflow checks the addition panics;
    without them it wraps to zero, passes the length check, and the data
    slice `&slice[..captured_len]` panics.  The 64-bit decoder returns an
    error on the same frame (`captured_len_overflows_on_32bit`).  The other
    sums the decoders make (`initial_len - 8`, and a `u16` length plus its
    padding in the option and record loops) stay far below `2^32`.
-/

namespace PcapFile.PcapNg

/-! ## Section 1: Values wider than their fields -/

/-- **The fixed-width fields keep the low bits.**  In either byte order, an
    Enhanced Packet Block with no option reads back as itself exactly when
    its data is shorter than `2^32` bytes and its timestamp is below `2^64`
    nanoseconds, and an Interface Description Block with no option exactly
    when its link type's code is below `2^16` and the link type is
    canonical. -/
theorem fixed_width_fields_read_back_iff (B : Endianness) :
    (∀ e : EnhancedPacketBlock, e.options = [] →
      (EnhancedPacketBlock.fromSlice B (EnhancedPacketBlock.writeTo B e).bytes = .ok ([], e) ↔
        e.data.length < 2 ^ 32 ∧ e.timestamp.asNanos < 2 ^ 64)) ∧
    (∀ d : InterfaceDescriptionBlock, d.options = [] →
      (InterfaceDescriptionBlock.fromSlice B (InterfaceDescriptionBlock.writeTo B d).bytes =
          .ok ([], d) ↔ d.linktype.toCode.toNat < 2 ^ 16 ∧ d.linktype.Canonical)) := by
  refine ⟨fun e he => ⟨fun h => ?_, fun h => ?_⟩, fun d hd => ⟨fun h => ?_, fun h => ?_⟩⟩
  · obtain ⟨hdata, hts, -⟩ := EnhancedPacketBlock.wellFormed_of_fromSlice h
    exact ⟨hdata, hts⟩
  · exact EnhancedPacketBlock.fromSlice_writeTo B e ⟨h.1, h.2, by simp [he]⟩
  · obtain ⟨hlink, hcan, -⟩ := InterfaceDescriptionBlock.wellFormed_of_fromSlice h
    exact ⟨hlink, hcan⟩
  · exact InterfaceDescriptionBlock.fromSlice_writeTo B d h.1 h.2 (by simp [hd])

example : EnhancedPacketBlock.fromSlice .big
    (EnhancedPacketBlock.writeTo .big ⟨0, ⟨2 ^ 64, by norm_num⟩, 0, [], []⟩).bytes =
      .ok ([], ⟨0, Duration.fromNanos 0, 0, [], []⟩) := by decide

example : InterfaceDescriptionBlock.fromSlice .big
    (InterfaceDescriptionBlock.writeTo .big ⟨.unknown 0x10000, 0xFFFF, []⟩).bytes =
      .ok ([], ⟨.ofCode 0, 0xFFFF, []⟩) := by decide

example : InterfaceDescriptionBlock.fromSlice .big
    (InterfaceDescriptionBlock.writeTo .big ⟨.unknown 1, 0xFFFF, []⟩).bytes =
      .ok ([], ⟨.ethernet, 0xFFFF, []⟩) := by decide

/-! ## Section 2: A 32-bit `usize` -/

/-- A `usize` sum on a 32-bit target: with overflow checks (debug builds) a
    sum of `2^32` or more panics, without them (release builds) it wraps. -/
def usizeAdd32 (overflowChecks : Bool) (a b : Nat) : Outcome Nat :=
  if a + b < 2 ^ 32 then .ok (a + b)
  else if overflowChecks then .panic "attempt to add with overflow"
  else .ok ((a + b) % 2 ^ 32)

namespace EnhancedPacketBlock

/-- `EnhancedPacketBlock::from_slice::<B>` compiled for a 32-bit target:
    `tot_len = captured_len as usize + pad_len` is a `usize` sum. -/
def fromSlice32 (overflowChecks : Bool) (B : Endianness) (slice : Bytes) :
    Outcome (Bytes × EnhancedPacketBlock) :=
  if slice.length < 20 then .err (.invalidField "EnhancedPacketBlock: block length length < 20")
  else do
    let (interface_id, slice) ← unwrap (readU32 B slice)
    let (timestamp_high, slice) ← unwrap (readU32 B slice)
    let (timestamp_low, slice) ← unwrap (readU32 B slice)
    let timestamp := (timestamp_high.toUInt64 <<< 32) + timestamp_low.toUInt64
    let (captured_len, slice) ← unwrap (readU32 B slice)
    let (original_len, slice) ← unwrap (readU32 B slice)
    let pad_len := padLen captured_len.toNat
    let tot_len ← usizeAdd32 overflowChecks captured_len.toNat pad_len
    if slice.length < tot_len then
      .err (.invalidField "EnhancedPacketBlock: captured_len + padding > block length")
    else do
      let data ← sliceTo slice captured_len.toNat
      let slice ← sliceFrom slice tot_len
      let (slice, options) ← optsFromSlice B slice
      pure (slice, ⟨interface_id, Duration.fromNanos timestamp, original_len, data, options⟩)

/-- Where the sum does not reach `2^32`, the 32-bit decoder is the decoder. -/
theorem fromSlice32_eq_fromSlice (c : Bool) (B : Endianness) (id hi lo cap orig : UInt32)
    (rest : Bytes) (h : cap.toNat + padLen cap.toNat < 2 ^ 32) :
    fromSlice32 c B (writeU32 B id ++ (writeU32 B hi ++ (writeU32 B lo ++ (writeU32 B cap ++
      (writeU32 B orig ++ rest))))) =
    fromSlice B (writeU32 B id ++ (writeU32 B hi ++ (writeU32 B lo ++ (writeU32 B cap ++
      (writeU32 B orig ++ rest))))) := by
  unfold fromSlice32 fromSlice
  simp only [readU32_writeU32, unwrap_some, Outcome.ok_bind, usizeAdd32, if_pos h]

/-- A captured length within three of `2^32` takes the sum to `2^32`; the
    32-bit decoder then panics, with or without overflow checks, on every
    slice shorter than `2^31` bytes, the most a 32-bit target can hold. -/
theorem fromSlice32_isPanic (c : Bool) (B : Endianness) (id hi lo cap orig : UInt32) (rest : Bytes)
    (hcap : 2 ^ 32 - 4 < cap.toNat) (hrest : rest.length < 2 ^ 31) :
    (fromSlice32 c B (writeU32 B id ++ (writeU32 B hi ++ (writeU32 B lo ++ (writeU32 B cap ++
      (writeU32 B orig ++ rest)))))).isPanic = true := by
  have hsum : cap.toNat + padLen cap.toNat = 2 ^ 32 := by
    have := padLen_add_mod cap.toNat
    have := padLen_lt cap.toNat
    have := cap.toNat_lt
    omega
  unfold fromSlice32
  rw [if_neg (by simp; omega)]
  simp only [readU32_writeU32, unwrap_some, Outcome.ok_bind, usizeAdd32, hsum, lt_self_iff_false,
    if_false]
  cases c
  · simp only [Bool.false_eq_true, if_false, Nat.mod_self, Outcome.ok_bind, Nat.not_lt_zero,
      sliceTo, if_neg (show ¬cap.toNat ≤ rest.length by omega)]
    rfl
  · rfl

end EnhancedPacketBlock

/-- An Enhanced Packet Block frame, read whole by `next_block`, reaches its
    body decoder. -/
theorem Block.tryFromRawBlock_enhancedPacket (B : Endianness) (len trailer : UInt32)
    (body : Bytes) :
    Block.tryFromRawBlock B ⟨enhancedPacketBlock, len, .borrowed body, trailer⟩ =
      (fun r => Block.enhancedPacket r.2) <$> EnhancedPacketBlock.fromSlice B body := rfl

/-- **A captured length within three of `2^32`.**  An Enhanced Packet Block
    frame whose captured length is within three of `2^32` and whose data is
    shorter than `2^31` bytes: `next_block` hands the body to
    `EnhancedPacketBlock::from_slice`, which on the 64-bit target returns
    an error, so `next_block` does too and keeps its state; compiled for a
    32-bit target, with or without overflow checks, the same decoder panics
    on the same body. -/
theorem captured_len_overflows_on_32bit (c : Bool) (p : PcapNgParser)
    (id hi lo cap orig len : UInt32) (data rest : Bytes)
    (hcap : 2 ^ 32 - 4 < cap.toNat) (hdata : data.length < 2 ^ 31)
    (hlen : data.length + 32 = len.toNat) (h4 : len % 4 = 0) :
    p.nextBlock (writeU32 p.section_.endianness enhancedPacketBlock ++
        (writeU32 p.section_.endianness len ++
          ((writeU32 p.section_.endianness id ++ (writeU32 p.section_.endianness hi ++
            (writeU32 p.section_.endianness lo ++ (writeU32 p.section_.endianness cap ++
              (writeU32 p.section_.endianness orig ++ data))))) ++
          (writeU32 p.section_.endianness len ++ rest)))) =
      (.err (.invalidField "EnhancedPacketBlock: captured_len + padding > block length"), p) ∧
    (EnhancedPacketBlock.fromSlice32 c p.section_.endianness
      (writeU32 p.section_.endianness id ++ (writeU32 p.section_.endianness hi ++
        (writeU32 p.section_.endianness lo ++ (writeU32 p.section_.endianness cap ++
          (writeU32 p.section_.endianness orig ++ data)))))).isPanic = true := by
  refine ⟨?_, EnhancedPacketBlock.fromSlice32_isPanic c _ id hi lo cap orig data hcap hdata⟩
  have hpad := padLen_lt cap.toNat
  rw [PcapNgParser.nextBlock_of_frame p (by decide) (by decide) _ rest (by simp; omega) h4,
    Block.tryFromRawBlock_enhancedPacket, EnhancedPacketBlock.fromSlice_eq, if_pos (by omega)]
  rfl

/-- The largest captured length, no data, a big endian parser. -/
theorem captured_len_max_overflows :
    2 ^ 32 - 4 < (0xFFFFFFFF : UInt32).toNat ∧ ([] : Bytes).length < 2 ^ 31 ∧
      ([] : Bytes).length + 32 = (32 : UInt32).toNat ∧ (32 : UInt32) % 4 = 0 ∧
      (⟨.default, []⟩ : PcapNgParser).nextBlock (writeU32 .big enhancedPacketBlock ++
          (writeU32 .big 32 ++ ((writeU32 .big 0 ++ (writeU32 .big 0 ++ (writeU32 .big 0 ++
            (writeU32 .big 0xFFFFFFFF ++ (writeU32 .big 0 ++ []))))) ++ (writeU32 .big 32 ++ [])))) =
        (.err (.invalidField "EnhancedPacketBlock: captured_len + padding > block length"),
          ⟨.default, []⟩) ∧
      (EnhancedPacketBlock.fromSlice32 true .big (writeU32 .big 0 ++ (writeU32 .big 0 ++
        (writeU32 .big 0 ++ (writeU32 .big 0xFFFFFFFF ++ (writeU32 .big 0 ++ [])))))).isPanic =
        true :=
  ⟨by decide, by decide, by decide, by decide,
    captured_len_overflows_on_32bit true ⟨.default, []⟩ 0 0 0 0xFFFFFFFF 0 32 [] []
      (by decide) (by decide) (by decide) (by decide)⟩

end PcapFile.PcapNg
