import PcapFile.PcapNg.Options

/-! # Packet blocks

    `blocks/enhanced_packet.rs` and `blocks/simple_packet.rs`, and the
    obsolete Packet Block, whose codec is not part of the sources and is
    modelled from the specification.

    An Enhanced Packet Block stores its timestamp as two `u32` halves of a
    `u64` count of nanoseconds, and its data padded to four bytes.  The
    writer takes the length and the timestamp from the block's own values,
    truncated to `u32` each, so a block reads back as itself exactly when
    its data is shorter than `2^32` bytes and its timestamp shorter than
    `2^64` nanoseconds (`EnhancedPacketBlock.fromSlice_writeTo`); every
    decoded block is such a block (`EnhancedPacketBlock.wellFormed_of_fromSlice`).

    A Simple Packet Block keeps everything after its first field as data,
    padding included, so only a block whose data is already aligned reads
    back as itself (`SimplePacketBlock.fromSlice_writeTo`).

    The Packet Block splits its `u64` timestamp as the Enhanced Packet Block
    does, so every block with data shorter than `2^32` bytes and well-formed
    options reads back as itself (`PacketBlock.fromSlice_writeTo`).
-/

namespace PcapFile.PcapNg

/-! ## Section 1: Durations -/

/-- A `std::time::Duration`, kept as its total number of nanoseconds
    (`as_nanos`): a duration has `u64` seconds and fewer than `10^9`
    nanoseconds. -/
structure Duration where
  asNanos : Nat
  asNanos_lt : asNanos < 2 ^ 64 * 10 ^ 9
  deriving DecidableEq

/-- `Duration::from_nanos`. -/
def Duration.fromNanos (n : UInt64) : Duration :=
  ⟨n.toNat, by have := n.toNat_lt; omega⟩

@[ext] theorem Duration.ext {d e : Duration} (h : d.asNanos = e.asNanos) : d = e := by
  cases d; cases e; cases h; rfl

/-- The two `u32` halves of a timestamp, joined as `EnhancedPacketBlock::from_slice`
    joins them: `(timestamp_high << 32) + timestamp_low`, which cannot
    overflow. -/
theorem toNat_joinHalves (high low : UInt32) :
    ((high.toUInt64 <<< 32) + low.toUInt64).toNat = high.toNat * 2 ^ 32 + low.toNat := by
  have hh := high.toNat_lt
  have hl := low.toNat_lt
  have hshl : (high.toUInt64 <<< 32).toNat = high.toNat * 2 ^ 32 := by
    have h1 : high.toUInt64.toBitVec.toNat = high.toNat := (by simp : high.toUInt64.toNat = _)
    show (high.toUInt64.toBitVec <<< (32 : Nat)).toNat = _
    rw [BitVec.toNat_shiftLeft, Nat.shiftLeft_eq, h1, Nat.mod_eq_of_lt (by omega)]
  rw [UInt64.toNat_add, hshl, Nat.mod_eq_of_lt] <;> simp [UInt64.size]; omega

/-- The halves `write_to` splits a timestamp below `2^64` into join back to it. -/
theorem splitHalves_toNat {t : Nat} (h : t < 2 ^ 64) :
    (UInt32.ofNat (t >>> 32)).toNat * 2 ^ 32 + (UInt32.ofNat (t &&& 0xFFFFFFFF)).toNat = t := by
  have hmask : t &&& 0xFFFFFFFF = t % 2 ^ 32 := Nat.and_pow_two_sub_one_eq_mod t 32
  rw [hmask, Nat.shiftRight_eq_div_pow, toNat_ofNat_u32 (by omega), toNat_ofNat_u32 (by omega)]
  omega

/-- A duration below `2^64` nanoseconds, split into halves as `write_to`
    splits it and joined as `from_slice` joins them, is itself again. -/
theorem Duration.fromNanos_joinHalves {d : Duration} (h : d.asNanos < 2 ^ 64) :
    Duration.fromNanos ((UInt32.ofNat (d.asNanos >>> 32)).toUInt64 <<< 32 +
      (UInt32.ofNat (d.asNanos &&& 0xFFFFFFFF)).toUInt64) = d :=
  Duration.ext ((toNat_joinHalves _ _).trans (splitHalves_toNat h))

/-- A `u64` timestamp split into halves as the Packet Block writer splits
    it (the low half truncated, not masked) and joined as its decoder joins
    them is itself again. -/
theorem joinHalves_splitHalves_u64 (t : UInt64) :
    ((UInt32.ofNat (t.toNat >>> 32)).toUInt64 <<< 32) + (UInt32.ofNat t.toNat).toUInt64 = t := by
  apply UInt64.toNat.inj
  have ht : t.toNat < 2 ^ 64 := t.toNat_lt
  have hlo : (UInt32.ofNat t.toNat).toNat = t.toNat % 2 ^ 32 := rfl
  rw [toNat_joinHalves, hlo, Nat.shiftRight_eq_div_pow, toNat_ofNat_u32 (by omega)]
  omega

/-! ## Section 2: Enhanced Packet options -/

/-- The options of an Enhanced Packet Block. -/
inductive EnhancedPacketOption
  | comment (a : Utf8Str)
  | flags (a : UInt32)
  | hash (a : Bytes)
  | dropCount (a : UInt64)
  | customBinary (a : CustomBinaryOption)
  | customUtf8 (a : CustomUtf8Option)
  | unknown (a : UnknownOption)
  deriving DecidableEq, Repr

namespace EnhancedPacketOption

/-- `EnhancedPacketOption::from_slice`. -/
def fromSlice (B : Endianness) (code length : UInt16) (slice : Bytes) :
    Outcome EnhancedPacketOption :=
  match code with
  | 1 => comment <$> fromUtf8 slice
  | 2 => do
    expectLen slice 4 "EnhancedPacketOption: Flags length != 4"
    flags <$> readValue (readU32 B slice)
  | 3 => pure (hash slice)
  | 4 => do
    expectLen slice 8 "EnhancedPacketOption: DropCount length != 8"
    dropCount <$> readValue (readU64 B slice)
  | 2988 | 19372 => customUtf8 <$> CustomUtf8Option.fromSlice B code slice
  | 2989 | 19373 => customBinary <$> CustomBinaryOption.fromSlice B code slice
  | _ => pure (unknown (UnknownOption.new code length slice))

/-- `EnhancedPacketOption::write_to`. -/
def writeTo (B : Endianness) : EnhancedPacketOption → Written
  | comment a => WriteOptTo.writeOptTo B a 1
  | flags a => WriteOptTo.writeOptTo B a 2
  | hash a => WriteOptTo.writeOptTo B a 3
  | dropCount a => WriteOptTo.writeOptTo B a 4
  | customBinary a => WriteOptTo.writeOptTo B a a.code
  | customUtf8 a => WriteOptTo.writeOptTo B a a.code
  | unknown a => WriteOptTo.writeOptTo B a a.code

instance : PcapNgOption EnhancedPacketOption := ⟨fromSlice, writeTo⟩

/-- The options `write_to` emits as a TLV that `from_slice` reads back. -/
def WellFormed : EnhancedPacketOption → Prop
  | comment a => a.bytes.length < 2 ^ 16
  | hash a => a.length < 2 ^ 16
  | flags _ | dropCount _ => True
  | customBinary a => (a.code = 2989 ∨ a.code = 19373) ∧ a.value.length + 4 < 2 ^ 16
  | customUtf8 a => (a.code = 2988 ∨ a.code = 19372) ∧ a.value.bytes.length + 4 < 2 ^ 16
  | unknown a =>
    a.code ∉ ([0, 1, 2, 3, 4, 2988, 19372, 2989, 19373] : List UInt16) ∧
      a.length.toNat = a.value.length

theorem fromSlice_isPanic (B : Endianness) (code length : UInt16) (v : Bytes) :
    (fromSlice B code length v).isPanic = false := by
  unfold fromSlice
  split <;> simp [fromUtf8_isPanic, customUtf8_isPanic, customBinary_isPanic, Outcome.isPanic_bind]

/-- Everything the decoder reads from a well-formed TLV is well formed. -/
theorem wellFormed_of_readsAs {B : Endianness} {t : UInt16 × Bytes}
    {o : EnhancedPacketOption} (h : ReadsAs B t o) : o.WellFormed := by
  obtain ⟨code, v⟩ := t
  obtain ⟨h0, hlen, hd⟩ := h
  change fromSlice B code (UInt16.ofNat v.length) v = .ok o at hd
  unfold fromSlice at hd
  split at hd
  all_goals first
    | (obtain ⟨u, hu, rfl⟩ := Outcome.map_eq_ok.mp hd
       show u.bytes.length < 2 ^ 16
       rwa [bytes_of_fromUtf8 hu])
    | (obtain ⟨u, hu, h⟩ := Outcome.bind_eq_ok.mp hd
       obtain ⟨x, -, rfl⟩ := Outcome.map_eq_ok.mp h
       trivial)
    | (obtain ⟨a, ha, rfl⟩ := Outcome.map_eq_ok.mp hd
       obtain ⟨hc, hb⟩ := customUtf8_of_fromSlice ha
       exact ⟨by simp [hc], by simp [← hb] at hlen; omega⟩)
    | (obtain ⟨a, ha, rfl⟩ := Outcome.map_eq_ok.mp hd
       obtain ⟨hc, hb⟩ := customBinary_of_fromSlice ha
       exact ⟨by simp [hc], by simp [← hb] at hlen; omega⟩)
    | (cases hd
       first
         | exact hlen
         | exact ⟨by simp_all, toNat_ofNat_u16 hlen⟩)

/-- Every well-formed option is written as a TLV that reads back as itself. -/
theorem tlvRoundTrip {B : Endianness} {o : EnhancedPacketOption} (h : o.WellFormed) :
    TlvRoundTrip B o := by
  cases o with
  | comment a => exact tlvRoundTrip_utf8 (by decide) h rfl (writeOptTo_utf8 B a 1)
  | flags a =>
    exact tlvRoundTrip_checked (by decide) (readU32_writeU32_nil B a) rfl (by simp) (by decide)
      (writeOptTo_u32 B a 2)
  | hash a => exact ⟨(3, a), ⟨by simp, h, rfl⟩, writeOptTo_bytes B a 3⟩
  | dropCount a =>
    exact tlvRoundTrip_checked (by decide) (readU64_writeU64_nil B a) rfl (by simp) (by decide)
      (writeOptTo_u64 B a 4)
  | customBinary a =>
    obtain ⟨code, pen, value⟩ := a
    obtain ⟨rfl | rfl, hl⟩ := h <;>
      exact tlvRoundTrip_customBinary (by simp) hl (fun _ _ => rfl) (writeOptTo_customBinary ..)
  | customUtf8 a =>
    obtain ⟨code, pen, value⟩ := a
    obtain ⟨rfl | rfl, hl⟩ := h <;>
      exact tlvRoundTrip_customUtf8 (by simp) hl (fun _ _ => rfl) (writeOptTo_customUtf8 ..)
  | unknown a =>
    refine tlvRoundTrip_unknown (fun h0 => h.1 (by rw [h0]; decide)) h.2 ?_ (writeOptTo_unknown B a a.code)
    change fromSlice _ _ _ _ = _
    unfold fromSlice
    split <;> first | rfl | exact absurd (‹a.code = _› ▸ h.1) (by decide)

end EnhancedPacketOption

/-! ## Section 3: Enhanced Packet Block -/

/-- Enhanced Packet Block. -/
structure EnhancedPacketBlock where
  interfaceId : UInt32
  timestamp : Duration
  originalLen : UInt32
  data : Bytes
  options : List EnhancedPacketOption
  deriving DecidableEq

namespace EnhancedPacketBlock

/-- `EnhancedPacketBlock::from_slice::<B>`. -/
def fromSlice (B : Endianness) (slice : Bytes) : Outcome (Bytes × EnhancedPacketBlock) :=
  if slice.length < 20 then .err (.invalidField "EnhancedPacketBlock: block length length < 20")
  else do
    let (interface_id, slice) ← unwrap (readU32 B slice)
    let (timestamp_high, slice) ← unwrap (readU32 B slice)
    let (timestamp_low, slice) ← unwrap (readU32 B slice)
    let timestamp := (timestamp_high.toUInt64 <<< 32) + timestamp_low.toUInt64
    let (captured_len, slice) ← unwrap (readU32 B slice)
    let (original_len, slice) ← unwrap (readU32 B slice)
    let pad_len := padLen captured_len.toNat
    let tot_len := captured_len.toNat + pad_len
    if slice.length < tot_len then
      .err (.invalidField "EnhancedPacketBlock: captured_len + padding > block length")
    else do
      let data ← sliceTo slice captured_len.toNat
      let slice ← sliceFrom slice tot_len
      let (slice, options) ← optsFromSlice B slice
      pure (slice, ⟨interface_id, Duration.fromNanos timestamp, original_len, data, options⟩)

/-- `EnhancedPacketBlock::write_to::<B>`: the timestamp's two halves and the
    data length are each truncated to a `u32`. -/
def writeTo (B : Endianness) (b : EnhancedPacketBlock) : Written :=
  let pad_len := padLen b.data.length
  let timestamp := b.timestamp.asNanos
  let opts := writeOptsTo B b.options
  ⟨writeU32 B b.interfaceId ++ writeU32 B (UInt32.ofNat (timestamp >>> 32)) ++
      writeU32 B (UInt32.ofNat (timestamp &&& 0xFFFFFFFF)) ++
      writeU32 B (UInt32.ofNat b.data.length) ++ writeU32 B b.originalLen ++ b.data ++
      zeros pad_len ++ opts.bytes,
    20 + b.data.length + pad_len + opts.count⟩

/-- The blocks `write_to` emits so that they read back: data shorter than
    `2^32` bytes, a timestamp shorter than `2^64` nanoseconds, and
    well-formed options. -/
def WellFormed (b : EnhancedPacketBlock) : Prop :=
  b.data.length < 2 ^ 32 ∧ b.timestamp.asNanos < 2 ^ 64 ∧ ∀ o ∈ b.options, o.WellFormed

/-- The decoder once the five fixed fields are read. -/
theorem fromSlice_eq (B : Endianness) (id hi lo cap orig : UInt32) (rest : Bytes) :
    fromSlice B (writeU32 B id ++ (writeU32 B hi ++ (writeU32 B lo ++ (writeU32 B cap ++
      (writeU32 B orig ++ rest))))) =
    if rest.length < cap.toNat + padLen cap.toNat then
      .err (.invalidField "EnhancedPacketBlock: captured_len + padding > block length")
    else (fun p => (p.1, ⟨id, Duration.fromNanos ((hi.toUInt64 <<< 32) + lo.toUInt64), orig,
      rest.take cap.toNat, p.2⟩)) <$> optsFromSlice B (rest.drop (cap.toNat + padLen cap.toNat)) := by
  unfold fromSlice
  rw [if_neg (by simp; omega)]
  simp only [readU32_writeU32, unwrap_some, Outcome.ok_bind]
  split
  · rfl
  · rw [sliceTo_of_le (by omega), sliceFrom_of_le (by omega)]
    rfl

/-- `EnhancedPacketBlock::from_slice` never panics. -/
theorem fromSlice_isPanic (B : Endianness) (s : Bytes) : (fromSlice B s).isPanic = false := by
  by_cases hs : s.length < 20
  · simp [fromSlice, hs]
  obtain ⟨id, s, rfl⟩ := exists_writeU32 B (s := s) (by omega)
  obtain ⟨hi, s, rfl⟩ := exists_writeU32 B (s := s) (by simp at hs; omega)
  obtain ⟨lo, s, rfl⟩ := exists_writeU32 B (s := s) (by simp at hs; omega)
  obtain ⟨cap, s, rfl⟩ := exists_writeU32 B (s := s) (by simp at hs; omega)
  obtain ⟨orig, s, rfl⟩ := exists_writeU32 B (s := s) (by simp at hs; omega)
  rw [fromSlice_eq]
  split
  · rfl
  · simp [optsFromSlice_isPanic _ (EnhancedPacketOption.fromSlice_isPanic B)]

/-- **Enhanced packet round trip.** -/
theorem fromSlice_writeTo (B : Endianness) (b : EnhancedPacketBlock) (h : b.WellFormed) :
    fromSlice B (writeTo B b).bytes = .ok ([], b) := by
  obtain ⟨hdata, hts, hopts⟩ := h
  have hopts := optsFromSlice_writeOptsTo (B := B)
    (fun o ho => EnhancedPacketOption.tlvRoundTrip (hopts o ho)) [] (fun _ => rfl)
  rw [List.append_nil] at hopts
  have hcap : (UInt32.ofNat b.data.length).toNat = b.data.length := toNat_ofNat_u32 hdata
  unfold writeTo
  simp only [List.append_assoc, fromSlice_eq, hcap]
  rw [if_neg (by simp)]
  rw [List.take_left' rfl, ← List.append_assoc b.data, List.drop_left' (by simp), hopts,
    Duration.fromNanos_joinHalves hts]
  rfl

/-- Every decoded Enhanced Packet Block is well formed. -/
theorem wellFormed_of_fromSlice {B : Endianness} {s rem : Bytes} {b : EnhancedPacketBlock}
    (h : fromSlice B s = .ok (rem, b)) : b.WellFormed := by
  by_cases hs : s.length < 20
  · simp [fromSlice, hs] at h
  obtain ⟨id, s, rfl⟩ := exists_writeU32 B (s := s) (by omega)
  obtain ⟨hi, s, rfl⟩ := exists_writeU32 B (s := s) (by simp at hs; omega)
  obtain ⟨lo, s, rfl⟩ := exists_writeU32 B (s := s) (by simp at hs; omega)
  obtain ⟨cap, s, rfl⟩ := exists_writeU32 B (s := s) (by simp at hs; omega)
  obtain ⟨orig, s, rfl⟩ := exists_writeU32 B (s := s) (by simp at hs; omega)
  rw [fromSlice_eq] at h
  split at h
  · cases h
  obtain ⟨⟨r, os⟩, ho, h⟩ := Outcome.map_eq_ok.mp h
  cases h
  refine ⟨?_, UInt64.toNat_lt _, fun o hmem => ?_⟩
  · simpa [List.length_take] using Nat.lt_of_le_of_lt (Nat.min_le_left _ _) cap.toNat_lt
  · exact EnhancedPacketOption.wellFormed_of_readsAs (optsFromSlice_readsAs ho o hmem).choose_spec

end EnhancedPacketBlock

/-! ## Section 4: Simple Packet Block -/

/-- Simple Packet Block. -/
structure SimplePacketBlock where
  originalLen : UInt32
  data : Bytes
  deriving DecidableEq, Repr

namespace SimplePacketBlock

/-- `SimplePacketBlock::from_slice::<B>`: the data is the whole rest of the
    body. -/
def fromSlice (B : Endianness) (slice : Bytes) : Outcome (Bytes × SimplePacketBlock) :=
  if slice.length < 4 then .err (.invalidField "SimplePacketBlock: block length < 4")
  else do
    let (original_len, slice) ← unwrap (readU32 B slice)
    pure ([], ⟨original_len, slice⟩)

/-- `SimplePacketBlock::write_to::<B>`: the data, then zero padding. -/
def writeTo (B : Endianness) (b : SimplePacketBlock) : Written :=
  let pad_len := padLen b.data.length
  ⟨writeU32 B b.originalLen ++ b.data ++ zeros pad_len, 4 + b.data.length + pad_len⟩

theorem fromSlice_writeU32 (B : Endianness) (orig : UInt32) (rest : Bytes) :
    fromSlice B (writeU32 B orig ++ rest) = .ok ([], ⟨orig, rest⟩) := by
  simp [fromSlice]

/-- `SimplePacketBlock::from_slice` never panics. -/
theorem fromSlice_isPanic (B : Endianness) (s : Bytes) : (fromSlice B s).isPanic = false := by
  by_cases hs : s.length < 4
  · simp [fromSlice, hs]
  obtain ⟨orig, s, rfl⟩ := exists_writeU32 B (s := s) (by omega)
  rw [fromSlice_writeU32]; rfl

/-- **Simple packet round trip.**  The padding `write_to` adds is read back as
    data, so a block reads back as itself when its data is aligned. -/
theorem fromSlice_writeTo (B : Endianness) (b : SimplePacketBlock) :
    fromSlice B (writeTo B b).bytes = .ok ([], ⟨b.originalLen, b.data ++ zeros (padLen b.data.length)⟩) := by
  simp only [writeTo, List.append_assoc, fromSlice_writeU32]

theorem fromSlice_writeTo_of_aligned (B : Endianness) (b : SimplePacketBlock)
    (h : b.data.length % 4 = 0) : fromSlice B (writeTo B b).bytes = .ok ([], b) := by
  rw [fromSlice_writeTo, show padLen b.data.length = 0 by unfold padLen; omega]
  simp [zeros]

/-- A decoded Simple Packet Block's data is the body without its first field. -/
theorem length_of_fromSlice {B : Endianness} {s rem : Bytes} {b : SimplePacketBlock}
    (h : fromSlice B s = .ok (rem, b)) : b.data.length + 4 = s.length := by
  by_cases hs : s.length < 4
  · simp [fromSlice, hs] at h
  obtain ⟨orig, s, rfl⟩ := exists_writeU32 B (s := s) (by omega)
  rw [fromSlice_writeU32] at h
  cases h
  simp [Nat.add_comm]

end SimplePacketBlock

/-! ## Section 5: The obsolete Packet Block -/

/-- Modelled from the spec: the options of the obsolete Packet Block, those of
    the pcapng format's Packet Block (a comment, the link-layer flags and a
    hash), with the custom and unknown options every block has. -/
inductive PacketOption
  | comment (a : Utf8Str)
  | flags (a : UInt32)
  | hash (a : Bytes)
  | customBinary (a : CustomBinaryOption)
  | customUtf8 (a : CustomUtf8Option)
  | unknown (a : UnknownOption)
  deriving DecidableEq, Repr

namespace PacketOption

/-- Modelled from the spec: the decoder of the Packet Block options, with
    the value checks of the Enhanced Packet options. -/
def fromSlice (B : Endianness) (code length : UInt16) (slice : Bytes) : Outcome PacketOption :=
  match code with
  | 1 => comment <$> fromUtf8 slice
  | 2 => do
    expectLen slice 4 "PacketOption: Flags length != 4"
    flags <$> readValue (readU32 B slice)
  | 3 => pure (hash slice)
  | 2988 | 19372 => customUtf8 <$> CustomUtf8Option.fromSlice B code slice
  | 2989 | 19373 => customBinary <$> CustomBinaryOption.fromSlice B code slice
  | _ => pure (unknown (UnknownOption.new code length slice))

/-- Modelled from the spec: the writer of the Packet Block options. -/
def writeTo (B : Endianness) : PacketOption → Written
  | comment a => WriteOptTo.writeOptTo B a 1
  | flags a => WriteOptTo.writeOptTo B a 2
  | hash a => WriteOptTo.writeOptTo B a 3
  | customBinary a => WriteOptTo.writeOptTo B a a.code
  | customUtf8 a => WriteOptTo.writeOptTo B a a.code
  | unknown a => WriteOptTo.writeOptTo B a a.code

instance : PcapNgOption PacketOption := ⟨fromSlice, writeTo⟩

theorem fromSlice_isPanic (B : Endianness) (code length : UInt16) (v : Bytes) :
    (fromSlice B code length v).isPanic = false := by
  unfold fromSlice
  split <;> simp [fromUtf8_isPanic, customUtf8_isPanic, customBinary_isPanic, Outcome.isPanic_bind]

/-- The options the writer emits as a TLV that the decoder reads back. -/
def WellFormed : PacketOption → Prop
  | comment a => a.bytes.length < 2 ^ 16
  | hash a => a.length < 2 ^ 16
  | flags _ => True
  | customBinary a => (a.code = 2989 ∨ a.code = 19373) ∧ a.value.length + 4 < 2 ^ 16
  | customUtf8 a => (a.code = 2988 ∨ a.code = 19372) ∧ a.value.bytes.length + 4 < 2 ^ 16
  | unknown a =>
    a.code ∉ ([0, 1, 2, 3, 2988, 19372, 2989, 19373] : List UInt16) ∧
      a.length.toNat = a.value.length

/-- Every well-formed option is written as a TLV that reads back as itself. -/
theorem tlvRoundTrip {B : Endianness} {o : PacketOption} (h : o.WellFormed) :
    TlvRoundTrip B o := by
  cases o with
  | comment a => exact tlvRoundTrip_utf8 (by decide) h rfl (writeOptTo_utf8 B a 1)
  | flags a =>
    exact tlvRoundTrip_checked (by decide) (readU32_writeU32_nil B a) rfl (by simp) (by decide)
      (writeOptTo_u32 B a 2)
  | hash a => exact ⟨(3, a), ⟨by simp, h, rfl⟩, writeOptTo_bytes B a 3⟩
  | customBinary a =>
    obtain ⟨code, pen, value⟩ := a
    obtain ⟨rfl | rfl, hl⟩ := h <;>
      exact tlvRoundTrip_customBinary (by simp) hl (fun _ _ => rfl) (writeOptTo_customBinary ..)
  | customUtf8 a =>
    obtain ⟨code, pen, value⟩ := a
    obtain ⟨rfl | rfl, hl⟩ := h <;>
      exact tlvRoundTrip_customUtf8 (by simp) hl (fun _ _ => rfl) (writeOptTo_customUtf8 ..)
  | unknown a =>
    refine tlvRoundTrip_unknown (fun h0 => h.1 (by rw [h0]; decide)) h.2 ?_ (writeOptTo_unknown B a a.code)
    change fromSlice _ _ _ _ = _
    unfold fromSlice
    split <;> first | rfl | exact absurd (‹a.code = _› ▸ h.1) (by decide)

end PacketOption

/-- Modelled from the spec: the obsolete Packet Block, whose layout mirrors
    the format before the Enhanced Packet Block: a `u16` interface id, a
    `u16` drop count, a timestamp in two `u32` halves, the captured and
    original lengths, the data padded to four bytes, then options. -/
structure PacketBlock where
  interfaceId : UInt16
  dropCount : UInt16
  timestamp : UInt64
  originalLen : UInt32
  data : Bytes
  options : List PacketOption
  deriving DecidableEq, Repr

namespace PacketBlock

/-- Modelled from the spec: the Packet Block decoder, with the checks of the
    Enhanced Packet Block decoder. -/
def fromSlice (B : Endianness) (slice : Bytes) : Outcome (Bytes × PacketBlock) :=
  if slice.length < 20 then .err (.invalidField "PacketBlock: block length < 20")
  else do
    let (interface_id, slice) ← unwrap (readU16 B slice)
    let (drop_count, slice) ← unwrap (readU16 B slice)
    let (timestamp_high, slice) ← unwrap (readU32 B slice)
    let (timestamp_low, slice) ← unwrap (readU32 B slice)
    let timestamp := (timestamp_high.toUInt64 <<< 32) + timestamp_low.toUInt64
    let (captured_len, slice) ← unwrap (readU32 B slice)
    let (original_len, slice) ← unwrap (readU32 B slice)
    let tot_len := captured_len.toNat + padLen captured_len.toNat
    if slice.length < tot_len then
      .err (.invalidField "PacketBlock: captured_len + padding > block length")
    else do
      let data ← sliceTo slice captured_len.toNat
      let slice ← sliceFrom slice tot_len
      let (slice, options) ← optsFromSlice B slice
      pure (slice, ⟨interface_id, drop_count, timestamp, original_len, data, options⟩)

/-- Modelled from the spec: the Packet Block writer. -/
def writeTo (B : Endianness) (b : PacketBlock) : Written :=
  let pad_len := padLen b.data.length
  let opts := writeOptsTo B b.options
  ⟨writeU16 B b.interfaceId ++ writeU16 B b.dropCount ++
      writeU32 B (UInt32.ofNat (b.timestamp.toNat >>> 32)) ++
      writeU32 B (UInt32.ofNat b.timestamp.toNat) ++ writeU32 B (UInt32.ofNat b.data.length) ++
      writeU32 B b.originalLen ++ b.data ++ zeros pad_len ++ opts.bytes,
    20 + b.data.length + pad_len + opts.count⟩

/-- The Packet Block decoder never panics. -/
theorem fromSlice_isPanic (B : Endianness) (s : Bytes) : (fromSlice B s).isPanic = false := by
  by_cases hs : s.length < 20
  · simp [fromSlice, hs]
  obtain ⟨id, s, rfl⟩ := exists_writeU16 B (s := s) (by omega)
  obtain ⟨dc, s, rfl⟩ := exists_writeU16 B (s := s) (by simp at hs; omega)
  obtain ⟨hi, s, rfl⟩ := exists_writeU32 B (s := s) (by simp at hs; omega)
  obtain ⟨lo, s, rfl⟩ := exists_writeU32 B (s := s) (by simp at hs; omega)
  obtain ⟨cap, s, rfl⟩ := exists_writeU32 B (s := s) (by simp at hs; omega)
  obtain ⟨orig, s, rfl⟩ := exists_writeU32 B (s := s) (by simp at hs; omega)
  unfold fromSlice
  rw [if_neg (by simp; omega)]
  simp only [readU16_writeU16, readU32_writeU32, unwrap_some, Outcome.ok_bind]
  split
  · rfl
  simp only [sliceTo_of_le (by omega : cap.toNat ≤ s.length),
    sliceFrom_of_le (by omega : cap.toNat + padLen cap.toNat ≤ s.length), Outcome.ok_bind]
  exact Outcome.isPanic_bind (optsFromSlice_isPanic _ (PacketOption.fromSlice_isPanic B))
    fun _ _ => rfl

/-- The blocks the writer emits so that they read back: data shorter than
    `2^32` bytes and well-formed options.  Every `u64` timestamp survives
    the split into halves. -/
def WellFormed (b : PacketBlock) : Prop :=
  b.data.length < 2 ^ 32 ∧ ∀ o ∈ b.options, o.WellFormed

/-- **Packet round trip.** -/
theorem fromSlice_writeTo (B : Endianness) (b : PacketBlock) (h : b.WellFormed) :
    fromSlice B (writeTo B b).bytes = .ok ([], b) := by
  obtain ⟨hdata, hopts⟩ := h
  have hopts := optsFromSlice_writeOptsTo (B := B)
    (fun o ho => PacketOption.tlvRoundTrip (hopts o ho)) [] (fun _ => rfl)
  rw [List.append_nil] at hopts
  have hcap : (UInt32.ofNat b.data.length).toNat = b.data.length := toNat_ofNat_u32 hdata
  unfold fromSlice writeTo
  rw [if_neg (by simp; omega)]
  simp only [List.append_assoc, readU16_writeU16, readU32_writeU32, unwrap_some, Outcome.ok_bind,
    hcap]
  rw [if_neg (by simp), sliceTo_of_le (by simp), sliceFrom_of_le (by simp), List.take_left' rfl,
    ← List.append_assoc b.data, List.drop_left' (by simp), Outcome.ok_bind, Outcome.ok_bind, hopts,
    joinHalves_splitHalves_u64]
  rfl

end PacketBlock

end PcapFile.PcapNg
