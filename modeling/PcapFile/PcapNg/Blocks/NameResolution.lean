import PcapFile.PcapNg.Options

/-! # Name Resolution Block (`blocks/name_resolution.rs`)

    The body is a list of records, each `(type : u16, length : u16, value,
    zero padding)` and the list closed by the end record `(0, 0)`, followed
    by an option list.  An address record's value is the address, then its
    names, each closed by a zero byte.

    Three things about the code that the laws below make precise:

    * `Record::from_slice` skips the value's padding with `&slice[len..]`,
      which panics when the slice ends inside the padding.  On a slice whose
      length is a multiple of four, which is what every framed block body
      is, the skip is in range (`Record.fromSlice_isPanic`).
    * The address record writers count four (IPv4) or sixteen (IPv6) bytes
      for the address, whatever its length (`ipRecordWriteTo_count`); the
      count is what the record's length field and padding are computed
      from.
    * The decoder keeps the names up to the first empty piece between zero
      bytes, and the writer closes every name with a zero byte, so a value
      whose last name is not closed grows by one byte when it is written
      again.
-/

namespace PcapFile.PcapNg

/-! ## Section 1: Address records -/

/-- An `Ipv4Record` or an `Ipv6Record`: an address and the names it resolves
    to.  The two record kinds differ only in the address length the decoder
    takes and the writer counts. -/
structure IpRecord where
  ipAddr : Bytes
  names : List Utf8Str
  deriving DecidableEq, Repr

/-- The names loop of the address record decoders: the pieces of the slice
    between zero bytes, up to the first empty piece, each read as UTF-8. -/
def recordNames : List Bytes → Outcome (List Utf8Str)
  | [] => pure []
  | name :: rest =>
    if name.isEmpty then pure []
    else do
      let n ← fromUtf8 name
      let ns ← recordNames rest
      pure (n :: ns)

/-- `Ipv4Record::from_slice` and `Ipv6Record::from_slice`, for an address of
    `addrLen` bytes. -/
def ipRecordFromSlice (addrLen : Nat) (lenMsg emptyMsg : String) (slice : Bytes) :
    Outcome IpRecord :=
  if slice.length < addrLen + 2 then .err (.invalidField lenMsg)
  else do
    let ip_addr ← sliceTo slice addrLen
    let slice ← sliceFrom slice addrLen
    let names ← recordNames (slice.splitOn 0)
    if names.isEmpty then .err (.invalidField emptyMsg)
    else pure ⟨ip_addr, names⟩

/-- `Ipv4Record::write_to` and `Ipv6Record::write_to`: the address, then
    every name closed by a zero byte; the count starts at `base`. -/
def ipRecordWriteTo (base : Nat) (r : IpRecord) : Written :=
  ⟨r.ipAddr ++ (r.names.map fun n => n.bytes ++ [0]).flatten,
    base + (r.names.map fun n => n.bytes.length + 1).sum⟩

/-- `Ipv4Record::from_slice`. -/
def Ipv4Record.fromSlice (slice : Bytes) : Outcome IpRecord :=
  ipRecordFromSlice 4 "NameResolutionBlock: Ipv4Record len < 6"
    "NameResolutionBlock: Ipv4Record without any name" slice

/-- `Ipv4Record::write_to`. -/
def Ipv4Record.writeTo (r : IpRecord) : Written := ipRecordWriteTo 4 r

/-- `Ipv6Record::from_slice`. -/
def Ipv6Record.fromSlice (slice : Bytes) : Outcome IpRecord :=
  ipRecordFromSlice 16 "NameResolutionBlock: Ipv6Record len < 18"
    "NameResolutionBlock: Ipv6Record without any name" slice

/-- `Ipv6Record::write_to`. -/
def Ipv6Record.writeTo (r : IpRecord) : Written := ipRecordWriteTo 16 r

/-- The count an address record writer returns differs from the number of
    bytes it emits by the difference between `base` and the address
    length. -/
theorem ipRecordWriteTo_count (base : Nat) (r : IpRecord) :
    (ipRecordWriteTo base r).count + r.ipAddr.length = (ipRecordWriteTo base r).bytes.length + base := by
  have : ∀ ns : List Utf8Str, ((ns.map fun n => n.bytes ++ [0]).flatten).length =
      (ns.map fun n => n.bytes.length + 1).sum := by
    intro ns; induction ns with
    | nil => rfl
    | cons n ns ih => simp [ih]; omega
  simp only [ipRecordWriteTo, List.length_append, this]
  omega

theorem recordNames_isPanic (ps : List Bytes) : (recordNames ps).isPanic = false := by
  induction ps with
  | nil => rfl
  | cons p ps ih =>
    unfold recordNames
    split
    · rfl
    · exact Outcome.isPanic_bind (fromUtf8_isPanic p) fun _ _ =>
        Outcome.isPanic_bind ih fun _ _ => rfl

theorem ipRecordFromSlice_isPanic (addrLen : Nat) (lenMsg emptyMsg : String) (s : Bytes) :
    (ipRecordFromSlice addrLen lenMsg emptyMsg s).isPanic = false := by
  unfold ipRecordFromSlice
  split
  · rfl
  rw [sliceTo_of_le (by omega), sliceFrom_of_le (by omega)]
  simp only [Outcome.ok_bind]
  exact Outcome.isPanic_bind (recordNames_isPanic _) fun _ _ => by split <;> rfl

/-- Names with no zero byte, each closed by a zero byte, split back into
    themselves. -/
theorem splitOn_names (ns : List Bytes) (h : ∀ n ∈ ns, (0 : UInt8) ∉ n) (rest : Bytes) :
    ((ns.map fun n => n ++ [0]).flatten ++ rest).splitOn 0 = ns ++ rest.splitOn 0 := by
  induction ns with
  | nil => rfl
  | cons n ns ih =>
    simp only [List.map_cons, List.flatten_cons, List.append_assoc, List.cons_append,
      List.nil_append]
    have hn : ∀ x ∈ n, ¬(x == 0) = true := fun x hx hx0 =>
      h n (List.mem_cons_self _ _) (beq_iff_eq.mp hx0 ▸ hx)
    rw [List.splitOn, List.splitOnP_first _ _ hn _ (beq_self_eq_true _), ← List.splitOn,
      ih (fun m hm => h m (List.mem_cons_of_mem _ hm))]

/-- Names read back: the names of a record, none empty or holding a zero
    byte, are what `recordNames` reads from their encoding. -/
theorem recordNames_names (ns : List Utf8Str) (hne : ∀ n ∈ ns, n.bytes ≠ [])
    (rest : List Bytes) :
    recordNames (ns.map Utf8Str.bytes ++ [] :: rest) = .ok ns := by
  induction ns with
  | nil => rfl
  | cons n ns ih =>
    have h1 : n.bytes.isEmpty = false := by simpa using hne n (by simp)
    show recordNames (n.bytes :: (ns.map Utf8Str.bytes ++ [] :: rest)) = _
    rw [recordNames, if_neg (by simp [h1])]
    simp only [fromUtf8_bytes, Outcome.ok_bind, ih (fun m hm => hne m (by simp [hm]))]
    rfl

/-- The address records that read back as themselves: an address of the
    decoder's length and at least one name, none empty and none holding a
    zero byte. -/
def IpRecord.WellFormed (addrLen : Nat) (r : IpRecord) : Prop :=
  r.ipAddr.length = addrLen ∧ r.names ≠ [] ∧ ∀ n ∈ r.names, n.bytes ≠ [] ∧ (0 : UInt8) ∉ n.bytes

/-- **Address record round trip.** -/
theorem ipRecordFromSlice_writeTo {addrLen base : Nat} {lenMsg emptyMsg : String} {r : IpRecord}
    (h : r.WellFormed addrLen) :
    ipRecordFromSlice addrLen lenMsg emptyMsg (ipRecordWriteTo base r).bytes = .ok r := by
  obtain ⟨hip, hne, hnames⟩ := h
  obtain ⟨n, ns, hns⟩ := List.exists_cons_of_ne_nil hne
  have hflat : (r.names.map fun n => n.bytes ++ [0]).flatten =
      ((r.names.map Utf8Str.bytes).map fun n => n ++ [0]).flatten := by rw [List.map_map]; rfl
  have hsplit := splitOn_names (r.names.map Utf8Str.bytes)
    (by simpa using fun n hn => (hnames n hn).2) []
  rw [List.append_nil, ← hflat] at hsplit
  have hlen : addrLen + 2 ≤ (ipRecordWriteTo base r).bytes.length := by
    have := (hnames n (by simp [hns])).1
    have : 1 ≤ n.bytes.length := List.length_pos.mpr this
    simp [ipRecordWriteTo, hns, hip]; omega
  unfold ipRecordFromSlice
  rw [if_neg (by omega), sliceTo_of_le (by omega), sliceFrom_of_le (by omega)]
  simp only [ipRecordWriteTo, Outcome.ok_bind, ← hip, List.take_left' rfl, List.drop_left' rfl,
    hsplit, List.splitOn_nil, recordNames_names _ (fun n hn => (hnames n hn).1)]
  rw [if_neg (by simpa using hne)]
  rfl

/-! ## Section 2: Records -/

/-- A record of a type the decoder does not know, kept verbatim. -/
structure UnknownRecord where
  type_ : UInt16
  length : UInt16
  value : Bytes
  deriving DecidableEq, Repr

/-- `UnknownRecord::new`. -/
def UnknownRecord.new (type_ length : UInt16) (value : Bytes) : UnknownRecord :=
  ⟨type_, length, value⟩

/-- A Name Resolution record. -/
inductive Record
  | end_
  | ipv4 (a : IpRecord)
  | ipv6 (a : IpRecord)
  | unknown (a : UnknownRecord)
  deriving DecidableEq, Repr

namespace Record

/-- The `match type_` of `Record::from_slice`: the record a value of the
    given type and length decodes to. -/
def ofValue (type_ length : UInt16) (value : Bytes) : Outcome Record :=
  match type_ with
  | 0 =>
    if length ≠ 0 then .err (.invalidField "NameResolutionBlock: nrb_record_end length != 0")
    else pure end_
  | 1 => ipv4 <$> Ipv4Record.fromSlice value
  | 2 => ipv6 <$> Ipv6Record.fromSlice value
  | _ => pure (unknown (UnknownRecord.new type_ length value))

/-- `Record::from_slice::<B>`: the header, the value, and then the skip over
    the value's padding, `&slice[len..]`, which panics when the slice ends
    inside the padding. -/
def fromSlice (B : Endianness) (slice : Bytes) : Outcome (Bytes × Record) := do
  let (type_, slice) ← orIncomplete (readU16 B slice)
  let (length, slice) ← orIncomplete (readU16 B slice)
  let pad_len := padLen length.toNat
  if slice.length < length.toNat then
    .err (.invalidField "NameResolutionBlock: Record length > slice.len()")
  else do
    let value ← sliceTo slice length.toNat
    let record ← ofValue type_ length value
    let rest ← sliceFrom slice (length.toNat + pad_len)
    pure (rest, record)

/-- The header of an address record: the count of the record writer's dry
    run into a sink is the length field and fixes the padding, and the
    writer then emits the record itself. -/
def addrRecordWriteTo (B : Endianness) (type_ : UInt16) (w : Written) : Written :=
  let len := w.count
  let pad_len := padLen len
  ⟨writeU16 B type_ ++ writeU16 B (UInt16.ofNat len) ++ w.bytes ++ zeros pad_len, 4 + len + pad_len⟩

/-- `Record::write_to::<B>`. -/
def writeTo (B : Endianness) : Record → Written
  | end_ => ⟨writeU16 B 0 ++ writeU16 B 0, 4⟩
  | ipv4 a => addrRecordWriteTo B 1 (Ipv4Record.writeTo a)
  | ipv6 a => addrRecordWriteTo B 2 (Ipv6Record.writeTo a)
  | unknown a =>
    let len := a.value.length
    let pad_len := padLen len
    ⟨writeU16 B a.type_ ++ writeU16 B a.length ++ a.value ++ zeros pad_len, 4 + len + pad_len⟩

/-- The decoder once the header is read. -/
theorem fromSlice_eq (B : Endianness) (type_ length : UInt16) (rest : Bytes) :
    fromSlice B (writeU16 B type_ ++ (writeU16 B length ++ rest)) =
    if rest.length < length.toNat then
      .err (.invalidField "NameResolutionBlock: Record length > slice.len()")
    else ofValue type_ length (rest.take length.toNat) >>= fun record =>
      (·, record) <$> sliceFrom rest (length.toNat + padLen length.toNat) := by
  simp only [fromSlice, readU16_writeU16, orIncomplete_some, Outcome.ok_bind]
  split
  · rfl
  · rw [sliceTo_of_le (by omega), Outcome.ok_bind]
    rfl

/-- A record that decodes starts with its header. -/
theorem eq_header_of_fromSlice {B : Endianness} {s rem : Bytes} {r : Record}
    (h : fromSlice B s = .ok (rem, r)) :
    ∃ type_ length rest, s = writeU16 B type_ ++ (writeU16 B length ++ rest) := by
  obtain ⟨⟨t, s₁⟩, h1, h⟩ := Outcome.bind_eq_ok.mp h
  obtain ⟨⟨l, s₂⟩, h2, -⟩ := Outcome.bind_eq_ok.mp h
  exact ⟨t, l, s₂, by rw [eq_writeU16_of_readU16 (orIncomplete_eq_ok.mp h1),
    eq_writeU16_of_readU16 (orIncomplete_eq_ok.mp h2)]⟩

theorem ofValue_isPanic (type_ length : UInt16) (v : Bytes) :
    (ofValue type_ length v).isPanic = false := by
  unfold ofValue Ipv4Record.fromSlice Ipv6Record.fromSlice
  split <;> (try split) <;> simp [ipRecordFromSlice_isPanic]

/-- A decoded record consumes its header, and a multiple of four bytes in
    all. -/
theorem length_of_fromSlice {B : Endianness} {s rem : Bytes} {r : Record}
    (h : fromSlice B s = .ok (rem, r)) :
    rem.length + 4 ≤ s.length ∧ (s.length % 4 = 0 → rem.length % 4 = 0) := by
  obtain ⟨t, l, rest, rfl⟩ := eq_header_of_fromSlice h
  rw [fromSlice_eq] at h
  split at h
  · cases h
  obtain ⟨record, -, h⟩ := Outcome.bind_eq_ok.mp h
  obtain ⟨r', hr, h⟩ := Outcome.map_eq_ok.mp h
  cases h
  obtain ⟨hle, rfl⟩ := sliceFrom_eq_ok hr
  simp only [List.length_append, writeU16_length, List.length_drop]
  have := padLen_add_mod l.toNat
  omega

/-- **No panic on an aligned slice.**  On a slice whose length is a multiple
    of four the skip over the padding stays in range. -/
theorem fromSlice_isPanic (B : Endianness) {s : Bytes} (hs : s.length % 4 = 0) :
    (fromSlice B s).isPanic = false := by
  by_cases h4 : s.length < 4
  · have : s = [] := List.eq_nil_of_length_eq_zero (by omega)
    subst this; rfl
  obtain ⟨t, s, rfl⟩ := exists_writeU16 B (s := s) (by omega)
  obtain ⟨l, rest, rfl⟩ := exists_writeU16 B (s := s) (by simp at h4; omega)
  simp only [List.length_append, writeU16_length] at hs
  rw [fromSlice_eq]
  split
  · rfl
  refine Outcome.isPanic_bind (ofValue_isPanic _ _ _) fun _ _ => ?_
  have := padLen_add_mod l.toNat
  have := padLen_lt l.toNat
  rw [sliceFrom_of_le (by omega)]
  rfl

/-- The records a block holds before its end record that read back as
    themselves: an address record whose encoding fits the `u16` length
    field, or an unknown record of a type the decoder does not know whose
    length field is its value's length. -/
def WellFormed : Record → Prop
  | end_ => False
  | ipv4 a => a.WellFormed 4 ∧ (Ipv4Record.writeTo a).count < 2 ^ 16
  | ipv6 a => a.WellFormed 16 ∧ (Ipv6Record.writeTo a).count < 2 ^ 16
  | unknown a => a.type_ ∉ ([0, 1, 2] : List UInt16) ∧ a.length.toNat = a.value.length

/-- The address record writer's header, read back. -/
theorem fromSlice_addrRecordWriteTo (B : Endianness) (type_ : UInt16) (w : Written)
    (hw : w.Exact) (hlen : w.count < 2 ^ 16) (rest : Bytes) :
    fromSlice B ((addrRecordWriteTo B type_ w).bytes ++ rest) =
      (rest, ·) <$> ofValue type_ (UInt16.ofNat w.count) w.bytes := by
  have hc := toNat_ofNat_u16 hlen
  have hw' : w.count = w.bytes.length := hw
  unfold addrRecordWriteTo
  simp only [List.append_assoc, fromSlice_eq, hc]
  rw [if_neg (by simp [hw']), List.take_left' hw'.symm, ← List.append_assoc w.bytes,
    sliceFrom_of_le (by simp [hw']), List.drop_left' (by simp [hw'])]
  cases ofValue type_ (UInt16.ofNat w.count) w.bytes <;> rfl

/-- **Record round trip.** -/
theorem fromSlice_writeTo (B : Endianness) {r : Record} (h : r.WellFormed) (rest : Bytes) :
    fromSlice B ((writeTo B r).bytes ++ rest) = .ok (rest, r) := by
  cases r with
  | end_ => exact h.elim
  | ipv4 a =>
    have hx : (Ipv4Record.writeTo a).Exact := by
      have := ipRecordWriteTo_count 4 a; rw [h.1.1] at this; exact Nat.add_right_cancel this
    rw [writeTo, fromSlice_addrRecordWriteTo B 1 _ hx h.2]
    show (rest, ·) <$> (ipv4 <$> ipRecordFromSlice 4 _ _ (ipRecordWriteTo 4 a).bytes) = _
    rw [ipRecordFromSlice_writeTo h.1]; rfl
  | ipv6 a =>
    have hx : (Ipv6Record.writeTo a).Exact := by
      have := ipRecordWriteTo_count 16 a; rw [h.1.1] at this; exact Nat.add_right_cancel this
    rw [writeTo, fromSlice_addrRecordWriteTo B 2 _ hx h.2]
    show (rest, ·) <$> (ipv6 <$> ipRecordFromSlice 16 _ _ (ipRecordWriteTo 16 a).bytes) = _
    rw [ipRecordFromSlice_writeTo h.1]; rfl
  | unknown a =>
    obtain ⟨ht, hl⟩ := h
    simp only [writeTo, List.append_assoc, fromSlice_eq]
    have hv : ofValue a.type_ a.length a.value = .ok (unknown a) := by
      unfold ofValue; split <;> simp_all [UnknownRecord.new]
    rw [if_neg (by simp [hl]), List.take_left' hl.symm, hv, Outcome.ok_bind,
      ← List.append_assoc a.value, sliceFrom_of_le (by simp [hl]), List.drop_left' (by simp [hl])]
    rfl

end Record

/-! ## Section 3: Name Resolution options -/

/-- The options of a Name Resolution Block. -/
inductive NameResolutionOption
  | comment (a : Utf8Str)
  | nsDnsName (a : Utf8Str)
  | nsDnsIpv4Addr (a : Bytes)
  | nsDnsIpv6Addr (a : Bytes)
  | customBinary (a : CustomBinaryOption)
  | customUtf8 (a : CustomUtf8Option)
  | unknown (a : UnknownOption)
  deriving DecidableEq, Repr

namespace NameResolutionOption

/-- `NameResolutionOption::from_slice`. -/
def fromSlice (B : Endianness) (code length : UInt16) (slice : Bytes) :
    Outcome NameResolutionOption :=
  match code with
  | 1 => comment <$> fromUtf8 slice
  | 2 => nsDnsName <$> fromUtf8 slice
  | 3 => do
    expectLen slice 4 "NameResolutionOption: NsDnsIpv4Addr length != 4"
    pure (nsDnsIpv4Addr slice)
  | 4 => do
    expectLen slice 16 "NameResolutionOption: NsDnsIpv6Addr length != 16"
    pure (nsDnsIpv6Addr slice)
  | 2988 | 19372 => customUtf8 <$> CustomUtf8Option.fromSlice B code slice
  | 2989 | 19373 => customBinary <$> CustomBinaryOption.fromSlice B code slice
  | _ => pure (unknown (UnknownOption.new code length slice))

/-- `NameResolutionOption::write_to`. -/
def writeTo (B : Endianness) : NameResolutionOption → Written
  | comment a => WriteOptTo.writeOptTo B a 1
  | nsDnsName a => WriteOptTo.writeOptTo B a 2
  | nsDnsIpv4Addr a => WriteOptTo.writeOptTo B a 3
  | nsDnsIpv6Addr a => WriteOptTo.writeOptTo B a 4
  | customBinary a => WriteOptTo.writeOptTo B a a.code
  | customUtf8 a => WriteOptTo.writeOptTo B a a.code
  | unknown a => WriteOptTo.writeOptTo B a a.code

instance : PcapNgOption NameResolutionOption := ⟨fromSlice, writeTo⟩

/-- The options `write_to` emits as a TLV that `from_slice` reads back. -/
def WellFormed : NameResolutionOption → Prop
  | comment a | nsDnsName a => a.bytes.length < 2 ^ 16
  | nsDnsIpv4Addr a => a.length = 4
  | nsDnsIpv6Addr a => a.length = 16
  | customBinary a => (a.code = 2989 ∨ a.code = 19373) ∧ a.value.length + 4 < 2 ^ 16
  | customUtf8 a => (a.code = 2988 ∨ a.code = 19372) ∧ a.value.bytes.length + 4 < 2 ^ 16
  | unknown a =>
    a.code ∉ ([0, 1, 2, 3, 4, 2988, 19372, 2989, 19373] : List UInt16) ∧
      a.length.toNat = a.value.length

theorem fromSlice_isPanic (B : Endianness) (code length : UInt16) (v : Bytes) :
    (fromSlice B code length v).isPanic = false := by
  unfold fromSlice
  split <;> simp [fromUtf8_isPanic, customUtf8_isPanic, customBinary_isPanic, Outcome.isPanic_bind]

/-- Everything the decoder reads from a well-formed TLV is well formed. -/
theorem wellFormed_of_readsAs {B : Endianness} {t : UInt16 × Bytes}
    {o : NameResolutionOption} (h : ReadsAs B t o) : o.WellFormed := by
  obtain ⟨code, v⟩ := t
  obtain ⟨h0, hlen, hd⟩ := h
  change fromSlice B code (UInt16.ofNat v.length) v = .ok o at hd
  unfold fromSlice at hd
  split at hd
  all_goals first
    | (obtain ⟨u, hu, rfl⟩ := Outcome.map_eq_ok.mp hd
       show u.bytes.length < 2 ^ 16
       rwa [bytes_of_fromUtf8 hu])
    | (obtain ⟨u, hu, h⟩ := Outcome.bind_eq_ok.mp hd
       cases h
       exact length_of_expectLen hu)
    | (obtain ⟨a, ha, rfl⟩ := Outcome.map_eq_ok.mp hd
       obtain ⟨hc, hb⟩ := customUtf8_of_fromSlice ha
       exact ⟨by simp [hc], by simp [← hb] at hlen; omega⟩)
    | (obtain ⟨a, ha, rfl⟩ := Outcome.map_eq_ok.mp hd
       obtain ⟨hc, hb⟩ := customBinary_of_fromSlice ha
       exact ⟨by simp [hc], by simp [← hb] at hlen; omega⟩)
    | (cases hd
       exact ⟨by simp_all, toNat_ofNat_u16 hlen⟩)

/-- Every well-formed option is written as a TLV that reads back as itself. -/
theorem tlvRoundTrip {B : Endianness} {o : NameResolutionOption} (h : o.WellFormed) :
    TlvRoundTrip B o := by
  cases o with
  | comment a => exact tlvRoundTrip_utf8 (by decide) h rfl (writeOptTo_utf8 B a 1)
  | nsDnsName a => exact tlvRoundTrip_utf8 (by decide) h rfl (writeOptTo_utf8 B a 2)
  | nsDnsIpv4Addr a =>
    exact tlvRoundTrip_fixed (by decide) rfl h (by decide) (writeOptTo_bytes B a 3)
  | nsDnsIpv6Addr a =>
    exact tlvRoundTrip_fixed (by decide) rfl h (by decide) (writeOptTo_bytes B a 4)
  | customBinary a =>
    obtain ⟨code, pen, value⟩ := a
    obtain ⟨rfl | rfl, hl⟩ := h <;>
      exact tlvRoundTrip_customBinary (by simp) hl (fun _ _ => rfl) (writeOptTo_customBinary ..)
  | customUtf8 a =>
    obtain ⟨code, pen, value⟩ := a
    obtain ⟨rfl | rfl, hl⟩ := h <;>
      exact tlvRoundTrip_customUtf8 (by simp) hl (fun _ _ => rfl) (writeOptTo_customUtf8 ..)
  | unknown a =>
    refine tlvRoundTrip_unknown (fun h0 => h.1 (by rw [h0]; decide)) h.2 ?_ (writeOptTo_unknown B a a.code)
    change fromSlice _ _ _ _ = _
    unfold fromSlice
    split <;> first | rfl | exact absurd (‹a.code = _› ▸ h.1) (by decide)

end NameResolutionOption

/-! ## Section 4: Name Resolution Block -/

/-- Name Resolution Block. -/
structure NameResolutionBlock where
  records : List Record
  options : List NameResolutionOption
  deriving DecidableEq, Repr

namespace NameResolutionBlock

/-- The `loop` of `NameResolutionBlock::from_slice`: records up to the end
    record.  Each pass consumes at least the four header bytes. -/
def recordsLoop (B : Endianness) (slice : Bytes) (records : List Record) :
    Outcome (Bytes × List Record) :=
  match h : Record.fromSlice B slice with
  | .ok (slice', .end_) => .ok (slice', records)
  | .ok (slice', record) =>
    have : slice'.length < slice.length := by
      have := (Record.length_of_fromSlice h).1; omega
    recordsLoop B slice' (records ++ [record])
  | .err e => .err e
  | .panic m => .panic m
termination_by slice.length

/-- `NameResolutionBlock::from_slice::<B>`. -/
def fromSlice (B : Endianness) (slice : Bytes) : Outcome (Bytes × NameResolutionBlock) := do
  let (slice, records) ← recordsLoop B slice []
  let (rem, options) ← optsFromSlice B slice
  pure (rem, ⟨records, options⟩)

/-- `NameResolutionBlock::write_to::<B>`: every record, the end record, then
    the options. -/
def writeTo (B : Endianness) (b : NameResolutionBlock) : Written :=
  Written.concat (b.records.map (Record.writeTo B) ++
    [Record.writeTo B .end_, writeOptsTo B b.options])

theorem recordsLoop_of_end {B : Endianness} {s s' : Bytes} (records : List Record)
    (h : Record.fromSlice B s = .ok (s', .end_)) : recordsLoop B s records = .ok (s', records) := by
  rw [recordsLoop]; split <;> simp_all

theorem recordsLoop_of_ne_end {B : Endianness} {s s' : Bytes} {r : Record} (records : List Record)
    (h : Record.fromSlice B s = .ok (s', r)) (hr : r ≠ .end_) :
    recordsLoop B s records = recordsLoop B s' (records ++ [r]) := by
  rw [recordsLoop]; split <;> simp_all

theorem recordsLoop_of_err {B : Endianness} {s : Bytes} {e : PcapError} (records : List Record)
    (h : Record.fromSlice B s = .err e) : recordsLoop B s records = .err e := by
  rw [recordsLoop]; split <;> simp_all

/-- **The record loop never panics on an aligned slice**: every record
    consumes a multiple of four bytes, so each pass starts aligned. -/
theorem recordsLoop_isPanic (B : Endianness) (s : Bytes) (records : List Record)
    (hs : s.length % 4 = 0) : (recordsLoop B s records).isPanic = false := by
  induction s, records using recordsLoop.induct B with
  | case1 s records s' h => rw [recordsLoop_of_end records h]; rfl
  | case2 s records s' r hr h _ ih =>
    rw [recordsLoop_of_ne_end records h hr]
    exact ih ((Record.length_of_fromSlice h).2 hs)
  | case3 s records e h => rw [recordsLoop_of_err records h]; rfl
  | case4 s records m h =>
    have := Record.fromSlice_isPanic B hs
    rw [h] at this; cases this

/-- `NameResolutionBlock::from_slice` never panics on an aligned slice. -/
theorem fromSlice_isPanic (B : Endianness) {s : Bytes} (hs : s.length % 4 = 0) :
    (fromSlice B s).isPanic = false :=
  Outcome.isPanic_bind (recordsLoop_isPanic B s [] hs) fun _ _ =>
    Outcome.isPanic_bind (optsFromSlice_isPanic _ (NameResolutionOption.fromSlice_isPanic B))
      fun _ _ => rfl

/-- The loop reads back every well-formed record and stops at the end
    record. -/
theorem recordsLoop_writeTo (B : Endianness) {records : List Record}
    (h : ∀ r ∈ records, r.WellFormed) (rest : Bytes) (acc : List Record) :
    recordsLoop B ((records.map fun r => (Record.writeTo B r).bytes).flatten ++
      ((Record.writeTo B .end_).bytes ++ rest)) acc = .ok (rest, acc ++ records) := by
  induction records generalizing acc with
  | nil =>
    rw [List.map_nil, List.flatten_nil, List.nil_append, List.append_nil]
    exact recordsLoop_of_end acc
      (by simp [Record.writeTo, Record.fromSlice_eq, Record.ofValue, padLen, sliceFrom])
  | cons r rs ih =>
    have hr := h r (by simp)
    have hne : r ≠ .end_ := by rintro rfl; exact hr
    rw [List.map_cons, List.flatten_cons, List.append_assoc,
      recordsLoop_of_ne_end acc (Record.fromSlice_writeTo B hr _) hne,
      ih (fun r' hr' => h r' (by simp [hr'])), List.append_assoc, List.singleton_append]

/-- The blocks `write_to` emits so that they read back: well-formed records
    and options. -/
def WellFormed (b : NameResolutionBlock) : Prop :=
  (∀ r ∈ b.records, r.WellFormed) ∧ ∀ o ∈ b.options, o.WellFormed

/-- **Name resolution round trip.** -/
theorem fromSlice_writeTo (B : Endianness) {b : NameResolutionBlock} (h : b.WellFormed) :
    fromSlice B (writeTo B b).bytes = .ok ([], b) := by
  have hopts := optsFromSlice_writeOptsTo (B := B)
    (fun o ho => NameResolutionOption.tlvRoundTrip (h.2 o ho)) [] (fun _ => rfl)
  rw [List.append_nil] at hopts
  have hbytes : (writeTo B b).bytes = (b.records.map fun r => (Record.writeTo B r).bytes).flatten ++
      ((Record.writeTo B .end_).bytes ++ (writeOptsTo B b.options).bytes) := by
    simp [writeTo, Written.concat, Function.comp_def]
  rw [fromSlice, hbytes, recordsLoop_writeTo B h.1, Outcome.ok_bind]
  simp only [List.nil_append, hopts, Outcome.ok_bind]
  rfl

theorem recordsLoop_of_panic {B : Endianness} {s : Bytes} {m : String} (records : List Record)
    (h : Record.fromSlice B s = .panic m) : recordsLoop B s records = .panic m := by
  rw [recordsLoop]; split <;> simp_all

end NameResolutionBlock

/-! ## Section 5: Unaligned slices

    `Record::from_slice` checks that the value fits the slice, but not its
    padding, which it skips with `&slice[len..]`.  Block framing only ever
    hands the decoder bodies whose length is a multiple of four, on which
    the skip stays in range (`NameResolutionBlock.fromSlice_isPanic`); a
    caller of the public `PcapNgBlock::from_slice` may pass any slice. -/

/-- A record of a type code above the three the decoder knows keeps its
    value as it is. -/
theorem Record.ofValue_unknown {t : UInt16} (ht : 3 ≤ t.toNat) (length : UInt16) (v : Bytes) :
    Record.ofValue t length v = pure (.unknown (UnknownRecord.new t length v)) := by
  unfold Record.ofValue
  split <;> first | rfl | exact absurd ht (by decide)

/-- **A record whose padding is missing panics.**  In either byte order, a
    slice holding one record of an unknown type code, whose value ends the
    slice and has a length that is not a multiple of four, makes
    `Record::from_slice` panic when it skips the padding, and so
    `NameResolutionBlock::from_slice` panics on it too. -/
theorem record_padding_past_end (B : Endianness) (t : UInt16) (value : Bytes)
    (ht : 3 ≤ t.toNat) (hv : value.length < 2 ^ 16) (h4 : value.length % 4 ≠ 0) :
    Record.fromSlice B (writeU16 B t ++ (writeU16 B (UInt16.ofNat value.length) ++ value)) =
        .panic "range start index out of range for slice" ∧
      NameResolutionBlock.fromSlice B
          (writeU16 B t ++ (writeU16 B (UInt16.ofNat value.length) ++ value)) =
        .panic "range start index out of range for slice" := by
  have hrec : Record.fromSlice B (writeU16 B t ++ (writeU16 B (UInt16.ofNat value.length) ++ value)) =
      .panic "range start index out of range for slice" := by
    have hl : (UInt16.ofNat value.length).toNat = value.length := toNat_ofNat_u16 hv
    have hpad : 0 < padLen value.length := by
      have := padLen_add_mod value.length
      omega
    rw [Record.fromSlice_eq, hl, if_neg (Nat.lt_irrefl _), Record.ofValue_unknown ht,
      Outcome.pure_eq, Outcome.ok_bind, sliceFrom, if_neg (by omega)]
    rfl
  exact ⟨hrec, by rw [NameResolutionBlock.fromSlice, NameResolutionBlock.recordsLoop_of_panic [] hrec]; rfl⟩

/-- A record of type 3 holding one byte. -/
theorem record_padding_past_end_one_byte :
    3 ≤ (3 : UInt16).toNat ∧ [0xAA].length < 2 ^ 16 ∧ [0xAA].length % 4 ≠ 0 ∧
      Record.fromSlice .big (writeU16 .big 3 ++ (writeU16 .big (UInt16.ofNat [0xAA].length) ++
          [0xAA])) = .panic "range start index out of range for slice" ∧
      NameResolutionBlock.fromSlice .big
          (writeU16 .big 3 ++ (writeU16 .big (UInt16.ofNat [0xAA].length) ++ [0xAA])) =
        .panic "range start index out of range for slice" :=
  ⟨by decide, by decide, by decide,
    record_padding_past_end .big 3 [0xAA] (by decide) (by decide) (by decide)⟩

end PcapFile.PcapNg
