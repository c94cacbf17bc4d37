import PcapFile.Utf8

/-! # Option lists (`blocks/opt_common.rs`)

    Every pcapng block ends with a list of options, each a TLV
    `(code : u16, length : u16, value, zero padding to four bytes)`.  One loop,
    `opts_from_slice`, reads the list for every block kind and hands the value
    of each TLV to the block's own option decoder (the `PcapNgOption` trait);
    `write_opts_to` writes each option and then, when at least one was
    written, the end-of-options marker `(0, 0)`.

    The loop is split as the code is: `optPass` is one pass of the
    `while !slice.is_empty()` loop, and `optsLoop` repeats it.  Every pass
    that continues consumes at least the four header bytes
    (`optPass_next_length`), which is the termination argument of the loop.
    Note what the loop does when the slice runs out: it leaves the `while`
    and returns `InvalidField("Invalid option")`, so a non-empty option list
    is only accepted when it ends with the end-of-options marker.
-/

namespace PcapFile.PcapNg

/-! ## Section 1: Option values shared by the blocks -/

/-- An option whose code the block does not know, kept verbatim. -/
structure UnknownOption where
  code : UInt16
  length : UInt16
  value : Bytes
  deriving DecidableEq, Repr

/-- `UnknownOption::new`. -/
def UnknownOption.new (code length : UInt16) (value : Bytes) : UnknownOption :=
  ⟨code, length, value⟩

@[simp] theorem UnknownOption.new_eq (code length : UInt16) (value : Bytes) :
    UnknownOption.new code length value = ⟨code, length, value⟩ := rfl

/-- An unknown option whose length field is its value's length. -/
theorem UnknownOption.ofNat_length {a : UnknownOption} (h : a.length.toNat = a.value.length) :
    UInt16.ofNat a.value.length = a.length := by
  rw [← h, ofNat_toNat_u16]

/-- A custom option with binary data: a private enterprise number, then bytes. -/
structure CustomBinaryOption where
  code : UInt16
  pen : UInt32
  value : Bytes
  deriving DecidableEq, Repr

/-- A custom option with UTF-8 data: a private enterprise number, then a string. -/
structure CustomUtf8Option where
  code : UInt16
  pen : UInt32
  value : Utf8Str
  deriving DecidableEq, Repr

/-- `CustomBinaryOption::from_slice`. -/
def CustomBinaryOption.fromSlice (B : Endianness) (code : UInt16) (src : Bytes) :
    Outcome CustomBinaryOption := do
  let (pen, src) ← orIncomplete (readU32 B src)
  pure { code, pen, value := src }

/-- `CustomUtf8Option::from_slice`. -/
def CustomUtf8Option.fromSlice (B : Endianness) (code : UInt16) (src : Bytes) :
    Outcome CustomUtf8Option := do
  let (pen, src) ← orIncomplete (readU32 B src)
  let value ← fromUtf8 src
  pure { code, pen, value }

/-- `if slice.len() != n { return Err(PcapError::InvalidField(msg)) }`, the
    length check of an option value of fixed size. -/
def expectLen (slice : Bytes) (n : Nat) (msg : String) : Outcome Unit :=
  if slice.length ≠ n then .err (.invalidField msg) else pure ()

/-- The value of `slice.read_x().map_err(|_| PcapError::IncompleteBuffer)?`. -/
def readValue {β : Type} (r : Option (β × Bytes)) : Outcome β :=
  Prod.fst <$> orIncomplete r

theorem expectLen_of_eq {s : Bytes} {n : Nat} (msg : String) (h : s.length = n) :
    expectLen s n msg = .ok () := if_neg (not_not.mpr h)

theorem length_of_expectLen {s : Bytes} {n : Nat} {msg : String} {u : Unit}
    (h : expectLen s n msg = .ok u) : s.length = n := by
  by_contra hne
  simp [expectLen, hne] at h

@[simp] theorem readValue_some {β : Type} (b : β) (r : Bytes) : readValue (some (b, r)) = .ok b :=
  rfl

@[simp] theorem readValue_none {β : Type} : readValue (none : Option (β × Bytes)) =
    .err .incompleteBuffer := rfl

@[simp] theorem expectLen_isPanic (s : Bytes) (n : Nat) (msg : String) :
    (expectLen s n msg).isPanic = false := by
  unfold expectLen; split <;> rfl

@[simp] theorem readValue_isPanic {β : Type} (r : Option (β × Bytes)) :
    (readValue r).isPanic = false := by
  cases r <;> rfl

/-! ## Section 2: Writing one option (`WriteOptTo`) -/

/-- A TLV whose value is a byte string: the code, `len as u16`, the value and
    its zero padding.  The count is `len + pad_len + 4`. -/
def writeOptBytes (B : Endianness) (code : UInt16) (value : Bytes) : Written :=
  ⟨writeU16 B code ++ writeU16 B (UInt16.ofNat value.length) ++ value ++
      zeros (padLen value.length),
    value.length + padLen value.length + 4⟩

/-- A custom option: the code, `(len + 4) as u16`, the enterprise number, the
    data and its padding. -/
def writeCustomOpt (B : Endianness) (code : UInt16) (pen : UInt32) (value : Bytes) : Written :=
  let len := value.length + 4
  ⟨writeU16 B code ++ writeU16 B (UInt16.ofNat len) ++ writeU32 B pen ++ value ++
      zeros (padLen len),
    len + padLen len + 4⟩

/-- The `WriteOptTo` trait: the TLV of a value under a given code. -/
class WriteOptTo (α : Type) where
  writeOptTo : Endianness → α → UInt16 → Written

instance : WriteOptTo Bytes := ⟨fun B a code => writeOptBytes B code a⟩

instance : WriteOptTo Utf8Str := ⟨fun B a code => writeOptBytes B code a.bytes⟩

instance : WriteOptTo UInt8 :=
  ⟨fun B a code => ⟨writeU16 B code ++ writeU16 B 1 ++ [a] ++ zeros 3, 8⟩⟩

instance : WriteOptTo UInt16 :=
  ⟨fun B a code => ⟨writeU16 B code ++ writeU16 B 2 ++ writeU16 B a ++ zeros 2, 8⟩⟩

instance : WriteOptTo UInt32 :=
  ⟨fun B a code => ⟨writeU16 B code ++ writeU16 B 4 ++ writeU32 B a, 8⟩⟩

instance : WriteOptTo UInt64 :=
  ⟨fun B a code => ⟨writeU16 B code ++ writeU16 B 8 ++ writeU64 B a, 12⟩⟩

instance : WriteOptTo CustomBinaryOption :=
  ⟨fun B a code => writeCustomOpt B code a.pen a.value⟩

instance : WriteOptTo CustomUtf8Option :=
  ⟨fun B a code => writeCustomOpt B code a.pen a.value.bytes⟩

instance : WriteOptTo UnknownOption := ⟨fun B a code => writeOptBytes B code a.value⟩

/-! ## Section 3: The option trait and the list loop -/

/-- The `PcapNgOption` trait of one option enumeration. -/
class PcapNgOption (α : Type) where
  /-- `from_slice::<B>(code, length, value)`. -/
  fromSlice : Endianness → UInt16 → UInt16 → Bytes → Outcome α
  /-- `write_to::<B>`, the TLV of the option. -/
  writeTo : Endianness → α → Written

/-- How one pass of the option loop ends: at the end-of-options marker, with
    the bytes after it, or with an option and the bytes after its padding. -/
inductive OptPass (α : Type)
  | stop (rem : Bytes)
  | next (opt : α) (rem : Bytes)
  deriving DecidableEq, Repr

variable {α : Type} [PcapNgOption α]

/-- One pass of the `while !slice.is_empty()` loop of `opts_from_slice`. -/
def optPass (B : Endianness) (slice : Bytes) : Outcome (OptPass α) :=
  if slice.length < 4 then .err (.invalidField "Option: slice.len() < 4")
  else do
    let (code, slice) ← unwrap (readU16 B slice)
    let (length, slice) ← unwrap (readU16 B slice)
    let length := length.toNat
    let pad_len := padLen length
    if code = 0 then pure (.stop slice)
    else if slice.length < length + pad_len then
      .err (.invalidField "Option: length + pad.len() > slice.len()")
    else do
      let tmp_slice ← sliceTo slice length
      let opt ← PcapNgOption.fromSlice B code (UInt16.ofNat length) tmp_slice
      let slice ← sliceFrom slice (length + pad_len)
      pure (.next opt slice)

/-- Every slice of at least four bytes is a TLV header followed by a body. -/
theorem exists_header (B : Endianness) {s : Bytes} (h : 4 ≤ s.length) :
    ∃ code length body, s = writeU16 B code ++ writeU16 B length ++ body := by
  obtain ⟨code, r, rfl⟩ := exists_writeU16 B (s := s) (by omega)
  obtain ⟨length, body, rfl⟩ := exists_writeU16 B (s := r) (by simp at h; omega)
  exact ⟨code, length, body, by simp⟩

/-- **One pass, on a TLV header.**  Everything `optPass` does, stated on the
    header's fields. -/
theorem optPass_header (B : Endianness) (code length : UInt16) (body : Bytes) :
    (optPass B (writeU16 B code ++ writeU16 B length ++ body) : Outcome (OptPass α)) =
      if code = 0 then .ok (.stop body)
      else if body.length < length.toNat + padLen length.toNat then
        .err (.invalidField "Option: length + pad.len() > slice.len()")
      else (fun o => .next o (body.drop (length.toNat + padLen length.toNat))) <$>
        PcapNgOption.fromSlice B code length (body.take length.toNat) := by
  simp only [optPass, List.append_assoc, List.length_append, writeU16_length,
    readU16_writeU16, unwrap_some, Outcome.ok_bind, ofNat_toNat_u16,
    show ¬ 2 + (2 + body.length) < 4 by omega, if_false]
  split_ifs with h0 h1
  · rfl
  · rfl
  · rw [sliceTo_of_le (by omega), Outcome.ok_bind, sliceFrom_of_le (by omega)]
    cases (PcapNgOption.fromSlice B code length (body.take length.toNat) : Outcome α) <;> rfl

/-- **A pass that continues**: it read a header with a non-zero code and a
    length that fits the slice, decoded the value, and skipped its padding. -/
theorem optPass_eq_next {B : Endianness} {s rem : Bytes} {o : α}
    (h : optPass B s = .ok (.next o rem)) :
    ∃ code length body, s = writeU16 B code ++ writeU16 B length ++ body ∧ code ≠ 0 ∧
      length.toNat + padLen length.toNat ≤ body.length ∧
      PcapNgOption.fromSlice B code length (body.take length.toNat) = .ok o ∧
      rem = body.drop (length.toNat + padLen length.toNat) := by
  by_cases hs : 4 ≤ s.length
  · obtain ⟨code, length, body, rfl⟩ := exists_header B hs
    rw [optPass_header] at h
    by_cases h0 : code = 0
    · simp [h0] at h
    by_cases h1 : body.length < length.toNat + padLen length.toNat
    · simp [h0, h1] at h
    rw [if_neg h0, if_neg h1] at h
    obtain ⟨o', hd, hn⟩ := Outcome.map_eq_ok.mp h
    cases hn
    exact ⟨code, length, body, rfl, h0, by omega, hd, rfl⟩
  · simp [optPass, show s.length < 4 by omega] at h

/-- A pass that continues consumes at least the four header bytes. -/
theorem optPass_next_length {B : Endianness} {s rem : Bytes} {o : α}
    (h : optPass B s = .ok (.next o rem)) : rem.length + 4 ≤ s.length := by
  obtain ⟨code, length, body, rfl, -, -, -, rfl⟩ := optPass_eq_next h
  simp only [List.length_drop, List.length_append, writeU16_length]
  omega

/-- The `while !slice.is_empty()` loop of `opts_from_slice`, collecting the
    options read so far in `options`. -/
def optsLoop (B : Endianness) (slice : Bytes) (options : List α) : Outcome (Bytes × List α) :=
  if slice = [] then .err (.invalidField "Invalid option")
  else
    match h : optPass B slice with
    | .ok (.stop rem) => .ok (rem, options)
    | .ok (.next opt rem) => optsLoop B rem (options ++ [opt])
    | .err e => .err e
    | .panic m => .panic m
termination_by slice.length
decreasing_by have := optPass_next_length h; omega

/-- `opts_from_slice::<B>`: the options of a block, and the bytes after the
    end-of-options marker. -/
def optsFromSlice (B : Endianness) (slice : Bytes) : Outcome (Bytes × List α) :=
  if slice = [] then .ok (slice, []) else optsLoop B slice []

/-- `write_opts_to::<B>`: every option, then the end-of-options marker when at
    least one option was written. -/
def writeOptsTo (B : Endianness) (opts : List α) : Written :=
  let written := Written.concat (opts.map (PcapNgOption.writeTo B))
  if opts.isEmpty then written
  else ⟨written.bytes ++ writeU16 B 0 ++ writeU16 B 0, written.count + 4⟩

/-! ## Section 4: Laws of the option loop -/

/-- The TLV `(code, value)` as `writeOptBytes` emits it. -/
def tlv (B : Endianness) (code : UInt16) (value : Bytes) : Bytes :=
  (writeOptBytes B code value).bytes

/-- `(code, value)` is a well-formed TLV that the decoder reads as `o`: a
    non-zero code, a value that fits the length field, and a value the
    code's decoder accepts. -/
def ReadsAs (B : Endianness) (t : UInt16 × Bytes) (o : α) : Prop :=
  t.1 ≠ 0 ∧ t.2.length < 2 ^ 16 ∧
    PcapNgOption.fromSlice B t.1 (UInt16.ofNat t.2.length) t.2 = .ok o

/-- `o` is written as a well-formed TLV that reads back as `o`. -/
def TlvRoundTrip (B : Endianness) (o : α) : Prop :=
  ∃ t : UInt16 × Bytes, ReadsAs B t o ∧ (PcapNgOption.writeTo B o).bytes = tlv B t.1 t.2

theorem tlv_eq (B : Endianness) (code : UInt16) (value : Bytes) :
    tlv B code value =
      writeU16 B code ++ writeU16 B (UInt16.ofNat value.length) ++
        (value ++ zeros (padLen value.length)) := by
  simp [tlv, writeOptBytes]

theorem tlv_ne_nil (B : Endianness) (code : UInt16) (value : Bytes) : tlv B code value ≠ [] := by
  simp [tlv_eq]

theorem optPass_tlv {B : Endianness} {code : UInt16} {value : Bytes} {o : α}
    (h : ReadsAs B (code, value) o) (rest : Bytes) :
    optPass B (tlv B code value ++ rest) = .ok (.next o rest) := by
  obtain ⟨h0, hlen, hd⟩ := h
  have hl : (UInt16.ofNat value.length).toNat = value.length := toNat_ofNat_u16 hlen
  rw [tlv_eq, List.append_assoc, optPass_header, if_neg h0, hl, if_neg (by simp),
    List.append_assoc, List.take_left' rfl, hd]
  simp

/-- A pass that continues read its option from a well-formed TLV. -/
theorem readsAs_of_optPass {B : Endianness} {s rem : Bytes} {o : α}
    (h : optPass B s = .ok (.next o rem)) : ∃ t, ReadsAs B t o := by
  obtain ⟨code, length, body, -, h0, hle, hd, -⟩ := optPass_eq_next h
  have hlen : (body.take length.toNat).length = length.toNat := by
    simp only [List.length_take]; omega
  exact ⟨(code, body.take length.toNat), h0, by rw [hlen]; exact length.toNat_lt,
    by simpa [hlen] using hd⟩

theorem optsLoop_nil (B : Endianness) (options : List α) :
    optsLoop B [] options = .err (.invalidField "Invalid option") := by
  rw [optsLoop]; rfl

/-- The loop on a non-empty slice runs one pass and continues as it says. -/
theorem optsLoop_of_ne_nil {B : Endianness} {s : Bytes} (hs : s ≠ []) (options : List α) :
    optsLoop B s options =
      match optPass B s with
      | .ok (.stop rem) => .ok (rem, options)
      | .ok (.next opt rem) => optsLoop B rem (options ++ [opt])
      | .err e => .err e
      | .panic m => .panic m := by
  rw [optsLoop, if_neg hs]
  split <;> simp_all

/-- The end-of-options marker `(0, length)` stops the loop. -/
theorem optsLoop_endOfOpt (B : Endianness) (length : UInt16) (rest : Bytes) (options : List α) :
    optsLoop B (writeU16 B 0 ++ (writeU16 B length ++ rest)) options = .ok (rest, options) := by
  rw [optsLoop_of_ne_nil (by simp), ← List.append_assoc, optPass_header, if_pos rfl]

/-- **The loop over well-formed TLVs** reads each of them and goes on with
    what follows them. -/
theorem optsLoop_tlvs {B : Endianness} {tlvs : List (UInt16 × Bytes)} {opts : List α}
    (h : List.Forall₂ (ReadsAs B) tlvs opts) (rest : Bytes) (options : List α) :
    optsLoop B ((tlvs.map fun t => tlv B t.1 t.2).flatten ++ rest) options =
      optsLoop B rest (options ++ opts) := by
  induction h generalizing options with
  | nil => simp
  | @cons t o ts os ht _ ih =>
    rw [List.map_cons, List.flatten_cons, List.append_assoc,
      optsLoop_of_ne_nil (by simp [tlv_ne_nil]), optPass_tlv ht]
    simpa using ih (options ++ [o])

/-- The bytes `write_opts_to` emits for options that each round-trip. -/
theorem writeOptsTo_bytes {B : Endianness} {opts : List α}
    (h : ∀ o ∈ opts, TlvRoundTrip B o) :
    ∃ tlvs, List.Forall₂ (ReadsAs B) tlvs opts ∧
      (writeOptsTo B opts).bytes =
        if opts.isEmpty then []
        else (tlvs.map fun t => tlv B t.1 t.2).flatten ++ writeU16 B 0 ++ writeU16 B 0 := by
  induction opts with
  | nil => exact ⟨[], .nil, rfl⟩
  | cons o os ih =>
    obtain ⟨t, ht, hw⟩ := h o (by simp)
    obtain ⟨ts, hts, hws⟩ := ih fun o' h' => h o' (by simp [h'])
    refine ⟨t :: ts, .cons ht hts, ?_⟩
    cases os with
    | nil => cases hts; simp [writeOptsTo, hw]
    | cons _ _ => simp_all [writeOptsTo]

/-- **Option round trip.**  Reading back what `write_opts_to` wrote gives the
    same options, and the bytes after them, provided each option round-trips;
    with no option the list is empty only at the end of the slice. -/
theorem optsFromSlice_writeOptsTo {B : Endianness} {opts : List α}
    (h : ∀ o ∈ opts, TlvRoundTrip B o) (rest : Bytes) (hrest : opts = [] → rest = []) :
    optsFromSlice B ((writeOptsTo B opts).bytes ++ rest) = .ok (rest, opts) := by
  obtain ⟨tlvs, hts, hw⟩ := writeOptsTo_bytes h
  rw [hw]
  cases opts with
  | nil => simp [hrest rfl, optsFromSlice]
  | cons o os =>
    have hne : tlvs ≠ [] := by rintro rfl; cases hts
    have hbytes : (tlvs.map fun t => tlv B t.1 t.2).flatten ≠ [] := by
      obtain ⟨t, ts, rfl⟩ := List.exists_cons_of_ne_nil hne
      simp [tlv_ne_nil]
    simp only [List.isEmpty_cons, Bool.false_eq_true, if_false, optsFromSlice, List.append_assoc]
    rw [if_neg (by simp [hbytes]), optsLoop_tlvs hts, optsLoop_endOfOpt, List.nil_append]

/-- A pass never panics when the option decoder does not. -/
theorem optPass_isPanic {B : Endianness} {s : Bytes}
    (hd : ∀ code length v, (PcapNgOption.fromSlice B code length v : Outcome α).isPanic = false) :
    (optPass B s : Outcome (OptPass α)).isPanic = false := by
  by_cases hs : 4 ≤ s.length
  · obtain ⟨code, length, body, rfl⟩ := exists_header B hs
    rw [optPass_header]
    split_ifs
    · rfl
    · rfl
    · have := hd code length (body.take length.toNat)
      revert this
      cases (PcapNgOption.fromSlice B code length (body.take length.toNat) : Outcome α) <;>
        simp [Outcome.isPanic]
  · simp [optPass, show s.length < 4 by omega, Outcome.isPanic]

/-- The loop never panics when the option decoder does not. -/
theorem optsLoop_isPanic {B : Endianness}
    (hd : ∀ code length v, (PcapNgOption.fromSlice B code length v : Outcome α).isPanic = false)
    (s : Bytes) (options : List α) : (optsLoop B s options).isPanic = false := by
  induction s, options using @optsLoop.induct α _ B with
  | case1 options => rw [optsLoop_nil]; rfl
  | case2 s options hne rem hp | case4 s options hne rem hp =>
    rw [optsLoop_of_ne_nil hne, hp]; rfl
  | case3 s options hne o rem hp ih => rwa [optsLoop_of_ne_nil hne, hp]
  | case5 s options hne m hp =>
    have := optPass_isPanic (s := s) hd
    rw [hp] at this
    cases this

/-- **The option loop never panics** when the option decoder does not. -/
theorem optsFromSlice_isPanic {B : Endianness} (s : Bytes)
    (hd : ∀ code length v, (PcapNgOption.fromSlice B code length v : Outcome α).isPanic = false) :
    (optsFromSlice B s : Outcome (Bytes × List α)).isPanic = false := by
  unfold optsFromSlice
  split
  · rfl
  · exact optsLoop_isPanic hd s []

/-! Nothing the option decoders read fails with an I/O error. -/

theorem optPass_ne_ioError {B : Endianness} {s : Bytes}
    (hd : ∀ code length v, (PcapNgOption.fromSlice B code length v : Outcome α) ≠ .err .ioError) :
    (optPass B s : Outcome (OptPass α)) ≠ .err .ioError := by
  by_cases hs : 4 ≤ s.length
  · obtain ⟨code, length, body, rfl⟩ := exists_header B hs
    rw [optPass_header]
    split_ifs
    · exact nofun
    · exact nofun
    · exact Outcome.map_ne_err (hd code length _)
  · simp [optPass, show s.length < 4 by omega]

theorem optsLoop_ne_ioError {B : Endianness}
    (hd : ∀ code length v, (PcapNgOption.fromSlice B code length v : Outcome α) ≠ .err .ioError)
    (s : Bytes) (options : List α) : optsLoop B s options ≠ .err .ioError := by
  induction s, options using @optsLoop.induct α _ B with
  | case1 options => rw [optsLoop_nil]; exact nofun
  | case2 s options hne rem hp | case5 s options hne _ hp =>
    rw [optsLoop_of_ne_nil hne, hp]; exact nofun
  | case3 s options hne o rem hp ih => rwa [optsLoop_of_ne_nil hne, hp]
  | case4 s options hne e hp =>
    have := optPass_ne_ioError (s := s) hd
    rw [hp] at this
    rw [optsLoop_of_ne_nil hne, hp]
    intro h
    cases h
    exact this rfl

theorem optsFromSlice_ne_ioError {B : Endianness} (s : Bytes)
    (hd : ∀ code length v, (PcapNgOption.fromSlice B code length v : Outcome α) ≠ .err .ioError) :
    (optsFromSlice B s : Outcome (Bytes × List α)) ≠ .err .ioError := by
  unfold optsFromSlice
  split
  · exact nofun
  · exact optsLoop_ne_ioError hd s []

/-- Every option the loop returns was read from a well-formed TLV. -/
theorem optsLoop_readsAs {B : Endianness} {s rem : Bytes} {options opts : List α}
    (h : optsLoop B s options = .ok (rem, opts)) :
    ∀ o ∈ opts, o ∈ options ∨ ∃ t, ReadsAs B t o := by
  induction s, options using @optsLoop.induct α _ B with
  | case1 options => rw [optsLoop_nil] at h; cases h
  | case2 s options hne r hp =>
    rw [optsLoop_of_ne_nil hne, hp] at h
    cases h
    exact fun o ho => .inl ho
  | case3 s options hne o' r hp ih =>
    rw [optsLoop_of_ne_nil hne, hp] at h
    intro o ho
    rcases ih h o ho with hin | hex
    · rcases List.mem_append.mp hin with hin | hin
      · exact .inl hin
      · rw [List.mem_singleton.mp hin]; exact .inr (readsAs_of_optPass hp)
    · exact .inr hex
  | case4 s options hne e hp | case5 s options hne e hp =>
    rw [optsLoop_of_ne_nil hne, hp] at h; cases h

/-- **Decoded options come from well-formed TLVs.** -/
theorem optsFromSlice_readsAs {B : Endianness} {s rem : Bytes} {opts : List α}
    (h : optsFromSlice B s = .ok (rem, opts)) : ∀ o ∈ opts, ∃ t, ReadsAs B t o := by
  intro o ho
  unfold optsFromSlice at h
  split at h
  · cases h; cases ho
  · rcases optsLoop_readsAs h o ho with hin | hex
    · cases hin
    · exact hex

/-! ## Section 5: Laws of the shared option values -/

theorem customBinary_fromSlice (B : Endianness) (code : UInt16) (pen : UInt32) (v : Bytes) :
    CustomBinaryOption.fromSlice B code (writeU32 B pen ++ v) = .ok ⟨code, pen, v⟩ := by
  simp [CustomBinaryOption.fromSlice]

theorem customUtf8_fromSlice (B : Endianness) (code : UInt16) (pen : UInt32) (v : Utf8Str) :
    CustomUtf8Option.fromSlice B code (writeU32 B pen ++ v.bytes) = .ok ⟨code, pen, v⟩ := by
  simp [CustomUtf8Option.fromSlice]

/-- A decoded custom binary option is its code and the payload it was read from. -/
theorem customBinary_of_fromSlice {B : Endianness} {code : UInt16} {v : Bytes}
    {a : CustomBinaryOption} (h : CustomBinaryOption.fromSlice B code v = .ok a) :
    a.code = code ∧ writeU32 B a.pen ++ a.value = v := by
  unfold CustomBinaryOption.fromSlice at h
  cases hr : readU32 B v with
  | none => simp [hr] at h
  | some p =>
    obtain ⟨pen, rest⟩ := p
    simp only [hr, orIncomplete_some, Outcome.ok_bind, Outcome.pure_eq, Outcome.ok.injEq] at h
    subst h
    exact ⟨rfl, (eq_writeU32_of_readU32 hr).symm⟩

/-- A decoded custom UTF-8 option is its code and the payload it was read from. -/
theorem customUtf8_of_fromSlice {B : Endianness} {code : UInt16} {v : Bytes}
    {a : CustomUtf8Option} (h : CustomUtf8Option.fromSlice B code v = .ok a) :
    a.code = code ∧ writeU32 B a.pen ++ a.value.bytes = v := by
  unfold CustomUtf8Option.fromSlice at h
  cases hr : readU32 B v with
  | none => simp [hr] at h
  | some p =>
    obtain ⟨pen, rest⟩ := p
    simp only [hr, orIncomplete_some, Outcome.ok_bind] at h
    rcases fromUtf8_cases rest with ⟨u, rfl, hu⟩ | hu <;> rw [hu] at h
    · simp only [Outcome.ok_bind, Outcome.pure_eq, Outcome.ok.injEq] at h
      subst h
      exact ⟨rfl, (eq_writeU32_of_readU32 hr).symm⟩
    · cases h

theorem customBinary_isPanic (B : Endianness) (code : UInt16) (v : Bytes) :
    (CustomBinaryOption.fromSlice B code v).isPanic = false := by
  unfold CustomBinaryOption.fromSlice
  cases readU32 B v <;> rfl

theorem customUtf8_isPanic (B : Endianness) (code : UInt16) (v : Bytes) :
    (CustomUtf8Option.fromSlice B code v).isPanic = false := by
  unfold CustomUtf8Option.fromSlice
  cases readU32 B v with
  | none => rfl
  | some p => rcases fromUtf8_cases p.2 with ⟨u, -, hu⟩ | hu <;> simp [hu, Outcome.isPanic]

theorem fromUtf8_isPanic (v : Bytes) : (fromUtf8 v).isPanic = false := by
  rcases fromUtf8_cases v with ⟨u, -, hu⟩ | hu <;> simp [hu, Outcome.isPanic]

theorem fromUtf8_ne_ioError (v : Bytes) : fromUtf8 v ≠ .err .ioError := by
  rcases fromUtf8_cases v with ⟨u, -, hu⟩ | hu <;> rw [hu] <;> exact nofun

theorem customBinary_ne_ioError (B : Endianness) (code : UInt16) (v : Bytes) :
    CustomBinaryOption.fromSlice B code v ≠ .err .ioError := by
  unfold CustomBinaryOption.fromSlice
  cases readU32 B v <;> exact nofun

theorem customUtf8_ne_ioError (B : Endianness) (code : UInt16) (v : Bytes) :
    CustomUtf8Option.fromSlice B code v ≠ .err .ioError := by
  unfold CustomUtf8Option.fromSlice
  cases readU32 B v with
  | none => exact nofun
  | some p =>
    refine Outcome.bind_ne_err nofun fun ⟨_, src⟩ _ => ?_
    exact Outcome.bind_ne_err (fromUtf8_ne_ioError src) fun _ _ => nofun

/-! Each `WriteOptTo` writer emits a TLV. -/

theorem writeOptTo_bytes (B : Endianness) (a : Bytes) (code : UInt16) :
    (WriteOptTo.writeOptTo B a code).bytes = tlv B code a := rfl

theorem writeOptTo_utf8 (B : Endianness) (a : Utf8Str) (code : UInt16) :
    (WriteOptTo.writeOptTo B a code).bytes = tlv B code a.bytes := rfl

theorem writeOptTo_u8 (B : Endianness) (a : UInt8) (code : UInt16) :
    (WriteOptTo.writeOptTo B a code).bytes = tlv B code [a] := rfl

theorem writeOptTo_u32 (B : Endianness) (a : UInt32) (code : UInt16) :
    (WriteOptTo.writeOptTo B a code).bytes = tlv B code (writeU32 B a) := by
  simp [WriteOptTo.writeOptTo, tlv, writeOptBytes, padLen, zeros]

theorem writeOptTo_u64 (B : Endianness) (a : UInt64) (code : UInt16) :
    (WriteOptTo.writeOptTo B a code).bytes = tlv B code (writeU64 B a) := by
  simp [WriteOptTo.writeOptTo, tlv, writeOptBytes, padLen, zeros]

theorem writeOptTo_customBinary (B : Endianness) (a : CustomBinaryOption) (code : UInt16) :
    (WriteOptTo.writeOptTo B a code).bytes = tlv B code (writeU32 B a.pen ++ a.value) := by
  simp [WriteOptTo.writeOptTo, writeCustomOpt, tlv, writeOptBytes, Nat.add_comm]

theorem writeOptTo_customUtf8 (B : Endianness) (a : CustomUtf8Option) (code : UInt16) :
    (WriteOptTo.writeOptTo B a code).bytes = tlv B code (writeU32 B a.pen ++ a.value.bytes) := by
  simp [WriteOptTo.writeOptTo, writeCustomOpt, tlv, writeOptBytes, Nat.add_comm]

theorem writeOptTo_unknown (B : Endianness) (a : UnknownOption) (code : UInt16) :
    (WriteOptTo.writeOptTo B a code).bytes = tlv B code a.value := rfl

/-! ## Section 6: Round trips by the shape of a decoder branch

    Each branch of an option decoder has one of a few shapes: a UTF-8
    string, a byte string of fixed length, a fixed-size integer read with or
    without a length check, a custom option, or an unknown option.  Each
    lemma below is the round trip of one shape.  A block's own round trip
    only shows, by `rfl`, which shape its decoder gives each code, and by
    which `WriteOptTo` writer the option is emitted. -/

section Shapes

variable {α : Type} [PcapNgOption α] {B : Endianness}

theorem tlvRoundTrip_utf8 {ctor : Utf8Str → α} {code : UInt16} (h0 : code ≠ 0) {a : Utf8Str}
    (hl : a.bytes.length < 2 ^ 16)
    (hd : PcapNgOption.fromSlice B code (UInt16.ofNat a.bytes.length) a.bytes =
      ctor <$> fromUtf8 a.bytes)
    (hw : (PcapNgOption.writeTo B (ctor a)).bytes = tlv B code a.bytes) :
    TlvRoundTrip B (ctor a) :=
  ⟨(code, a.bytes), ⟨h0, hl, by rw [hd]; simp⟩, hw⟩

theorem tlvRoundTrip_fixed {ctor : Bytes → α} {code : UInt16} (h0 : code ≠ 0) {n : Nat}
    {msg : String} {a : Bytes}
    (hd : PcapNgOption.fromSlice B code (UInt16.ofNat a.length) a =
      (do expectLen a n msg; pure (ctor a)))
    (hn : a.length = n) (hl : n < 2 ^ 16)
    (hw : (PcapNgOption.writeTo B (ctor a)).bytes = tlv B code a) :
    TlvRoundTrip B (ctor a) :=
  ⟨(code, a), ⟨h0, hn ▸ hl, by rw [hd, expectLen_of_eq msg hn]; rfl⟩, hw⟩

/-- A value written as `enc` and read back by `read` with a length check. -/
theorem tlvRoundTrip_checked {β : Type} {ctor : β → α} {code : UInt16} (h0 : code ≠ 0)
    {read : Bytes → Option (β × Bytes)} {x : β} {enc : Bytes} (hr : read enc = some (x, []))
    {n : Nat} {msg : String}
    (hd : PcapNgOption.fromSlice B code (UInt16.ofNat enc.length) enc =
      (do expectLen enc n msg; ctor <$> readValue (read enc)))
    (hn : enc.length = n) (hl : n < 2 ^ 16)
    (hw : (PcapNgOption.writeTo B (ctor x)).bytes = tlv B code enc) :
    TlvRoundTrip B (ctor x) :=
  ⟨(code, enc), ⟨h0, hn ▸ hl, by rw [hd, expectLen_of_eq msg hn, hr]; rfl⟩, hw⟩

/-- A value written as `enc` and read back by `read` with no length check. -/
theorem tlvRoundTrip_read {β : Type} {ctor : β → α} {code : UInt16} (h0 : code ≠ 0)
    {read : Bytes → Option (β × Bytes)} {x : β} {enc : Bytes} (hr : read enc = some (x, []))
    (hl : enc.length < 2 ^ 16)
    (hd : PcapNgOption.fromSlice B code (UInt16.ofNat enc.length) enc = ctor <$> readValue (read enc))
    (hw : (PcapNgOption.writeTo B (ctor x)).bytes = tlv B code enc) :
    TlvRoundTrip B (ctor x) :=
  ⟨(code, enc), ⟨h0, hl, by rw [hd, hr]; rfl⟩, hw⟩

theorem tlvRoundTrip_customBinary {ctor : CustomBinaryOption → α} {a : CustomBinaryOption}
    (h0 : a.code ≠ 0) (hl : a.value.length + 4 < 2 ^ 16)
    (hd : ∀ len v, PcapNgOption.fromSlice B a.code len v =
      ctor <$> CustomBinaryOption.fromSlice B a.code v)
    (hw : (PcapNgOption.writeTo B (ctor a)).bytes = tlv B a.code (writeU32 B a.pen ++ a.value)) :
    TlvRoundTrip B (ctor a) :=
  ⟨(a.code, writeU32 B a.pen ++ a.value), ⟨h0, by simp; omega, by simp [hd, customBinary_fromSlice]⟩,
    hw⟩

theorem tlvRoundTrip_customUtf8 {ctor : CustomUtf8Option → α} {a : CustomUtf8Option}
    (h0 : a.code ≠ 0) (hl : a.value.bytes.length + 4 < 2 ^ 16)
    (hd : ∀ len v, PcapNgOption.fromSlice B a.code len v =
      ctor <$> CustomUtf8Option.fromSlice B a.code v)
    (hw : (PcapNgOption.writeTo B (ctor a)).bytes =
      tlv B a.code (writeU32 B a.pen ++ a.value.bytes)) :
    TlvRoundTrip B (ctor a) :=
  ⟨(a.code, writeU32 B a.pen ++ a.value.bytes), ⟨h0, by simp; omega,
    by simp [hd, customUtf8_fromSlice]⟩, hw⟩

theorem tlvRoundTrip_unknown {ctor : UnknownOption → α} {a : UnknownOption} (h0 : a.code ≠ 0)
    (hl : a.length.toNat = a.value.length)
    (hd : PcapNgOption.fromSlice B a.code a.length a.value =
      pure (ctor (UnknownOption.new a.code a.length a.value)))
    (hw : (PcapNgOption.writeTo B (ctor a)).bytes = tlv B a.code a.value) :
    TlvRoundTrip B (ctor a) :=
  ⟨(a.code, a.value), ⟨h0, hl ▸ a.length.toNat_lt, by rw [UnknownOption.ofNat_length hl, hd]; rfl⟩,
    hw⟩

end Shapes

end PcapFile.PcapNg
