import Mathlib

/-! # Common values and byte-level reads and writes

    The vocabulary every codec of the library is written in:

    * `Endianness` (`src/common.rs`).  It plays both roles it has in the
      source: the runtime byte order of a pcap file or a pcapng section, and
      the `B: ByteOrder` type parameter of every read and write, which Rust
      resolves statically and the model passes as an argument.
    * `PcapError` and `Outcome`.  A decoder ends with a value, a typed error,
      or a Rust panic (a failed `unwrap`, an out-of-range slice index, an
      underflowing `usize` subtraction).  Panics are an explicit outcome, so
      that their absence is a theorem about the code and not a property of
      the embedding.
    * `readU16` ... `readU64` and `writeU16` ... `writeU64`, the
      `tokio_byteorder` reads and writes on byte slices: little endian puts
      the least significant byte first and big endian is its reverse.
    * `Written`, what a `write_to` call leaves on a sink: the bytes it
      appended and the count it returned.

    `usize` is 64 bits wide: every length the code adds stays far below
    `2 ^ 64`, so `usize` arithmetic is `Nat` arithmetic, except that a
    subtraction is checked for underflow (`checkedSub`).
-/

namespace PcapFile

/-! ## Section 1: Values -/

/-- A byte slice `&[u8]`, or the bytes a writer appends to its sink. -/
abbrev Bytes := List UInt8

/-- Endianness of a pcap file or a pcapng section, and the `B: ByteOrder`
    parameter of the byte-level reads and writes. -/
inductive Endianness
  | big
  | little
  deriving DecidableEq, Repr

/-- Timestamp resolution of a pcap file. -/
inductive TsResolution
  | microSecond
  | nanoSecond
  deriving DecidableEq, Repr

/-- The link-type codes `pcap_file::DataLink` has a named variant for, the
    table of its `From<u32>` impl (`0 => NULL`, `1 => ETHERNET`, ...,
    `268 => SDLC`).  `common.rs` re-exports `DataLink` from the `pcap_file`
    crate, which is not among the sources. -/
def namedLinkTypes : List UInt32 :=
  [0, 1, 3, 6, 7, 8, 9, 10, 50, 51, 100, 101, 104, 105, 107, 108, 113, 114, 117, 119, 122, 123,
   127, 129, 138, 139, 140, 141, 142, 143, 144, 147, 148, 149, 150, 151, 152, 153, 154, 155, 156,
   157, 158, 159, 160, 161, 162, 163, 165, 166, 169, 170, 171, 177, 187, 189, 192, 195, 196, 197,
   201, 202, 203, 204, 205, 206, 209, 215, 220, 224, 225, 226, 227, 228, 229, 230, 231, 235, 236,
   237, 239, 240, 241, 242, 243, 244, 245, 247, 248, 249, 250, 251, 253, 254, 255, 256, 257, 258,
   259, 260, 261, 262, 263, 264, 265, 266, 268]

/-- `pcap_file::DataLink`: a named link type, or `Unknown(code)`.  The
    library only converts a link type to and from its `u32` code, so a
    named variant is identified by its code; `Unknown(1)` and `ETHERNET`
    are different values with the same code. -/
inductive DataLink
  | named (code : {c : UInt32 // c ∈ namedLinkTypes})
  | unknown (code : UInt32)
  deriving DecidableEq, Repr

namespace DataLink

/-- `DataLink::from(u32)`: the named variant of a code that has one, and
    `Unknown(code)` otherwise. -/
def ofCode (code : UInt32) : DataLink :=
  if h : code ∈ namedLinkTypes then named ⟨code, h⟩ else unknown code

/-- `u32::from(DataLink)`. -/
def toCode : DataLink → UInt32
  | named c => c.1
  | unknown c => c

/-- `DataLink::ETHERNET`. -/
def ethernet : DataLink := named ⟨1, by decide⟩

/-- The values `DataLink::from` returns: every value but `Unknown(code)` for
    a code that has a named variant. -/
def Canonical : DataLink → Prop
  | named _ => True
  | unknown c => c ∉ namedLinkTypes

instance : (d : DataLink) → Decidable d.Canonical
  | named _ => inferInstanceAs (Decidable True)
  | unknown c => inferInstanceAs (Decidable (c ∉ namedLinkTypes))

@[simp] theorem toCode_ofCode (code : UInt32) : (ofCode code).toCode = code := by
  unfold ofCode
  split <;> rfl

theorem canonical_ofCode (code : UInt32) : (ofCode code).Canonical := by
  unfold ofCode
  split
  · trivial
  · assumption

/-- `DataLink::from(u32::from(d))` is `d` exactly when `d` is canonical. -/
theorem ofCode_toCode_iff {d : DataLink} : ofCode d.toCode = d ↔ d.Canonical := by
  refine ⟨fun h => h ▸ canonical_ofCode _, fun h => ?_⟩
  cases d with
  | named c => exact dif_pos c.2
  | unknown c => exact dif_neg h

end DataLink

/-- The errors the codecs raise.  `errors.rs` is not among the sources: the
    variants are the ones the modelled code constructs, and the payloads of
    `Utf8Error` and `IoError` are left out because no modelled function
    reads them. -/
inductive PcapError
  | incompleteBuffer
  | invalidField (msg : String)
  | utf8Error
  | invalidInterfaceId (id : UInt32)
  | ioError
  deriving DecidableEq, Repr

/-- How a decoding step ends: a value, a typed error, or a panic. -/
inductive Outcome (α : Type) where
  | ok (a : α)
  | err (e : PcapError)
  | panic (msg : String)
  deriving DecidableEq, Repr

namespace Outcome

variable {α β : Type}

/-- Sequencing: errors and panics propagate, as `?` and unwinding do. -/
def bind : Outcome α → (α → Outcome β) → Outcome β
  | ok a, f => f a
  | err e, _ => err e
  | panic m, _ => panic m

instance : Monad Outcome where
  pure := ok
  bind := bind

@[simp] theorem pure_eq (a : α) : (pure a : Outcome α) = ok a := rfl

@[simp] theorem ok_bind (a : α) (f : α → Outcome β) : (ok a >>= f) = f a := rfl

@[simp] theorem err_bind (e : PcapError) (f : α → Outcome β) : (err e >>= f) = err e := rfl

@[simp] theorem panic_bind (m : String) (f : α → Outcome β) :
    (panic m >>= f) = panic m := rfl

@[simp] theorem map_ok (f : α → β) (a : α) : (f <$> ok a : Outcome β) = ok (f a) := rfl

@[simp] theorem map_err (f : α → β) (e : PcapError) :
    (f <$> err e : Outcome β) = err e := rfl

@[simp] theorem map_panic (f : α → β) (m : String) :
    (f <$> (panic m : Outcome α)) = panic m := rfl

/-- Peel a successful bind apart. -/
theorem bind_eq_ok {x : Outcome α} {f : α → Outcome β} {b : β} :
    (x >>= f) = ok b ↔ ∃ a, x = ok a ∧ f a = ok b := by
  cases x <;> simp

theorem map_eq_ok {x : Outcome α} {f : α → β} {b : β} :
    (f <$> x) = ok b ↔ ∃ a, x = ok a ∧ f a = b := by
  cases x <;> simp [Functor.map, Outcome.bind]

/-- Whether the outcome is a panic. -/
def isPanic : Outcome α → Bool
  | panic _ => true
  | _ => false

@[simp] theorem isPanic_ok (a : α) : (ok a).isPanic = false := rfl

@[simp] theorem isPanic_err (e : PcapError) : (err e : Outcome α).isPanic = false := rfl
@[simp] theorem isPanic_panic (m : String) : (panic m : Outcome α).isPanic = true := rfl

@[simp] theorem isPanic_pure (a : α) : (pure a : Outcome α).isPanic = false := rfl

@[simp] theorem isPanic_map (f : α → β) (x : Outcome α) : (f <$> x).isPanic = x.isPanic := by
  cases x <;> rfl

/-- A bind panics only if one of its two steps does. -/
theorem isPanic_bind {x : Outcome α} {f : α → Outcome β} (hx : x.isPanic = false)
    (hf : ∀ a, x = ok a → (f a).isPanic = false) : (x >>= f).isPanic = false := by
  cases x with
  | ok a => exact hf a rfl
  | err e => rfl
  | panic m => cases hx

/-- A bind fails with `e` only if one of its two steps does. -/
theorem bind_ne_err {x : Outcome α} {f : α → Outcome β} {e : PcapError} (hx : x ≠ err e)
    (hf : ∀ a, x = ok a → f a ≠ err e) : (x >>= f) ≠ err e := by
  cases x with
  | ok a => exact hf a rfl
  | err e' => rw [err_bind]; exact fun h => hx (by rw [err.inj h])
  | panic m => rw [panic_bind]; exact nofun

theorem map_ne_err {x : Outcome α} {f : α → β} {e : PcapError} (hx : x ≠ err e) :
    (f <$> x) ≠ err e := by
  cases x with
  | ok a => rw [map_ok]; exact nofun
  | err e' => rw [map_err]; exact fun h => hx (by rw [err.inj h])
  | panic m => rw [map_panic]; exact nofun

end Outcome

/-! ## Section 2: Panicking and failing primitives -/

/-- `.unwrap()` on a read or on an `Option`: a panic when there is no value. -/
def unwrap {α : Type} : Option α → Outcome α
  | some a => .ok a
  | none => .panic "called `unwrap()` on a missing value"

theorem unwrap_ne_err {α : Type} (o : Option α) (e : PcapError) : unwrap o ≠ .err e := by
  cases o <;> exact nofun

/-- `.map_err(|_| PcapError::IncompleteBuffer)?` on a read. -/
def orIncomplete {α : Type} : Option α → Outcome α
  | some a => .ok a
  | none => .err .incompleteBuffer

/-- `&slice[..n]`. -/
def sliceTo (s : Bytes) (n : Nat) : Outcome Bytes :=
  if n ≤ s.length then .ok (s.take n) else .panic "range end index out of range for slice"

/-- `&slice[n..]`. -/
def sliceFrom (s : Bytes) (n : Nat) : Outcome Bytes :=
  if n ≤ s.length then .ok (s.drop n) else .panic "range start index out of range for slice"

/-- `a - b` on an unsigned integer (`usize` or `u32`). -/
def checkedSub (a b : Nat) : Outcome Nat :=
  if b ≤ a then .ok (a - b) else .panic "attempt to subtract with overflow"

@[simp] theorem unwrap_some {α : Type} (a : α) : unwrap (some a) = .ok a := rfl

@[simp] theorem orIncomplete_some {α : Type} (a : α) : orIncomplete (some a) = .ok a := rfl

@[simp] theorem orIncomplete_none {α : Type} :
    orIncomplete (none : Option α) = .err .incompleteBuffer := rfl

theorem sliceTo_of_le {s : Bytes} {n : Nat} (h : n ≤ s.length) : sliceTo s n = .ok (s.take n) :=
  if_pos h

theorem sliceFrom_of_le {s : Bytes} {n : Nat} (h : n ≤ s.length) :
    sliceFrom s n = .ok (s.drop n) :=
  if_pos h

theorem checkedSub_of_le {a b : Nat} (h : b ≤ a) : checkedSub a b = .ok (a - b) := if_pos h

theorem orIncomplete_eq_ok {α : Type} {o : Option α} {a : α} :
    orIncomplete o = .ok a ↔ o = some a := by
  cases o <;> simp [orIncomplete]

theorem unwrap_eq_ok {α : Type} {o : Option α} {a : α} : unwrap o = .ok a ↔ o = some a := by
  cases o <;> simp [unwrap]

theorem sliceFrom_eq_ok {s r : Bytes} {n : Nat} (h : sliceFrom s n = .ok r) :
    n ≤ s.length ∧ r = s.drop n := by
  unfold sliceFrom at h
  split at h
  · cases h; exact ⟨‹_›, rfl⟩
  · cases h

/-- The padding that aligns `len` bytes to four: `(4 - len % 4) % 4`. -/
def padLen (len : Nat) : Nat := (4 - len % 4) % 4

/-- `&[0_u8; 3][..pad_len]`, the zero padding the writers emit. -/
def zeros (n : Nat) : Bytes := List.replicate n 0

@[simp] theorem padLen_lt (len : Nat) : padLen len < 4 := by unfold padLen; omega

theorem padLen_add_mod (len : Nat) : (len + padLen len) % 4 = 0 := by unfold padLen; omega

@[simp] theorem zeros_length (n : Nat) : (zeros n).length = n := List.length_replicate n 0

/-! ## Section 3: Fixed-width integers on byte slices -/

/-- The `n` least significant bytes of `x`, least significant first. -/
def toBytesLE : Nat → Nat → Bytes
  | 0, _ => []
  | n + 1, x => UInt8.ofNat (x % 256) :: toBytesLE n (x / 256)

/-- The number whose little-endian bytes these are. -/
def ofBytesLE : Bytes → Nat
  | [] => 0
  | b :: bs => b.toNat + 256 * ofBytesLE bs

/-- The `n` bytes of `x` in byte order `B`. -/
def encodeNat (B : Endianness) (n x : Nat) : Bytes :=
  match B with
  | .little => toBytesLE n x
  | .big => (toBytesLE n x).reverse

/-- The number these bytes encode in byte order `B`. -/
def decodeNat (B : Endianness) (bs : Bytes) : Nat :=
  match B with
  | .little => ofBytesLE bs
  | .big => ofBytesLE bs.reverse

/-- A read of an `n`-byte integer from the front of a slice; `none` (an
    `UnexpectedEof` error) when fewer than `n` bytes remain. -/
def readNat (B : Endianness) (n : Nat) (s : Bytes) : Option (Nat × Bytes) :=
  if n ≤ s.length then some (decodeNat B (s.take n), s.drop n) else none

/-- `slice.read_u8()`. -/
def readU8 : Bytes → Option (UInt8 × Bytes)
  | [] => none
  | b :: bs => some (b, bs)

/-- `slice.read_u16::<B>()`. -/
def readU16 (B : Endianness) (s : Bytes) : Option (UInt16 × Bytes) :=
  (readNat B 2 s).map fun p => (UInt16.ofNat p.1, p.2)

/-- `slice.read_u32::<B>()`. -/
def readU32 (B : Endianness) (s : Bytes) : Option (UInt32 × Bytes) :=
  (readNat B 4 s).map fun p => (UInt32.ofNat p.1, p.2)

/-- `slice.read_u64::<B>()`; also `read_i64`, whose value the model keeps as
    its two's-complement bit pattern. -/
def readU64 (B : Endianness) (s : Bytes) : Option (UInt64 × Bytes) :=
  (readNat B 8 s).map fun p => (UInt64.ofNat p.1, p.2)

/-- `writer.write_u16::<B>(x)`. -/
def writeU16 (B : Endianness) (x : UInt16) : Bytes := encodeNat B 2 x.toNat

/-- `writer.write_u32::<B>(x)`. -/
def writeU32 (B : Endianness) (x : UInt32) : Bytes := encodeNat B 4 x.toNat

/-- `writer.write_u64::<B>(x)`, and `write_i64` on the bit pattern. -/
def writeU64 (B : Endianness) (x : UInt64) : Bytes := encodeNat B 8 x.toNat

/-- `x.swap_bytes()` on a `u32`. -/
def swapBytes32 (x : UInt32) : UInt32 :=
  UInt32.ofNat (decodeNat .little (encodeNat .big 4 x.toNat))

/-- What a `write_to` call leaves on a sink that accepts every write: the
    bytes it appended, and the count it returned in `Ok(n)`. -/
structure Written where
  bytes : Bytes
  count : Nat
  deriving DecidableEq, Repr

/-- Several writes one after the other, each count added (`written += ...`). -/
def Written.concat (ws : List Written) : Written :=
  ⟨(ws.map Written.bytes).flatten, (ws.map Written.count).sum⟩

@[simp] theorem Written.concat_nil : Written.concat [] = ⟨[], 0⟩ := rfl

@[simp] theorem Written.concat_cons (w : Written) (ws : List Written) :
    Written.concat (w :: ws) =
      ⟨w.bytes ++ (Written.concat ws).bytes, w.count + (Written.concat ws).count⟩ := rfl

@[simp] theorem Written.concat_append (ws vs : List Written) :
    Written.concat (ws ++ vs) =
      ⟨(Written.concat ws).bytes ++ (Written.concat vs).bytes,
        (Written.concat ws).count + (Written.concat vs).count⟩ := by
  simp [Written.concat]

/-- A write whose returned count is the number of bytes it emitted. -/
def Written.Exact (w : Written) : Prop := w.count = w.bytes.length

theorem Written.concat_exact {ws : List Written} (h : ∀ w ∈ ws, w.Exact) :
    (Written.concat ws).Exact := by
  induction ws with
  | nil => rfl
  | cons w ws ih =>
    simp only [Written.Exact, Written.concat_cons, List.length_append] at h ⊢
    rw [h w (by simp), ih (fun v hv => h v (by simp [hv]))]

/-! ## Section 4: Laws of the byte-level reads and writes -/

@[simp] theorem toBytesLE_length (n x : Nat) : (toBytesLE n x).length = n := by
  induction n generalizing x with
  | zero => rfl
  | succ n ih => simp [toBytesLE, ih]

@[simp] theorem encodeNat_length (B : Endianness) (n x : Nat) : (encodeNat B n x).length = n := by
  cases B <;> simp [encodeNat]

theorem ofBytesLE_toBytesLE (n x : Nat) : ofBytesLE (toBytesLE n x) = x % 256 ^ n := by
  induction n generalizing x with
  | zero => simp [toBytesLE, ofBytesLE, Nat.mod_one]
  | succ n ih =>
    have h : (UInt8.ofNat (x % 256)).toNat = x % 256 % 256 := rfl
    rw [toBytesLE, ofBytesLE, ih, h, Nat.pow_succ, Nat.mul_comm (256 ^ n), Nat.mod_mul]
    omega

theorem ofBytesLE_lt (l : Bytes) : ofBytesLE l < 256 ^ l.length := by
  induction l with
  | nil => simp [ofBytesLE]
  | cons b bs ih =>
    have hb : b.toNat < 256 := b.toNat_lt
    rw [ofBytesLE, List.length_cons, Nat.pow_succ]
    omega

theorem toBytesLE_ofBytesLE (l : Bytes) : toBytesLE l.length (ofBytesLE l) = l := by
  induction l with
  | nil => rfl
  | cons b bs ih =>
    have hb : b.toNat < 256 := b.toNat_lt
    have hdiv : (b.toNat + 256 * ofBytesLE bs) / 256 = ofBytesLE bs := by omega
    have hmod : UInt8.ofNat ((b.toNat + 256 * ofBytesLE bs) % 256) = b :=
      UInt8.toNat.inj (by show (b.toNat + 256 * ofBytesLE bs) % 256 % 256 = b.toNat; omega)
    rw [List.length_cons, toBytesLE, ofBytesLE, hdiv, hmod, ih]

theorem decodeNat_lt (B : Endianness) (l : Bytes) : decodeNat B l < 256 ^ l.length := by
  cases B
  · simpa using ofBytesLE_lt l.reverse
  · exact ofBytesLE_lt l

theorem encodeNat_decodeNat (B : Endianness) {n : Nat} {l : Bytes} (h : l.length = n) :
    encodeNat B n (decodeNat B l) = l := by
  subst h
  cases B
  · simpa [encodeNat, decodeNat] using congrArg List.reverse (toBytesLE_ofBytesLE l.reverse)
  · exact toBytesLE_ofBytesLE l

theorem decodeNat_encodeNat (B : Endianness) (n x : Nat) :
    decodeNat B (encodeNat B n x) = x % 256 ^ n := by
  cases B <;> simp [decodeNat, encodeNat, ofBytesLE_toBytesLE]

/-- A read of `n` bytes from a slice that holds them ignores what follows. -/
theorem readNat_append {B : Endianness} {n : Nat} {s : Bytes} (e : Bytes) (h : n ≤ s.length) :
    readNat B n (s ++ e) = some (decodeNat B (s.take n), s.drop n ++ e) := by
  simp [readNat, h, Nat.le_add_right_of_le h, List.take_append_of_le_length h,
    List.drop_append_of_le_length h]

theorem readNat_encodeNat (B : Endianness) (n x : Nat) (rest : Bytes) :
    readNat B n (encodeNat B n x ++ rest) = some (x % 256 ^ n, rest) := by
  rw [readNat_append rest (by simp), List.take_of_length_le (by simp)]
  simp [decodeNat_encodeNat]

theorem readNat_eq_some {B : Endianness} {n : Nat} {s r : Bytes} {v : Nat} :
    readNat B n s = some (v, r) ↔ n ≤ s.length ∧ v = decodeNat B (s.take n) ∧ r = s.drop n := by
  unfold readNat
  split <;> simp_all [eq_comm]

theorem readNat_eq_none {B : Endianness} {n : Nat} {s : Bytes} :
    readNat B n s = none ↔ s.length < n := by
  unfold readNat
  split <;> simp_all

theorem toNat_ofNat_u16 {x : Nat} (h : x < 2 ^ 16) : (UInt16.ofNat x).toNat = x :=
  UInt16.toNat_ofNat_of_lt h

theorem toNat_ofNat_u32 {x : Nat} (h : x < 2 ^ 32) : (UInt32.ofNat x).toNat = x :=
  UInt32.toNat_ofNat_of_lt h

theorem toNat_ofNat_u64 {x : Nat} (h : x < 2 ^ 64) : (UInt64.ofNat x).toNat = x :=
  UInt64.toNat_ofNat_of_lt h

theorem lt_iff_toNat_u32 {a b : UInt32} : a < b ↔ a.toNat < b.toNat := Iff.rfl

/-- Widening a `u16` to a `u32` (`x as u32`) keeps its value. -/
@[simp] theorem toNat_widen_u16 (x : UInt16) : (UInt32.ofNat x.toNat).toNat = x.toNat :=
  toNat_ofNat_u32 (by have := x.toNat_lt; omega)

@[simp] theorem ofNat_toNat_u16 (x : UInt16) : UInt16.ofNat x.toNat = x :=
  UInt16.toNat.inj (toNat_ofNat_u16 x.toNat_lt)

@[simp] theorem ofNat_toNat_u32 (x : UInt32) : UInt32.ofNat x.toNat = x :=
  UInt32.toNat.inj (toNat_ofNat_u32 x.toNat_lt)

@[simp] theorem ofNat_toNat_u64 (x : UInt64) : UInt64.ofNat x.toNat = x :=
  UInt64.toNat.inj (toNat_ofNat_u64 x.toNat_lt)

@[simp] theorem writeU16_length (B : Endianness) (x : UInt16) : (writeU16 B x).length = 2 := by
  simp [writeU16]

@[simp] theorem writeU32_length (B : Endianness) (x : UInt32) : (writeU32 B x).length = 4 := by
  simp [writeU32]

@[simp] theorem writeU64_length (B : Endianness) (x : UInt64) : (writeU64 B x).length = 8 := by
  simp [writeU64]

@[simp] theorem writeU16_ne_nil (B : Endianness) (x : UInt16) : writeU16 B x ≠ [] := by
  intro h; simpa using congrArg List.length h

@[simp] theorem writeU32_ne_nil (B : Endianness) (x : UInt32) : writeU32 B x ≠ [] := by
  intro h; simpa using congrArg List.length h

@[simp] theorem readU8_cons (b : UInt8) (rest : Bytes) : readU8 (b :: rest) = some (b, rest) := rfl

@[simp] theorem readU16_writeU16 (B : Endianness) (x : UInt16) (rest : Bytes) :
    readU16 B (writeU16 B x ++ rest) = some (x, rest) := by
  simp [readU16, writeU16, readNat_encodeNat, Nat.mod_eq_of_lt x.toNat_lt]

@[simp] theorem readU32_writeU32 (B : Endianness) (x : UInt32) (rest : Bytes) :
    readU32 B (writeU32 B x ++ rest) = some (x, rest) := by
  simp [readU32, writeU32, readNat_encodeNat, Nat.mod_eq_of_lt x.toNat_lt]

@[simp] theorem readU64_writeU64 (B : Endianness) (x : UInt64) (rest : Bytes) :
    readU64 B (writeU64 B x ++ rest) = some (x, rest) := by
  simp [readU64, writeU64, readNat_encodeNat, Nat.mod_eq_of_lt x.toNat_lt]

@[simp] theorem readU16_writeU16_nil (B : Endianness) (x : UInt16) :
    readU16 B (writeU16 B x) = some (x, []) := by
  simpa using readU16_writeU16 B x []

@[simp] theorem readU32_writeU32_nil (B : Endianness) (x : UInt32) :
    readU32 B (writeU32 B x) = some (x, []) := by
  simpa using readU32_writeU32 B x []

@[simp] theorem readU64_writeU64_nil (B : Endianness) (x : UInt64) :
    readU64 B (writeU64 B x) = some (x, []) := by
  simpa using readU64_writeU64 B x []

/-- A successful read consumes exactly its width. -/
theorem readU16_eq_some {B : Endianness} {s r : Bytes} {v : UInt16} (h : readU16 B s = some (v, r)) :
    2 ≤ s.length ∧ r = s.drop 2 := by
  obtain ⟨⟨x, r'⟩, hx, hv⟩ := Option.map_eq_some'.mp h
  obtain ⟨hle, -, rfl⟩ := readNat_eq_some.mp hx
  cases hv
  exact ⟨hle, rfl⟩

theorem readU32_eq_some {B : Endianness} {s r : Bytes} {v : UInt32} (h : readU32 B s = some (v, r)) :
    4 ≤ s.length ∧ r = s.drop 4 := by
  obtain ⟨⟨x, r'⟩, hx, hv⟩ := Option.map_eq_some'.mp h
  obtain ⟨hle, -, rfl⟩ := readNat_eq_some.mp hx
  cases hv
  exact ⟨hle, rfl⟩

theorem readU64_eq_some {B : Endianness} {s r : Bytes} {v : UInt64} (h : readU64 B s = some (v, r)) :
    8 ≤ s.length ∧ r = s.drop 8 := by
  obtain ⟨⟨x, r'⟩, hx, hv⟩ := Option.map_eq_some'.mp h
  obtain ⟨hle, -, rfl⟩ := readNat_eq_some.mp hx
  cases hv
  exact ⟨hle, rfl⟩

/-- A successful read splits the slice into the written value and the rest. -/
theorem eq_writeU16_of_readU16 {B : Endianness} {s r : Bytes} {v : UInt16}
    (h : readU16 B s = some (v, r)) : s = writeU16 B v ++ r := by
  obtain ⟨⟨x, r'⟩, hx, hv⟩ := Option.map_eq_some'.mp h
  obtain ⟨hle, rfl, rfl⟩ := readNat_eq_some.mp hx
  cases hv
  have hlt : decodeNat B (s.take 2) < 2 ^ 16 := by
    simpa [List.length_take, Nat.min_eq_left hle] using decodeNat_lt B (s.take 2)
  rw [writeU16, toNat_ofNat_u16 hlt, encodeNat_decodeNat B (by simpa using hle),
    List.take_append_drop]

theorem eq_writeU32_of_readU32 {B : Endianness} {s r : Bytes} {v : UInt32}
    (h : readU32 B s = some (v, r)) : s = writeU32 B v ++ r := by
  obtain ⟨⟨x, r'⟩, hx, hv⟩ := Option.map_eq_some'.mp h
  obtain ⟨hle, rfl, rfl⟩ := readNat_eq_some.mp hx
  cases hv
  have hlt : decodeNat B (s.take 4) < 2 ^ 32 := by
    simpa [List.length_take, Nat.min_eq_left hle] using decodeNat_lt B (s.take 4)
  rw [writeU32, toNat_ofNat_u32 hlt, encodeNat_decodeNat B (by simpa using hle),
    List.take_append_drop]

theorem eq_writeU64_of_readU64 {B : Endianness} {s r : Bytes} {v : UInt64}
    (h : readU64 B s = some (v, r)) : s = writeU64 B v ++ r := by
  obtain ⟨⟨x, r'⟩, hx, hv⟩ := Option.map_eq_some'.mp h
  obtain ⟨hle, rfl, rfl⟩ := readNat_eq_some.mp hx
  cases hv
  have hlt : decodeNat B (s.take 8) < 2 ^ 64 := by
    simpa [List.length_take, Nat.min_eq_left hle] using decodeNat_lt B (s.take 8)
  rw [writeU64, toNat_ofNat_u64 hlt, encodeNat_decodeNat B (by simpa using hle),
    List.take_append_drop]

theorem readU16_isSome {B : Endianness} {s : Bytes} : (readU16 B s).isSome ↔ 2 ≤ s.length := by
  unfold readU16 readNat
  split <;> simp_all

theorem readU32_isSome {B : Endianness} {s : Bytes} : (readU32 B s).isSome ↔ 4 ≤ s.length := by
  unfold readU32 readNat
  split <;> simp_all

theorem readU64_isSome {B : Endianness} {s : Bytes} : (readU64 B s).isSome ↔ 8 ≤ s.length := by
  unfold readU64 readNat
  split <;> simp_all

/-- Every slice of at least two bytes starts with a written `u16`. -/
theorem exists_writeU16 (B : Endianness) {s : Bytes} (h : 2 ≤ s.length) :
    ∃ v r, s = writeU16 B v ++ r := by
  obtain ⟨⟨v, r⟩, hv⟩ := Option.isSome_iff_exists.mp (readU16_isSome.mpr h)
  exact ⟨v, r, eq_writeU16_of_readU16 hv⟩

/-- Every slice of at least four bytes starts with a written `u32`. -/
theorem exists_writeU32 (B : Endianness) {s : Bytes} (h : 4 ≤ s.length) :
    ∃ v r, s = writeU32 B v ++ r := by
  obtain ⟨⟨v, r⟩, hv⟩ := Option.isSome_iff_exists.mp (readU32_isSome.mpr h)
  exact ⟨v, r, eq_writeU32_of_readU32 hv⟩

/-- Every slice of at least eight bytes starts with a written `u64`. -/
theorem exists_writeU64 (B : Endianness) {s : Bytes} (h : 8 ≤ s.length) :
    ∃ v r, s = writeU64 B v ++ r := by
  obtain ⟨⟨v, r⟩, hv⟩ := Option.isSome_iff_exists.mp (readU64_isSome.mpr h)
  exact ⟨v, r, eq_writeU64_of_readU64 hv⟩

/-- The little-endian bytes of a `u32` are its big-endian bytes reversed. -/
theorem writeU32_little (x : UInt32) : writeU32 .little x = (writeU32 .big x).reverse := by
  simp [writeU32, encodeNat]

/-- Read in the other byte order, a `u32` is its `swap_bytes`. -/
theorem writeU32_big_swapBytes32 (x : UInt32) :
    writeU32 .big (swapBytes32 x) = writeU32 .little x := by
  have hl := toBytesLE_ofBytesLE (toBytesLE 4 x.toNat).reverse
  rw [List.length_reverse, toBytesLE_length] at hl
  unfold swapBytes32 writeU32
  rw [toNat_ofNat_u32 (lt_of_lt_of_eq (decodeNat_lt _ _) (by simp))]
  simp only [encodeNat, decodeNat, hl, List.reverse_reverse]

theorem swapBytes32_swapBytes32 (x : UInt32) : swapBytes32 (swapBytes32 x) = x := by
  have h : writeU32 .big (swapBytes32 (swapBytes32 x)) = writeU32 .big x := by
    rw [writeU32_big_swapBytes32, writeU32_little, writeU32_big_swapBytes32, writeU32_little,
      List.reverse_reverse]
  simpa using congrArg (readU32 .big) h

/-! ## Section 5: Decoding a prefix of a stream -/

/-- How a decoder's result on `s` relates to its result on `s ++ ext`: a
    success keeps its value and carries `ext` in its remainder, and an error
    other than `IncompleteBuffer` stays the same error.  An
    `IncompleteBuffer` error, or a panic, may become anything. -/
def ExtendsTo {α : Type} (x y : Outcome (Bytes × α)) (ext : Bytes) : Prop :=
  (∀ rem a, x = .ok (rem, a) → y = .ok (rem ++ ext, a)) ∧
    ∀ e, x = .err e → e ≠ .incompleteBuffer → y = .err e

theorem ExtendsTo.refl_err {α : Type} (e : PcapError) (ext : Bytes) :
    ExtendsTo (.err e : Outcome (Bytes × α)) (.err e) ext :=
  ⟨fun _ _ h => (nomatch h), fun _ h _ => by cases h; rfl⟩

theorem ExtendsTo.incomplete {α : Type} (y : Outcome (Bytes × α)) (ext : Bytes) :
    ExtendsTo (.err .incompleteBuffer) y ext :=
  ⟨fun _ _ h => (nomatch h), fun _ h hne => by cases h; exact absurd rfl hne⟩

/-- A step that uses the value but not the remainder keeps the relation. -/
theorem ExtendsTo.bind {α β : Type} {x y : Outcome (Bytes × α)} {ext : Bytes}
    (h : ExtendsTo x y ext) (f : α → Outcome β) :
    ExtendsTo (x >>= fun p => (p.1, ·) <$> f p.2) (y >>= fun p => (p.1, ·) <$> f p.2) ext := by
  constructor
  · intro rem b hx
    obtain ⟨⟨r, a⟩, hx', hf⟩ := Outcome.bind_eq_ok.mp hx
    obtain ⟨c, hc, hcb⟩ := Outcome.map_eq_ok.mp hf
    cases hcb
    rw [h.1 _ _ hx', Outcome.ok_bind, hc]; rfl
  · intro e hx hne
    cases hx' : x with
    | ok p =>
      rw [hx', Outcome.ok_bind] at hx
      rw [h.1 _ _ hx', Outcome.ok_bind]
      revert hx; cases f p.2 <;> simp [Functor.map, Outcome.bind]
    | err e' =>
      rw [hx', Outcome.err_bind] at hx; cases hx
      rw [h.2 _ hx' hne, Outcome.err_bind]
    | panic m => rw [hx', Outcome.panic_bind] at hx; cases hx

end PcapFile
