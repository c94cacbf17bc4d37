import PcapFile.Basic

/-! # UTF-8 strings

    A Rust `str` is a byte sequence that is valid UTF-8, and
    `std::str::from_utf8` is the check that admits a byte slice into it.  The
    model keeps a string as its bytes together with the proof that they are
    valid, so a string that did not pass the check cannot be built, and
    writing a string (`as_bytes`) emits exactly the bytes it was read from.
-/

namespace PcapFile

/-- A continuation byte `80..BF`. -/
def isCont (b : UInt8) : Bool := 0x80 ≤ b && b ≤ 0xBF

/-- The second byte of a three-byte sequence led by `b`: `E0` excludes
    overlong forms and `ED` the surrogates. -/
def secondOf3 (b c : UInt8) : Bool :=
  if b = 0xE0 then 0xA0 ≤ c && c ≤ 0xBF
  else if b = 0xED then 0x80 ≤ c && c ≤ 0x9F
  else isCont c

/-- The second byte of a four-byte sequence led by `b`: `F0` excludes
    overlong forms and `F4` everything above `U+10FFFF`. -/
def secondOf4 (b c : UInt8) : Bool :=
  if b = 0xF0 then 0x90 ≤ c && c ≤ 0xBF
  else if b = 0xF4 then 0x80 ≤ c && c ≤ 0x8F
  else isCont c

/-- Whether `bs` is well-formed UTF-8 (the Unicode Standard, Table 3-7): the
    check `std::str::from_utf8` makes. -/
def utf8Valid : Bytes → Bool
  | [] => true
  | b :: bs =>
    if b ≤ 0x7F then utf8Valid bs
    else match bs with
      | [] => false
      | c1 :: bs1 =>
        if 0xC2 ≤ b && b ≤ 0xDF then isCont c1 && utf8Valid bs1
        else match bs1 with
          | [] => false
          | c2 :: bs2 =>
            if 0xE0 ≤ b && b ≤ 0xEF then secondOf3 b c1 && isCont c2 && utf8Valid bs2
            else match bs2 with
              | [] => false
              | c3 :: bs3 =>
                0xF0 ≤ b && b ≤ 0xF4 && secondOf4 b c1 && isCont c2 && isCont c3 &&
                  utf8Valid bs3

/-- A `str` (the contents of a `Cow<str>`): bytes that are valid UTF-8. -/
structure Utf8Str where
  bytes : Bytes
  valid : utf8Valid bytes = true
  deriving DecidableEq, Repr

/-- `std::str::from_utf8(slice)?`, with its error mapped to `PcapError::Utf8Error`. -/
def fromUtf8 (s : Bytes) : Outcome Utf8Str :=
  if h : utf8Valid s = true then .ok ⟨s, h⟩ else .err .utf8Error

/-- Reading back the bytes of a string gives the string. -/
@[simp] theorem fromUtf8_bytes (s : Utf8Str) : fromUtf8 s.bytes = .ok s := by
  simp [fromUtf8, s.valid]

/-- A string read from a slice has exactly the slice's bytes. -/
theorem bytes_of_fromUtf8 {s : Bytes} {u : Utf8Str} (h : fromUtf8 s = .ok u) : u.bytes = s := by
  unfold fromUtf8 at h
  split at h
  · cases h; rfl
  · cases h

/-- `from_utf8` never panics, and fails only with `Utf8Error`. -/
theorem fromUtf8_cases (s : Bytes) :
    (∃ u : Utf8Str, u.bytes = s ∧ fromUtf8 s = .ok u) ∨ fromUtf8 s = .err .utf8Error := by
  unfold fromUtf8
  split
  · exact .inl ⟨_, rfl, rfl⟩
  · exact .inr rfl

example : utf8Valid [0x68, 0x69] = true := by decide
example : utf8Valid [0xC0, 0x80] = false := by decide
example : utf8Valid [0xED, 0xA0, 0x80] = false := by decide

end PcapFile
