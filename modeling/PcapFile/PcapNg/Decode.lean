import PcapFile.PcapNg.Parser
import PcapFile.Pcap.Header

/-! # Decoding untrusted input

    What the decoders promise on arbitrary bytes.  Every decoder is a total
    function of the model (the option and record loops are defined by
    recursion on the length of the slice, which every pass shortens by at
    least its four header bytes), so what remains to show is that no
    `unwrap`, slice index or subtraction on these paths panics
    (`decode_never_panics`), and that the decoders can be fed a stream as
    it arrives: a result that is not `IncompleteBuffer` does not change
    when more bytes follow (`decode_prefix_stable`).

    `IncompleteBuffer` itself does not only mean that the frame has not all
    arrived: the option decoders map every failed read of a value to it, so
    a whole frame holding a custom option too short for its enterprise
    number is reported as incomplete (`new_incomplete_on_whole_frame`).
-/

namespace PcapFile.PcapNg

/-- **The decode pipeline never panics**, whatever the bytes, the byte order
    and the parser's state. -/
theorem decode_never_panics (B : Endianness) (src : Bytes) (p : PcapNgParser) :
    (PcapHeader.fromSlice src).isPanic = false ∧ (PcapNgParser.new src).isPanic = false ∧
      (RawBlock.fromSlice B src).isPanic = false ∧ (Block.fromSlice B src).isPanic = false ∧
      (p.nextBlock src).1.isPanic = false ∧ (p.nextRawBlock src).1.isPanic = false :=
  ⟨PcapHeader.fromSlice_isPanic src, PcapNgParser.new_isPanic src,
    RawBlock.fromSlice_isPanic B src, Block.fromSlice_isPanic B src,
    PcapNgParser.nextBlock_isPanic p src, PcapNgParser.nextRawBlockInner_isPanic _ p src⟩

/-- **Streaming prefix stability.**  For every parser state, a call on
    `src` that succeeds succeeds on `src ++ ext` with the same block, the
    same new state and `ext` after its remainder; a call that fails with
    another error than `IncompleteBuffer` fails on `src ++ ext` with the
    same error and state.  The same holds of `PcapNgParser::new` and
    `PcapHeader::from_slice`. -/
theorem decode_prefix_stable (p : PcapNgParser) (src ext : Bytes) :
    PcapNgParser.ExtendsToWith (p.nextBlock src) (p.nextBlock (src ++ ext)) ext ∧
      PcapNgParser.ExtendsToWith (p.nextRawBlock src) (p.nextRawBlock (src ++ ext)) ext ∧
      ExtendsTo (PcapNgParser.new src) (PcapNgParser.new (src ++ ext)) ext ∧
      ExtendsTo (PcapHeader.fromSlice src) (PcapHeader.fromSlice (src ++ ext)) ext :=
  ⟨PcapNgParser.nextBlock_extendsTo p src ext, PcapNgParser.nextRawBlock_extendsTo p src ext,
    PcapNgParser.new_extendsTo src ext, PcapHeader.fromSlice_extendsTo src ext⟩

/-- A custom option whose value is too short for its enterprise number is
    reported as `IncompleteBuffer`, however much input follows. -/
theorem customBinary_fromSlice_short (B : Endianness) (code : UInt16) {v : Bytes}
    (h : v.length < 4) : CustomBinaryOption.fromSlice B code v = .err .incompleteBuffer := by
  have : readU32 B v = none := Option.not_isSome_iff_eq_none.mp (by rw [readU32_isSome]; omega)
  simp [CustomBinaryOption.fromSlice, this]

/-- A whole section header frame of 32 bytes, big endian, whose body ends
    with one custom binary option (code 2989) of length zero and no
    end-of-options marker. -/
def wholeFrameShortOption : Bytes :=
  [0x0A, 0x0D, 0x0D, 0x0A, 0x00, 0x00, 0x00, 0x20,
   0x1A, 0x2B, 0x3C, 0x4D, 0x00, 0x01, 0x00, 0x00,
   0xFF, 0xFF, 0xFF, 0xFF, 0xFF, 0xFF, 0xFF, 0xFF,
   0x0B, 0xAD, 0x00, 0x00, 0x00, 0x00, 0x00, 0x20]

unseal optsLoop in
/-- The frame is all there: 32 bytes, as its header declares, yet
    `PcapNgParser::new` reports `IncompleteBuffer`. -/
theorem new_incomplete_on_whole_frame :
    readU32 .big (wholeFrameShortOption.drop 4) =
        some (32, wholeFrameShortOption.drop 8) ∧
      wholeFrameShortOption.length = 32 ∧
      PcapNgParser.new wholeFrameShortOption = .err .incompleteBuffer := by
  decide

end PcapFile.PcapNg
