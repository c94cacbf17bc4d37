import PcapFile.ReadBuffer
import PcapFile.PcapNg.Replay

/-! # The pcapng reader (`pcapng/reader.rs`)

    `PcapNgReader` drives a `PcapNgParser` over a byte source through a
    `ReadBuffer`: `new` parses the first block, which must be a section
    header, and `next_block` and `next_raw_block` return `None` once the
    stream is exhausted and the next block otherwise.

    Every step the reader hands to the buffer is streamable: prefix stable
    (`decode_prefix_stable`), returning a suffix of its input, keeping the
    parser's state when it fails, and never panicking.  So the reader is
    the parser run on the whole stream: however the source cuts the stream
    into non-empty reads, `new` fails as `PcapNgParser::new` fails on the
    whole stream, and otherwise every run of `next_block` returns the blocks
    and reaches the state that `next_block` returns and reaches on the
    whole stream, except that a block cut off by the end of the stream is a
    truncation error, so that `next_block` never returns `IncompleteBuffer`
    (`reader_reads_whole_stream`).

    The driver consumes nothing when a step fails, so an error is never
    left behind: once `next_block` returns one, every later call returns it
    again, and `while let Some(block) = reader.next_block()` does not end
    (`reader_error_repeats`).  A loop that stops at the first error does
    end: every block takes a frame of twelve bytes or more, so a stream of
    `L` bytes gives fewer than `L / 12` blocks (`reader_blocks_le`).
-/

namespace PcapFile.PcapNg

open ReadBuffer

/-! ## Section 1: The parser's steps can be streamed -/

theorem RawBlock.fromSlice_suffix {B : Endianness} {src rem : Bytes} {r : RawBlock}
    (h : RawBlock.fromSlice B src = .ok (rem, r)) : rem <:+ src := by
  obtain ⟨B', hsrc, -⟩ := RawBlock.fromSlice_eq_ok_writeTo h
  exact ⟨_, hsrc.symm⟩

/-- A frame the frame decoder accepts takes twelve bytes or more. -/
theorem RawBlock.length_le_of_fromSlice {B : Endianness} {src rem : Bytes} {r : RawBlock}
    (h : RawBlock.fromSlice B src = .ok (rem, r)) : rem.length + 12 ≤ src.length := by
  obtain ⟨B', rfl, -⟩ := RawBlock.fromSlice_eq_ok_writeTo h
  simp only [RawBlock.writeTo, List.length_append, writeU32_length]
  omega

/-- A block `Block::from_slice` reads is a frame the frame decoder reads. -/
theorem Block.fromSlice_eq_ok_raw {B : Endianness} {src rem : Bytes} {b : Block}
    (h : Block.fromSlice B src = .ok (rem, b)) : ∃ raw, RawBlock.fromSlice B src = .ok (rem, raw) := by
  rw [Block.fromSlice_eq] at h
  obtain ⟨⟨rem', raw⟩, hr, hb⟩ := Outcome.bind_eq_ok.mp h
  obtain ⟨_, -, hb⟩ := Outcome.map_eq_ok.mp hb
  cases hb
  exact ⟨raw, hr⟩

namespace PcapNgParser

/-- A `next_block` that succeeds read a frame and returns what follows it. -/
theorem nextBlock_eq_ok_raw {p : PcapNgParser} {src rem : Bytes} {b : Block}
    (h : (p.nextBlock src).1 = .ok (rem, b)) : ∃ raw, (p.nextRawBlock src).1 = .ok (rem, raw) := by
  unfold nextBlock at h
  unfold nextRawBlock
  obtain ⟨⟨rem', raw⟩, hr, hb⟩ := Outcome.bind_eq_ok.mp h
  obtain ⟨_, -, hb⟩ := Outcome.bind_eq_ok.mp hb
  cases hb
  exact ⟨raw, hr⟩

theorem nextRawBlock_suffix {p : PcapNgParser} {src rem : Bytes} {r : RawBlock}
    (h : (p.nextRawBlock src).1 = .ok (rem, r)) : rem <:+ src :=
  RawBlock.fromSlice_suffix (nextRawBlock_eq_ok (Prod.ext h rfl)).1

theorem streamable_nextBlock : Streamable nextBlock :=
  ⟨nextBlock_extendsTo,
    fun _ _ _ _ h => (nextBlock_eq_ok_raw h).elim fun _ hr => nextRawBlock_suffix hr,
    fun p src _ h => by rw [nextBlock_state, h],
    fun p src => nextBlock_isPanic p src⟩

theorem streamable_nextRawBlock : Streamable nextRawBlock :=
  ⟨nextRawBlock_extendsTo, fun _ _ _ _ h => nextRawBlock_suffix h,
    fun p src _ h => by rw [nextRawBlock_state, h],
    fun p src => nextRawBlockInner_isPanic _ p src⟩

/-- What `PcapNgParser::new` reads is the frame of its first block, read
    big endian. -/
theorem new_eq_ok_raw {src rem : Bytes} {p : PcapNgParser} (h : new src = .ok (rem, p)) :
    ∃ raw, RawBlock.fromSlice .big src = .ok (rem, raw) := by
  rw [new_eq] at h
  obtain ⟨⟨rem', b⟩, hb, hp⟩ := Outcome.bind_eq_ok.mp h
  obtain ⟨_, -, hp⟩ := Outcome.map_eq_ok.mp hp
  cases hp
  exact Block.fromSlice_eq_ok_raw hb

/-- The first block takes a frame of twelve bytes or more. -/
theorem new_length_le {src rem : Bytes} {p : PcapNgParser} (h : new src = .ok (rem, p)) :
    rem.length + 12 ≤ src.length :=
  (new_eq_ok_raw h).elim fun _ hr => RawBlock.length_le_of_fromSlice hr

/-- Every block `next_block` reads takes a frame of twelve bytes or more. -/
theorem nextBlock_length_le {p : PcapNgParser} {src rem : Bytes} {b : Block}
    (h : (p.nextBlock src).1 = .ok (rem, b)) : rem.length + 12 ≤ src.length :=
  (nextBlock_eq_ok_raw h).elim fun _ hr =>
    RawBlock.length_le_of_fromSlice (nextRawBlock_eq_ok (Prod.ext hr rfl)).1

theorem streamable_new : Streamable fun (_ : Unit) src => (new src, ()) :=
  .of_stateless new_extendsTo
    (fun _ _ _ h => (new_eq_ok_raw h).elim fun _ hr => RawBlock.fromSlice_suffix hr) new_isPanic

end PcapNgParser

/-! ## Section 2: The reader -/

/-- A `PcapNgReader`: the parser and the buffer it reads through. -/
structure PcapNgReader where
  parser : PcapNgParser
  reader : ReadBuffer

namespace PcapNgReader

/-- `PcapNgReader::new`: the first block, read through a new buffer, must be
    a section header. -/
def new (source : List ReadResult) : Outcome PcapNgReader :=
  let (r, reader) := (ReadBuffer.new source).parseWith PcapNgParser.new
  (fun parser => ⟨parser, reader⟩) <$> r

/-- `PcapNgReader::next_block`. -/
def nextBlock (r : PcapNgReader) : Option (Outcome Block) × PcapNgReader :=
  let (b, parser, reader) := r.reader.nextWithContext r.parser PcapNgParser.nextBlock
  (b, ⟨parser, reader⟩)

/-- `PcapNgReader::next_raw_block`. -/
def nextRawBlock (r : PcapNgReader) : Option (Outcome RawBlock) × PcapNgReader :=
  let (b, parser, reader) := r.reader.nextWithContext r.parser PcapNgParser.nextRawBlock
  (b, ⟨parser, reader⟩)

/-- `PcapNgReader::packet_interface`: the interface a packet's id names. -/
def packetInterface (r : PcapNgReader) (packet : EnhancedPacketBlock) :
    Option InterfaceDescriptionBlock :=
  r.parser.interfaces.get? packet.interfaceId.toNat

/-- `n` calls of `next_block`, up to the first `None`. -/
def run (n : Nat) (r : PcapNgReader) : List (Outcome Block) × PcapNgReader :=
  let (bs, parser, reader) := runWithContext PcapNgParser.nextBlock n r.reader r.parser
  (bs, ⟨parser, reader⟩)

theorem new_eq (source : List ReadResult) :
    new source = (fun parser => ⟨parser, ((ReadBuffer.new source).parseWith PcapNgParser.new).2⟩) <$>
      ((ReadBuffer.new source).parseWith PcapNgParser.new).1 := rfl

theorem nextBlock_eq_nextWithContext (r : PcapNgReader) :
    r.nextBlock = ((r.reader.nextWithContext r.parser PcapNgParser.nextBlock).1,
      ⟨(r.reader.nextWithContext r.parser PcapNgParser.nextBlock).2.1,
        (r.reader.nextWithContext r.parser PcapNgParser.nextBlock).2.2⟩) := rfl

/-! ## Section 3: The reader is the parser on the whole stream -/

/-- A reader made over a source that hands out a stream in non-empty chunks
    starts where `PcapNgParser::new` leaves the whole stream, on a source
    that is still clean, and fails as it fails. -/
theorem new_refines {cs : List Bytes} (hcs : ∀ c ∈ cs, c ≠ []) :
    (∀ rem p, PcapNgParser.new cs.flatten = .ok (rem, p) →
      ∃ r, new (ofChunks cs) = .ok r ∧ r.parser = p ∧ r.reader.pending = rem ∧
        Clean r.reader.source) ∧
    ∀ e, PcapNgParser.new cs.flatten = .err e → new (ofChunks cs) = .err e := by
  have hc := clean_ofChunks hcs
  refine ⟨fun rem p h => ?_, fun e h => ?_⟩
  · obtain ⟨h1, h2, h3⟩ := parseWith_ok PcapNgParser.streamable_new hc (pending_new_ofChunks cs ▸ h)
    exact ⟨⟨p, ((ReadBuffer.new (ofChunks cs)).parseWith PcapNgParser.new).2⟩, by rw [new_eq, h1]; rfl,
      rfl, h2, h3⟩
  · rw [new_eq, parseWith_err PcapNgParser.streamable_new hc rfl (pending_new_ofChunks cs ▸ h)]
    rfl

/-- Conversely, a reader `PcapNgReader::new` makes over such a source holds
    the parser `PcapNgParser::new` makes from the whole stream, the bytes
    that parser leaves are what remains of the stream, and the first block
    was consumed. -/
theorem new_eq_ok {cs : List Bytes} (hcs : ∀ c ∈ cs, c ≠ []) {r : PcapNgReader}
    (hr : new (ofChunks cs) = .ok r) :
    PcapNgParser.new cs.flatten = .ok (r.reader.pending, r.parser) ∧ Clean r.reader.source ∧
      0 < r.reader.consumed := by
  rw [new_eq] at hr
  obtain ⟨p, hp, rfl⟩ := Outcome.map_eq_ok.mp hr
  rw [← pending_new_ofChunks cs]
  obtain ⟨hnew, hc, hl⟩ := eq_ok_of_parseWith PcapNgParser.streamable_new (clean_ofChunks hcs) hp
  have hlen := PcapNgParser.new_length_le hnew
  simp only [streamLength, consumed_new] at hl
  exact ⟨hnew, hc, by dsimp only; omega⟩

/-- **The reader is the parser on the whole stream.**  However a source cuts
    a stream into non-empty reads, `PcapNgReader::new` fails exactly as
    `PcapNgParser::new` fails on the whole stream, and otherwise, for every
    number `n` of calls, the first `n` results of `next_block` and the
    parser's state after them (the `section()` and `interfaces()` the reader
    reports) are those of `next_block` run on the whole stream after the
    first section header, where a block the stream ends inside of is a
    truncation error; so no call of `next_block` returns
    `IncompleteBuffer`. -/
theorem reader_reads_whole_stream (cs : List Bytes) (hcs : ∀ c ∈ cs, c ≠ []) (n : Nat) :
    (fun r => ((r.run n).1, (r.run n).2.parser)) <$> new (ofChunks cs) =
        (fun x => ((runWhole (atEnd .ioError PcapNgParser.nextBlock) n x.2 x.1).1,
          (runWhole (atEnd .ioError PcapNgParser.nextBlock) n x.2 x.1).2.1)) <$>
          PcapNgParser.new cs.flatten ∧
      ∀ r, new (ofChunks cs) = .ok r → .err .incompleteBuffer ∉ (r.run n).1 := by
  obtain ⟨hok, herr⟩ := new_refines hcs
  have hruns : ∀ r, new (ofChunks cs) = .ok r →
      view (runWithContext PcapNgParser.nextBlock n r.reader r.parser) =
        runWhole (atEnd .ioError PcapNgParser.nextBlock) n r.parser r.reader.pending := fun r hr =>
    let ⟨_, hc, hpos⟩ := new_eq_ok hcs hr
    runWithContext_refines PcapNgParser.streamable_nextBlock n hc hpos r.parser
  refine ⟨?_, fun r hr => ?_⟩
  · have hp := PcapNgParser.new_isPanic cs.flatten
    rcases hnew : PcapNgParser.new cs.flatten with ⟨rem, p⟩ | e | m
    · obtain ⟨r, hr, rfl, rfl, -⟩ := hok rem p hnew
      have hrun := hruns r hr
      rw [hr]
      simp only [view] at hrun
      simp only [Outcome.map_ok, run, ← hrun]
    · rw [herr e hnew]; rfl
    · rw [hnew] at hp; cases hp
  · have hrun := congrArg Prod.fst (hruns r hr)
    simp only [view] at hrun
    simp only [run, hrun]
    exact incompleteBuffer_not_mem_runWhole (atEnd_ne_incompleteBuffer (e := .ioError) nofun) _ _ _

/-- A little-endian section header, then the first ten bytes of a second
    block: a stream that ends inside a block. -/
def truncatedChunks : List Bytes := [littleSectionFrame, littleSectionFrame.take 10]

theorem reader_reads_whole_stream_truncated :
    (∀ c ∈ truncatedChunks, c ≠ []) ∧
      ((fun r => ((r.run 1).1, (r.run 1).2.parser)) <$> new (ofChunks truncatedChunks) =
          (fun x => ((runWhole (atEnd .ioError PcapNgParser.nextBlock) 1 x.2 x.1).1,
            (runWhole (atEnd .ioError PcapNgParser.nextBlock) 1 x.2 x.1).2.1)) <$>
            PcapNgParser.new truncatedChunks.flatten ∧
        ∀ r, new (ofChunks truncatedChunks) = .ok r → .err .incompleteBuffer ∉ (r.run 1).1) :=
  ⟨by decide, reader_reads_whole_stream _ (by decide) 1⟩

/- On that stream the parser's `next_block` runs out of input, and the
   reader reports the truncation. -/
example : (fun x => (runWhole PcapNgParser.nextBlock 1 x.2 x.1).1) <$>
    PcapNgParser.new truncatedChunks.flatten = .ok [.err .incompleteBuffer] := by rfl

example : (fun r => (r.run 1).1) <$> new (ofChunks truncatedChunks) = .ok [.err .ioError] := by
  rfl

/-- **An error is never left behind.**  On a source that hands out a stream
    in non-empty chunks, once `next_block` returns an error, every later
    call returns the same error and none returns `None`: a loop
    `while let Some(block) = reader.next_block()` does not end. -/
theorem reader_error_repeats {r r' : PcapNgReader} (hc : Clean r.reader.source) {e : PcapError}
    (h : r.nextBlock = (some (.err e), r')) (n : Nat) :
    (r'.run n).1 = List.replicate n (.err e) := by
  rw [nextBlock_eq_nextWithContext] at h
  have h' : r.reader.nextWithContext r.parser PcapNgParser.nextBlock =
      (some (.err e), r'.parser, r'.reader) := by
    rw [← (Prod.mk.inj h).1]
    cases (Prod.mk.inj h).2
    rfl
  exact runWithContext_after_err PcapNgParser.streamable_nextBlock hc h' n

/-- **The reader returns at most one block per twelve bytes.**  However a
    source cuts a stream of `L` bytes into non-empty reads, the calls of
    `next_block` that all return `Ok` on a reader `PcapNgReader::new` made
    over it returned fewer than `L / 12` blocks: the first section header
    and every block take a frame of twelve bytes or more.  So a loop
    `while let Some(Ok(block)) = reader.next_block()` ends after at most
    `L / 12` calls, whatever the stream holds. -/
theorem reader_blocks_le {cs : List Bytes} (hcs : ∀ c ∈ cs, c ≠ []) {r : PcapNgReader}
    (hr : new (ofChunks cs) = .ok r) {n : Nat} {bs : List Block} (h : (r.run n).1 = bs.map .ok) :
    12 * (bs.length + 1) ≤ cs.flatten.length := by
  obtain ⟨hnew, hc, hpos⟩ := new_eq_ok hcs hr
  have hfirst := PcapNgParser.new_length_le hnew
  have hrun := congrArg Prod.fst
    (runWithContext_refines PcapNgParser.streamable_nextBlock n hc hpos r.parser)
  have hblocks := length_le_of_runWhole
    (fun _ _ _ _ _ h => PcapNgParser.nextBlock_length_le (congrArg Prod.fst (atEnd_eq_ok.mp h)))
    (by rw [← hrun]; exact h)
  rw [Nat.mul_succ]
  omega

theorem reader_blocks_le_two_sections :
    (∀ c ∈ [littleSectionFrame, littleSectionFrame], c ≠ []) ∧
      ∃ r b, new (ofChunks [littleSectionFrame, littleSectionFrame]) = .ok r ∧
        (r.run 2).1 = [b].map .ok ∧
        12 * ([b].length + 1) ≤ [littleSectionFrame, littleSectionFrame].flatten.length :=
  ⟨by decide, _, _, rfl, rfl,
    @reader_blocks_le [littleSectionFrame, littleSectionFrame] (by decide) _ rfl 2 _ rfl⟩

/-- A reader past a section header frame of 28 bytes whose unconsumed bytes
    are twelve zeros: a frame whose length is below twelve. -/
def shortFrameReader : PcapNgReader := ⟨⟨.default, []⟩, ⟨List.replicate 12 0, [], 28⟩⟩

theorem reader_error_repeats_short_frame :
    Clean shortFrameReader.reader.source ∧
      shortFrameReader.nextBlock =
        (some (.err (.invalidField "Block: initial_len < 12")), shortFrameReader) ∧
      (shortFrameReader.run 3).1 =
        List.replicate 3 (.err (.invalidField "Block: initial_len < 12")) :=
  have hc : Clean shortFrameReader.reader.source := fun _ h => nomatch h
  have h : shortFrameReader.nextBlock =
      (some (.err (.invalidField "Block: initial_len < 12")), shortFrameReader) := rfl
  ⟨hc, h, reader_error_repeats hc h 3⟩

end PcapNgReader

end PcapFile.PcapNg
