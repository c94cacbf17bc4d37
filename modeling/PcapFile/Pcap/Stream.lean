import PcapFile.Pcap.Packet
import PcapFile.PcapNg.Writer
import PcapFile.ReadBuffer

/-! # The pcap parser, reader and writer (`pcap/parser.rs`, `pcap/reader.rs`, `pcap/writer.rs`)

    A pcap file is its global header and then packet records, every field
    in the header's byte order.  `PcapParser` reads the header and then one
    record per `next_raw_packet` call from slices the caller supplies;
    `PcapReader` drives it over a byte source through a `ReadBuffer`;
    `PcapWriter` writes the header on construction and then one record per
    `write_raw_packet` call, in the header's byte order.

    The parser keeps no state beyond its header, so each of its steps can
    be streamed, and the reader is the parser on the whole stream, a stream
    that ends inside a record giving a truncation error
    (`ReadBuffer.runWithContext_refines`).  What the writer writes, the
    reader reads back: however a source cuts the bytes into reads, the
    reader starts with the writer's header and returns the records written,
    in order, and then `None` (`writer_packets_read_back`).  And what the
    reader reads, the writer writes back byte for byte: a stream the reader
    reads to its end, written again under the header the reader reports,
    is the same stream (`reader_copy_exact`).
-/

namespace PcapFile

open ReadBuffer PcapNg

/-! ## Section 1: The parser -/

/-- `PcapParser`: the header of the file it reads. -/
structure PcapParser where
  header : PcapHeader
  deriving DecidableEq, Repr

namespace PcapParser

/-- `PcapParser::new`: the header, then a parser for what follows it. -/
def new (slice : Bytes) : Outcome (Bytes × PcapParser) := do
  let (slice, header) ← PcapHeader.fromSlice slice
  pure (slice, ⟨header⟩)

/-- `PcapParser::next_raw_packet`: one record, in the header's byte order. -/
def nextRawPacket (p : PcapParser) (slice : Bytes) : Outcome (Bytes × RawPcapPacket) :=
  RawPcapPacket.fromSlice p.header.endianness slice

theorem new_eq (slice : Bytes) :
    new slice = (fun r => (r.1, PcapParser.mk r.2)) <$> PcapHeader.fromSlice slice := by
  unfold new
  cases PcapHeader.fromSlice slice <;> rfl

/-- `PcapParser::new` on a header with a canonical link type, written in
    its own byte order. -/
theorem new_writeTo {h : PcapHeader} (hd : h.datalink.Canonical) (rest : Bytes) :
    new (h.writeTo.bytes ++ rest) = .ok (rest, ⟨h⟩) := by
  rw [new_eq, (PcapHeader.fromSlice_writeTo_iff h rest).mpr hd]
  rfl

/-- **Decode, then encode.**  What `PcapParser::new` reads is the header it
    keeps, as the writer writes it. -/
theorem eq_writeTo_of_new {s rem : Bytes} {p : PcapParser} (h : new s = .ok (rem, p)) :
    s = p.header.writeTo.bytes ++ rem := by
  rw [new_eq] at h
  obtain ⟨⟨rem', header⟩, hx, hp⟩ := Outcome.map_eq_ok.mp h
  cases hp
  exact PcapHeader.eq_writeTo_of_fromSlice hx

theorem new_extendsTo (src ext : Bytes) : ExtendsTo (new src) (new (src ++ ext)) ext := by
  obtain ⟨hok, herr⟩ := PcapHeader.fromSlice_extendsTo src ext
  rw [new_eq, new_eq]
  refine ⟨fun rem p h => ?_, fun e h hne => ?_⟩
  · obtain ⟨⟨rem', header⟩, hx, hp⟩ := Outcome.map_eq_ok.mp h
    cases hp
    rw [hok _ _ hx]
    rfl
  · cases hx : PcapHeader.fromSlice src <;> rw [hx] at h <;> cases h
    rw [herr _ hx hne]
    rfl

theorem streamable_new : Streamable fun (_ : Unit) src => (new src, ()) :=
  .of_stateless new_extendsTo (fun _ _ _ h => ⟨_, (eq_writeTo_of_new h).symm⟩)
    (fun src => by rw [new_eq, Outcome.isPanic_map]; exact PcapHeader.fromSlice_isPanic src)

/-- Every record step of the parser can be streamed. -/
theorem streamable_nextRawPacket (p : PcapParser) :
    Streamable fun (_ : Unit) src => (p.nextRawPacket src, ()) :=
  .of_stateless (RawPcapPacket.fromSlice_extendsTo _)
    (fun _ _ _ h => ⟨_, (RawPcapPacket.eq_writeTo_of_fromSlice h).2.symm⟩)
    (RawPcapPacket.fromSlice_isPanic _)

/-- The parser reads every run of well-formed records written in its byte
    order, one per call, and then finds the stream exhausted. -/
theorem runWhole_writeTo (p : PcapParser) {ps : List RawPcapPacket} (hps : ∀ q ∈ ps, q.WellFormed)
    {e : PcapError} (k : Nat) :
    runWhole (atEnd e fun (_ : Unit) src => (p.nextRawPacket src, ())) (ps.length + k) ()
        (ps.map fun q => (RawPcapPacket.writeTo p.header.endianness q).bytes).flatten =
      (ps.map .ok, (), []) := by
  induction ps with
  | nil => simpa using runWhole_nil (atEnd e fun (_ : Unit) src => (p.nextRawPacket src, ())) k ()
  | cons q ps ih =>
    have hstep : nextWhole (atEnd e fun (_ : Unit) src => (p.nextRawPacket src, ())) ()
        ((RawPcapPacket.writeTo p.header.endianness q).bytes ++
          (ps.map fun q => (RawPcapPacket.writeTo p.header.endianness q).bytes).flatten) =
        (some (.ok q), (), (ps.map fun q => (RawPcapPacket.writeTo p.header.endianness q).bytes).flatten) :=
      nextWhole_of_ok (by simp [RawPcapPacket.writeTo]) (atEnd_of_ok
        (congrArg (·, ()) (RawPcapPacket.fromSlice_writeTo _ (hps q (List.mem_cons_self q ps)) _)))
    rw [List.length_cons, Nat.add_right_comm, List.map_cons, List.flatten_cons,
      runWhole_succ_of_some hstep, ih fun q' hq' => hps q' (List.mem_cons_of_mem q hq')]
    rfl

end PcapParser

/-! ## Section 2: The reader -/

/-- A `PcapReader`: the parser and the buffer it reads through. -/
structure PcapReader where
  parser : PcapParser
  reader : ReadBuffer

namespace PcapReader

/-- `PcapReader::new`: the header, read through a new buffer. -/
def new (source : List ReadResult) : Outcome PcapReader :=
  let (r, reader) := (ReadBuffer.new source).parseWith PcapParser.new
  (fun parser => ⟨parser, reader⟩) <$> r

/-- `PcapReader::next_raw_packet`: the parser keeps no state, so the step
    runs through the buffer with no context. -/
def nextRawPacket (r : PcapReader) : Option (Outcome RawPcapPacket) × PcapReader :=
  let (p, (), reader) := r.reader.nextWithContext () fun () src => (r.parser.nextRawPacket src, ())
  (p, ⟨r.parser, reader⟩)

/-- `PcapReader::header`. -/
def header (r : PcapReader) : PcapHeader := r.parser.header

/-- `n` calls of `next_raw_packet`, up to the first `None`. -/
def run (n : Nat) (r : PcapReader) : List (Outcome RawPcapPacket) × PcapReader :=
  let (ps, (), reader) :=
    runWithContext (fun () src => (r.parser.nextRawPacket src, ())) n r.reader ()
  (ps, ⟨r.parser, reader⟩)

theorem new_eq (source : List ReadResult) :
    new source = (fun parser => ⟨parser, ((ReadBuffer.new source).parseWith PcapParser.new).2⟩) <$>
      ((ReadBuffer.new source).parseWith PcapParser.new).1 := rfl

/-- A reader made over a source that hands out a stream in non-empty chunks
    starts where `PcapParser::new` leaves the whole stream, on a source that
    is still clean. -/
theorem new_of_ok {cs : List Bytes} (hcs : ∀ c ∈ cs, c ≠ []) {rem : Bytes} {p : PcapParser}
    (h : PcapParser.new cs.flatten = .ok (rem, p)) :
    ∃ r, new (ofChunks cs) = .ok r ∧ r.parser = p ∧ r.reader.pending = rem ∧
      Clean r.reader.source := by
  obtain ⟨h1, h2, h3⟩ :=
    parseWith_ok PcapParser.streamable_new (clean_ofChunks hcs) (pending_new_ofChunks cs ▸ h)
  exact ⟨⟨p, ((ReadBuffer.new (ofChunks cs)).parseWith PcapParser.new).2⟩, by rw [new_eq, h1]; rfl,
    rfl, h2, h3⟩

/-- Conversely, a reader `PcapReader::new` makes over such a source holds the
    parser `PcapParser::new` makes from the whole stream, the bytes that
    parser leaves are what remains of the stream, and the header was
    consumed. -/
theorem new_eq_ok {cs : List Bytes} (hcs : ∀ c ∈ cs, c ≠ []) {r : PcapReader}
    (hr : new (ofChunks cs) = .ok r) :
    PcapParser.new cs.flatten = .ok (r.reader.pending, r.parser) ∧ Clean r.reader.source ∧
      0 < r.reader.consumed := by
  rw [new_eq] at hr
  obtain ⟨p, hp, rfl⟩ := Outcome.map_eq_ok.mp hr
  rw [← pending_new_ofChunks cs]
  obtain ⟨hnew, hc, hl⟩ := eq_ok_of_parseWith PcapParser.streamable_new (clean_ofChunks hcs) hp
  have hlen := congrArg List.length (PcapParser.eq_writeTo_of_new hnew)
  simp only [streamLength, consumed_new, List.length_append, PcapHeader.writeTo_length] at hl hlen
  exact ⟨hnew, hc, by dsimp only; omega⟩

end PcapReader

/-! ## Section 3: The writer -/

/-- A `PcapWriter`: what it keeps of the header, and its sink. -/
structure PcapWriter where
  endianness : Endianness
  snaplen : UInt32
  tsResolution : TsResolution
  writer : Sink

namespace PcapWriter

/-- `PcapWriter::with_header`: the header is written first. -/
def withHeader (writer : Sink) (header : PcapHeader) : Outcome PcapWriter :=
  let r := writer.emit header.writeTo.bytes
  if r.1 then pure ⟨header.endianness, header.snaplen, header.tsResolution, r.2⟩
  else .err .ioError

/-- `PcapWriter::new`, given the byte order `Endianness::native()` names on
    the machine the code runs on: the default header in that order. -/
def new (native : Endianness) (writer : Sink) : Outcome PcapWriter :=
  withHeader writer { PcapHeader.default with endianness := native }

/-- `PcapWriter::write_raw_packet`: the record in the header's byte order. -/
def writeRawPacket (w : PcapWriter) (packet : RawPcapPacket) : Outcome Nat × PcapWriter :=
  let written := RawPcapPacket.writeTo w.endianness packet
  let r := w.writer.emit written.bytes
  (if r.1 then .ok written.count else .err .ioError, { w with writer := r.2 })

/-- A run of `write_raw_packet` calls that all return `Ok`: the writer after
    them, or `none` when one of them fails. -/
def run (w : PcapWriter) : List RawPcapPacket → Option PcapWriter
  | [] => some w
  | p :: ps =>
    match w.writeRawPacket p with
    | (.ok _, w') => w'.run ps
    | _ => none

theorem withHeader_eq_ok {sink : Sink} {h : PcapHeader} {w : PcapWriter}
    (hw : withHeader sink h = .ok w) :
    w.endianness = h.endianness ∧ w.writer.contents = sink.contents ++ h.writeTo.bytes := by
  dsimp only [withHeader] at hw
  split at hw
  · cases hw; exact ⟨rfl, Sink.emit_contents ‹_›⟩
  · cases hw

/-- The run lemma of the writer: a run that succeeds appends every record,
    in the writer's byte order, which it keeps. -/
theorem run_eq_some {w w' : PcapWriter} {ps : List RawPcapPacket} (h : w.run ps = some w') :
    w'.endianness = w.endianness ∧ w'.writer.contents = w.writer.contents ++
      (ps.map fun p => (RawPcapPacket.writeTo w.endianness p).bytes).flatten := by
  induction ps generalizing w with
  | nil => cases h; exact ⟨rfl, (List.append_nil _).symm⟩
  | cons p ps ih =>
    simp only [run, writeRawPacket] at h
    split at h
    · rename_i w'' hp
      simp only [Prod.mk.injEq] at hp
      obtain ⟨hok, rfl⟩ := hp
      split at hok
      · obtain ⟨he, hc⟩ := ih h
        exact ⟨he, by rw [hc, Sink.emit_contents ‹_›]; simp⟩
      · cases hok
    · cases h

/-- On a sink that takes every write, `with_header` succeeds, and the
    writer's sink still takes every write. -/
theorem withHeader_of_unbounded {sink : Sink} (hs : sink.room = none) (h : PcapHeader) :
    ∃ w, withHeader sink h = .ok w ∧ w.writer.room = none := by
  obtain ⟨c, room⟩ := sink
  cases hs
  exact ⟨_, rfl, rfl⟩

/-- On a sink that takes every write, every run of `write_raw_packet`
    succeeds. -/
theorem run_of_unbounded {w : PcapWriter} (hw : w.writer.room = none) (ps : List RawPcapPacket) :
    ∃ w', w.run ps = some w' := by
  induction ps generalizing w with
  | nil => exact ⟨w, rfl⟩
  | cons p ps ih =>
    obtain ⟨e, snap, r, c, room⟩ := w
    cases hw
    exact ih (w := ⟨e, snap, r, ⟨c ++ (RawPcapPacket.writeTo e p).bytes, none⟩⟩) rfl

end PcapWriter

/-! ## Section 4: What the writer writes the reader reads back -/

/-- **Pcap writer to reader round trip.**  Take a writer made by
    `PcapWriter::with_header` with a header whose link type is canonical,
    and a run of `write_raw_packet` calls that all return `Ok`, every
    record well formed.  However a source cuts the bytes
    the writer wrote into non-empty reads, `PcapReader::new` succeeds on
    them with the writer's header, and its `next_raw_packet` returns the
    records written, in order, and then `None`. -/
theorem writer_packets_read_back {sink : Sink} {h : PcapHeader} {ps : List RawPcapPacket}
    {w₀ w : PcapWriter} (hh : h.datalink.Canonical) (hps : ∀ p ∈ ps, p.WellFormed) (h₀ : PcapWriter.withHeader sink h = .ok w₀)
    (hrun : w₀.run ps = some w) (cs : List Bytes) (hcs : ∀ c ∈ cs, c ≠ [])
    (hcontents : w.writer.contents = sink.contents ++ cs.flatten) (k : Nat) :
    (fun r => ((r.run (ps.length + k)).1, r.header)) <$> PcapReader.new (ofChunks cs) =
      .ok (ps.map .ok, h) := by
  obtain ⟨he₀, hw₀⟩ := PcapWriter.withHeader_eq_ok h₀
  obtain ⟨-, hw⟩ := PcapWriter.run_eq_some hrun
  have hstream : cs.flatten = h.writeTo.bytes ++
      (ps.map fun p => (RawPcapPacket.writeTo h.endianness p).bytes).flatten := by
    rw [hw, hw₀, he₀, List.append_assoc] at hcontents
    exact (List.append_cancel_left hcontents).symm
  obtain ⟨r, hr, hp, hpend, hc⟩ :=
    PcapReader.new_of_ok hcs (hstream ▸ PcapParser.new_writeTo hh _)
  have hrun' := runWithContext_refines (PcapParser.streamable_nextRawPacket r.parser)
    (ps.length + k) hc (PcapReader.new_eq_ok hcs hr).2.2 ()
  rw [hpend, hp, PcapParser.runWhole_writeTo ⟨h⟩ hps] at hrun'
  simp only [view, Prod.mk.injEq] at hrun'
  rw [hr, Outcome.map_ok]
  simp only [PcapReader.run, PcapReader.header, hp, hrun'.1]

/-- A record of three bytes. -/
def threeByteRecord : RawPcapPacket := ⟨1, 2, 3, 3, [0xAA, 0xBB, 0xCC]⟩

theorem writer_packets_read_back_one_record :
    ∃ w₀ w, PcapWriter.withHeader ⟨[], none⟩ .default = .ok w₀ ∧
      w₀.run [threeByteRecord] = some w ∧
      (fun r => ((r.run ([threeByteRecord].length + 1)).1, r.header)) <$>
          PcapReader.new (ofChunks [w.writer.contents.take 10, w.writer.contents.drop 10]) =
        .ok ([threeByteRecord].map .ok, .default) :=
  ⟨_, _, rfl, rfl, @writer_packets_read_back ⟨[], none⟩ .default [threeByteRecord] _ _
    trivial (by decide) rfl rfl _ (by decide) (by simp) 1⟩

/-! ## Section 5: What the reader reads the writer writes back -/

/-- **Copying a pcap file is byte exact.**  However a source cuts a stream
    into non-empty reads, if `PcapReader::new` succeeds on it and
    `next_raw_packet` returns the records `ps` and then `None`, a writer
    made by `PcapWriter::with_header` with the header the reader reports, on
    a sink that takes every write, accepts every one of those records, and
    what it writes is the stream. -/
theorem reader_copy_exact {cs : List Bytes} (hcs : ∀ c ∈ cs, c ≠ []) {r : PcapReader}
    (hr : PcapReader.new (ofChunks cs) = .ok r) {n : Nat} {ps : List RawPcapPacket}
    (hps : (r.run n).1 = ps.map .ok) (hend : ps.length < n) {sink : Sink}
    (hsink : sink.room = none) :
    ∃ w₀ w, PcapWriter.withHeader sink r.header = .ok w₀ ∧ w₀.run ps = some w ∧
      w.writer.contents = sink.contents ++ cs.flatten := by
  obtain ⟨hnew, hc, hpos⟩ := PcapReader.new_eq_ok hcs hr
  have hhead := PcapParser.eq_writeTo_of_new hnew
  have hrun := congrArg Prod.fst
    (runWithContext_refines (PcapParser.streamable_nextRawPacket r.parser) n hc hpos ())
  have hrest : r.reader.pending =
      (ps.map fun q => (RawPcapPacket.writeTo r.header.endianness q).bytes).flatten :=
    eq_flatten_of_runWhole
      (f := atEnd .ioError fun (_ : Unit) src => (r.parser.nextRawPacket src, ())) _
      (fun _ _ _ _ _ h => (RawPcapPacket.eq_writeTo_of_fromSlice (Prod.mk.inj (atEnd_eq_ok.mp h)).1).2)
      (by rw [← hrun]; exact hps) hend
  obtain ⟨w₀, h₀, hroom⟩ := PcapWriter.withHeader_of_unbounded hsink r.header
  obtain ⟨w, hw⟩ := PcapWriter.run_of_unbounded hroom ps
  obtain ⟨he₀, hc₀⟩ := PcapWriter.withHeader_eq_ok h₀
  refine ⟨w₀, w, h₀, hw, ?_⟩
  rw [(PcapWriter.run_eq_some hw).2, hc₀, he₀, hhead, hrest, List.append_assoc]
  rfl

/-- The default header and one three-byte record, in two reads. -/
def oneRecordChunks : List Bytes :=
  let s := PcapHeader.default.writeTo.bytes ++ (RawPcapPacket.writeTo .big threeByteRecord).bytes
  [s.take 10, s.drop 10]

theorem reader_copy_exact_one_record :
    (∀ c ∈ oneRecordChunks, c ≠ []) ∧
      ∃ r, PcapReader.new (ofChunks oneRecordChunks) = .ok r ∧
        (r.run 2).1 = [threeByteRecord].map .ok ∧
        ∃ w₀ w, PcapWriter.withHeader ⟨[], none⟩ r.header = .ok w₀ ∧
          w₀.run [threeByteRecord] = some w ∧ w.writer.contents = [] ++ oneRecordChunks.flatten :=
  ⟨by decide, _, rfl, rfl, @reader_copy_exact oneRecordChunks (by decide) _ rfl 2 [threeByteRecord]
    rfl (by decide) ⟨[], none⟩ rfl⟩

end PcapFile
