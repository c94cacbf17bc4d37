import PcapFile.PcapNg.Framing
import PcapFile.PcapNg.Writer
import PcapFile.Pcap.Header

/-! # Byte counts (`write_to` and `PcapNgWriter`)

    Every writer returns a count of the bytes it wrote, and `inner_write_to`
    frames a block with the count its body writer returned.  The counts are
    exact for the pcap header, for every block whose address records have
    the size of their address family, and so for `write_block` on those
    blocks (`writer_counts_exact`).

    `RawBlock::write_to` is the exception: it writes the type, the length,
    the body and the trailer, twelve bytes more than the body, and returns
    `body.len() + 6`; `write_raw_block` passes that count on, so every raw
    write that succeeds reports six bytes fewer than it appended
    (`raw_write_count_short`).
-/

namespace PcapFile.PcapNg

/-- `RawBlock::write_to` writes six bytes more than it reports. -/
theorem RawBlock.writeTo_length (B : Endianness) (r : RawBlock) :
    (RawBlock.writeTo B r).bytes.length = (RawBlock.writeTo B r).count + 6 := by
  simp only [RawBlock.writeTo, List.length_append, writeU32_length]
  omega

/-- `Block::write_to` writes the bytes it reports when the body writer's dry
    run counts what it writes, which holds once the address records are
    sized. -/
theorem Block.writeTo_exact (B : Endianness) {b : Block} (h : b.AddressesSized) :
    (Block.writeTo B b).Exact := by
  rw [Block.writeTo_eq_body]
  exact (innerWriteTo_isFrame B (Block.bodyWriteTo_exact B h) b.typeCode).2.1

namespace PcapNgWriter

/-- A `write_raw_block` that succeeds returns the count of
    `RawBlock::write_to` and appends its bytes. -/
theorem writeRawBlock_eq_ok {w w' : PcapNgWriter} {r : RawBlock} {n : Nat}
    (h : w.writeRawBlock r = (.ok n, w')) :
    n = (RawBlock.writeTo w.section_.endianness r).count ∧
      w'.writer.contents = w.writer.contents ++ (RawBlock.writeTo w.section_.endianness r).bytes := by
  dsimp only [writeRawBlock] at h
  split at h
  · obtain ⟨rfl, -, hc⟩ := emit_eq_ok h
    exact ⟨rfl, hc⟩
  · cases h
  · cases h

/-- A `write_block` that succeeds returns the count of `Block::write_to` in
    the byte order of the block's section. -/
theorem writeBlock_count {w w' : PcapNgWriter} {b : Block} {n : Nat}
    (h : w.writeBlock b = (.ok n, w')) :
    n = (Block.writeTo (w.state.afterBlock b).section_.endianness b).count := by
  unfold writeBlock at h
  split at h
  · obtain ⟨-, hs, -⟩ := preWrite_eq_ok ‹_›
    obtain ⟨rfl, -, -⟩ := emit_eq_ok h
    rw [← hs]
    rfl
  · cases h
  · cases h

/-- **Raw writes under-report by six bytes.**  For every byte order and raw
    block, `RawBlock::write_to` writes six bytes more than the count it
    returns, and every `write_raw_block` that returns `Ok(n)` has appended
    `n + 6` bytes to the sink. -/
theorem raw_write_count_short :
    (∀ B r, (RawBlock.writeTo B r).bytes.length = (RawBlock.writeTo B r).count + 6) ∧
    ∀ (w w' : PcapNgWriter) r n, w.writeRawBlock r = (.ok n, w') →
      w'.writer.contents.length = w.writer.contents.length + n + 6 := by
  refine ⟨RawBlock.writeTo_length, fun w w' r n h => ?_⟩
  obtain ⟨rfl, hc⟩ := writeRawBlock_eq_ok h
  rw [hc, List.length_append, RawBlock.writeTo_length]
  omega

example : (RawBlock.writeTo .big defaultSectionFrame).count = 22 ∧
    (RawBlock.writeTo .big defaultSectionFrame).bytes.length = 28 := by decide

/-- **Exact counts.**  `PcapHeader::write_to` writes the bytes it reports;
    so does `Block::write_to` on every block whose address records have the
    size of their family, in either byte order; and a `write_block` (so also
    a `write_pcapng_block`) of such a block that returns `Ok(n)` has
    appended exactly `n` bytes to the sink. -/
theorem writer_counts_exact :
    (∀ h : PcapHeader, h.writeTo.Exact) ∧
    (∀ B (b : Block), b.AddressesSized → (Block.writeTo B b).Exact) ∧
    ∀ (w w' : PcapNgWriter) b n, b.AddressesSized → w.writeBlock b = (.ok n, w') →
      w'.writer.contents.length = w.writer.contents.length + n := by
  refine ⟨PcapHeader.writeTo_exact, fun B _ hb => Block.writeTo_exact B hb,
    fun w w' b n hb h => ?_⟩
  rw [(writeBlock_eq_ok h).2.2, List.length_append, writeBlock_count h, Block.writeTo_exact _ hb]

end PcapNgWriter

end PcapFile.PcapNg
