import PcapFile.PcapNg.Replay

/-! # Failed and panicking writes (`pcapng/writer.rs`)

    `write_block` updates the section and the interfaces before it writes
    the block, and `write_raw_block` decodes a raw section header and adopts
    it before it writes the frame.  So an error has two possible origins.
    A check that fails before the write (`InvalidInterfaceId`, or a raw
    section header that does not decode, with the decoder's error, which
    is never an I/O error) leaves the writer exactly as it was, sink
    included.  An I/O error of the sink comes after the update: the state
    has already moved as for a successful write, and the sink holds the old
    contents followed by a proper prefix of the block's bytes
    (`failed_write_leaves`, `failed_interface_write_recorded`).

    The only panic of `write_raw_block` is the one of `try_from_raw_block`
    on a body that is not borrowed; the raw section header is the only
    frame it decodes, so an owned section header is the only raw block
    that panics (`raw_write_panics_iff`).
-/

namespace PcapFile.PcapNg

/-- A write the sink refuses has appended a proper prefix of its bytes. -/
theorem Sink.emit_fails {w : Sink} {bs : Bytes} (h : (w.emit bs).1 = false) :
    ∃ k < bs.length, (w.emit bs).2.contents = w.contents ++ bs.take k := by
  rcases w with ⟨c, _ | n⟩
  · cases h
  · by_cases hn : bs.length ≤ n
    · simp [Sink.emit, hn] at h
    · simp only [Sink.emit, if_neg hn]
      exact ⟨n, by omega, rfl⟩

namespace PcapNgWriter

/-! ## Section 1: Each step's failures -/

/-- A write the sink refuses is an I/O error, leaves the section and
    interfaces alone, and appends a proper prefix of its bytes. -/
theorem emit_eq_err {w w' : PcapNgWriter} {written : Written} {e : PcapError}
    (h : w.emit written = (.err e, w')) :
    e = .ioError ∧ w'.state = w.state ∧
      ∃ k < written.bytes.length, w'.writer.contents = w.writer.contents ++ written.bytes.take k := by
  simp only [emit, Prod.mk.injEq] at h
  obtain ⟨h, rfl⟩ := h
  split at h
  · cases h
  · next hf =>
    cases h
    exact ⟨rfl, rfl, Sink.emit_fails (by simpa using hf)⟩

theorem emit_isPanic (w : PcapNgWriter) (written : Written) : (w.emit written).1.isPanic = false := by
  simp only [emit]
  split <;> rfl

/-- The check of `write_block` fails only on a statistics or packet block
    whose interface id is not below the number of recorded interfaces. -/
theorem preWrite_eq_err {w : PcapNgWriter} {b : Block} {e : PcapError}
    (h : preWrite w b = .err e) :
    ∃ id ∈ b.interfaceRef, e = .invalidInterfaceId id ∧ w.interfaces.length ≤ id.toNat := by
  cases b with
  | interfaceStatistics a | enhancedPacket a =>
    simp only [preWrite] at h
    split at h
    · cases h
      exact ⟨a.interfaceId, rfl, rfl, ‹_›⟩
    · cases h
  | _ => simp [preWrite] at h

theorem preWrite_isPanic (w : PcapNgWriter) (b : Block) : (preWrite w b).isPanic = false := by
  cases b <;> simp only [preWrite, Outcome.pure_eq, Outcome.isPanic_ok] <;> split <;> rfl

/-- **A failed `write_block`.**  Either the interface check failed, and the
    writer is as it was, or the sink failed after the state moved as for a
    successful write, holding a proper prefix of the block's bytes. -/
theorem writeBlock_eq_err {w w' : PcapNgWriter} {b : Block} {e : PcapError}
    (h : w.writeBlock b = (.err e, w')) :
    (w' = w ∧ ∃ id ∈ b.interfaceRef, e = .invalidInterfaceId id ∧
        w.interfaces.length ≤ id.toNat) ∨
      (e = .ioError ∧ w'.state = w.state.afterBlock b ∧
        ∃ k < (Block.writeTo (w.state.afterBlock b).section_.endianness b).bytes.length,
          w'.writer.contents = w.writer.contents ++
            (Block.writeTo (w.state.afterBlock b).section_.endianness b).bytes.take k) := by
  unfold writeBlock at h
  split at h
  · rename_i w'' hp
    obtain ⟨-, hs, hw⟩ := preWrite_eq_ok hp
    obtain ⟨rfl, hs', k, hk, hc⟩ := emit_eq_err h
    refine .inr ⟨rfl, hs'.trans hs, ?_⟩
    rw [← hs, ← hw]
    exact ⟨k, hk, hc⟩
  · cases h
    exact .inl ⟨rfl, preWrite_eq_err ‹_›⟩
  · cases h

/-- The section update of `write_raw_block` never fails with an I/O error:
    its errors are those of the section header decoder. -/
theorem rawSection_ne_ioError (B : Endianness) (s : SectionHeaderBlock) (r : RawBlock) :
    rawSection B s r ≠ .err .ioError := by
  obtain ⟨t, len, cow, trailer⟩ := r
  by_cases ht : t = sectionHeaderBlock
  · subst ht
    cases cow with
    | borrowed body =>
      simp only [rawSection, if_true, Block.tryFromRawBlock_sectionHeader]
      exact Outcome.bind_ne_err (Outcome.map_ne_err (SectionHeaderBlock.fromSlice_ne_ioError _ _))
        fun _ _ => unwrap_ne_err _ _
    | owned body => simp [rawSection, Block.tryFromRawBlock]
  · simp [rawSection, ht]

/-- **A failed `write_raw_block`.**  Either the raw section header did not
    decode, with an error that is not an I/O error, and the writer is as it
    was, or the sink failed after the section moved to the decoded one. -/
theorem writeRawBlock_eq_err {w w' : PcapNgWriter} {r : RawBlock} {e : PcapError}
    (h : w.writeRawBlock r = (.err e, w')) :
    (rawSection w.section_.endianness w.section_ r = .err e ∧ e ≠ .ioError ∧ w' = w) ∨
      (e = .ioError ∧ w'.interfaces = w.interfaces ∧
        rawSection w.section_.endianness w.section_ r = .ok w'.section_ ∧
        ∃ k < (RawBlock.writeTo w.section_.endianness r).bytes.length,
          w'.writer.contents = w.writer.contents ++
            (RawBlock.writeTo w.section_.endianness r).bytes.take k) := by
  dsimp only [writeRawBlock] at h
  split at h
  · rename_i s hs
    obtain ⟨rfl, hst, k, hk, hc⟩ := emit_eq_err h
    have hsec : w'.section_ = s := congrArg PcapNgParser.section_ hst
    exact .inr ⟨rfl, congrArg PcapNgParser.interfaces hst, hsec ▸ hs, k, hk, hc⟩
  · rename_i hs
    cases h
    exact .inl ⟨hs, fun he => rawSection_ne_ioError _ _ _ (he ▸ hs), rfl⟩
  · cases h

/-! ## Section 2: What a failed write leaves -/

/-- **What a failed write leaves.**  For every writer state, block, raw
    block and sink: a `write_block` that returns an error either failed its
    interface check (`InvalidInterfaceId` for an id not below the number of
    interfaces), leaving state and sink as they were, or failed in the sink
    with an I/O error after the state moved as the block moves it, the sink
    holding a proper prefix of the block's bytes; a `write_raw_block` that
    returns an error either failed to decode its section header frame,
    with that error, which is not an I/O error, leaving the writer as it
    was, or failed in the sink with an I/O error after adopting the section
    the frame decodes to, its interfaces unchanged. -/
theorem failed_write_leaves (w w' : PcapNgWriter) (e : PcapError) :
    (∀ b, w.writeBlock b = (.err e, w') →
      (w' = w ∧ ∃ id ∈ b.interfaceRef, e = .invalidInterfaceId id ∧
          w.interfaces.length ≤ id.toNat) ∨
        (e = .ioError ∧ w'.state = w.state.afterBlock b ∧
          ∃ k < (Block.writeTo (w.state.afterBlock b).section_.endianness b).bytes.length,
            w'.writer.contents = w.writer.contents ++
              (Block.writeTo (w.state.afterBlock b).section_.endianness b).bytes.take k)) ∧
    (∀ r, w.writeRawBlock r = (.err e, w') →
      (rawSection w.section_.endianness w.section_ r = .err e ∧ e ≠ .ioError ∧ w' = w) ∨
        (e = .ioError ∧ w'.interfaces = w.interfaces ∧
          rawSection w.section_.endianness w.section_ r = .ok w'.section_ ∧
          ∃ k < (RawBlock.writeTo w.section_.endianness r).bytes.length,
            w'.writer.contents = w.writer.contents ++
              (RawBlock.writeTo w.section_.endianness r).bytes.take k)) :=
  ⟨fun _ => writeBlock_eq_err, fun _ => writeRawBlock_eq_err⟩

/-- A sink that accepts nothing more, and an interface description: the
    write fails with an I/O error, no byte reaches the sink, and yet the
    writer records the interface. -/
theorem failed_interface_write_recorded :
    ∃ w', (⟨.default, [], ⟨[], some 0⟩⟩ : PcapNgWriter).writeBlock
        (.interfaceDescription ⟨.ethernet, 0xFFFF, []⟩) = (.err .ioError, w') ∧
      w'.writer.contents = [] ∧ w'.interfaces = [⟨.ethernet, 0xFFFF, []⟩] :=
  ⟨_, rfl, rfl, rfl⟩

/-! ## Section 3: Panics of `write_raw_block` -/

/-- The section update of `write_raw_block` panics exactly on a section
    header whose body is owned. -/
theorem rawSection_isPanic (B : Endianness) (s : SectionHeaderBlock) (r : RawBlock) :
    (rawSection B s r).isPanic = true ↔ r.type_ = sectionHeaderBlock ∧ ∃ b, r.body = .owned b := by
  obtain ⟨t, len, cow, trailer⟩ := r
  by_cases ht : t = sectionHeaderBlock
  · subst ht
    cases cow with
    | borrowed body =>
      have hd := SectionHeaderBlock.fromSlice_isPanic .big body
      simp only [rawSection, if_true, Block.tryFromRawBlock_sectionHeader]
      revert hd
      cases SectionHeaderBlock.fromSlice .big body <;> simp [Block.intoSectionHeader]
    | owned body => simp [rawSection, Block.tryFromRawBlock]
  · simp [rawSection, ht]

/-- **Raw writes panic only on an owned section header.**  For every writer
    state and every raw block, `write_raw_block` panics exactly when the
    block is a section header whose body is owned, and otherwise returns
    `Ok` or `Err`. -/
theorem raw_write_panics_iff (w : PcapNgWriter) (r : RawBlock) :
    (w.writeRawBlock r).1.isPanic = true ↔
      r.type_ = sectionHeaderBlock ∧ ∃ b, r.body = .owned b := by
  rw [← rawSection_isPanic w.section_.endianness w.section_ r]
  dsimp only [writeRawBlock]
  split <;> simp_all [emit_isPanic]

example : ((⟨.default, [], ⟨[], none⟩⟩ : PcapNgWriter).writeRawBlock
    ⟨sectionHeaderBlock, 28, .owned (SectionHeaderBlock.writeTo .big .default).bytes, 28⟩).1 =
      .panic "The raw block is not borrowed" := rfl

end PcapNgWriter

end PcapFile.PcapNg
