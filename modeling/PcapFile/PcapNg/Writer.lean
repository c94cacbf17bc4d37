import PcapFile.PcapNg.Parser

/-! # The pcapng writer (`pcapng/writer.rs`)

    `PcapNgWriter` writes blocks to a sink and keeps, like the parser, the
    current section header (whose byte order every block is written in) and
    the interface descriptions written since it, which `write_block` checks
    every packet and statistics block's interface id against.

    The sink is modelled as the bytes it holds and the number of bytes it
    still accepts: a write that does not fit writes what fits and fails
    with an I/O error, and a sink with no bound accepts every write.

    The state `write_block` keeps is the parser's: on every block it accepts
    it moves exactly as `PcapNgParser` moves on reading that block
    (`writeBlock_eq_ok`), so a run of `write_block` calls keeps as its
    interfaces the interface descriptions written since the last section
    header (`writer_interfaces_since_section`).  `write_raw_block` keeps
    only half of that state: a raw section header replaces the section but
    does not clear the interfaces, and a raw interface description is not
    recorded (`writeRawBlock_interfaces`).
-/

namespace PcapFile.PcapNg

/-- The sink a writer writes to: the bytes it holds, and how many more it
    accepts (`none` when every write succeeds). -/
structure Sink where
  contents : Bytes
  room : Option Nat
  deriving DecidableEq, Repr

/-- Writing `bs` to the sink: whether the write succeeded, and the sink
    after it.  A write that does not fit writes the bytes that fit. -/
def Sink.emit (w : Sink) (bs : Bytes) : Bool × Sink :=
  match w.room with
  | none => (true, ⟨w.contents ++ bs, none⟩)
  | some n =>
    if bs.length ≤ n then (true, ⟨w.contents ++ bs, some (n - bs.length)⟩)
    else (false, ⟨w.contents ++ bs.take n, some 0⟩)

/-- A write the sink accepts appends exactly its bytes. -/
theorem Sink.emit_contents {w : Sink} {bs : Bytes} (h : (w.emit bs).1 = true) :
    (w.emit bs).2.contents = w.contents ++ bs := by
  rcases w with ⟨c, _ | n⟩
  · rfl
  · simp only [Sink.emit] at *
    split <;> simp_all

/-- The writer's state. -/
structure PcapNgWriter where
  section_ : SectionHeaderBlock
  interfaces : List InterfaceDescriptionBlock
  writer : Sink
  deriving DecidableEq

/-- The interface id a statistics or enhanced packet block refers to: the
    one `write_block` checks. -/
def Block.interfaceRef : Block → Option UInt32
  | .interfaceStatistics a => some a.interfaceId
  | .enhancedPacket a => some a.interfaceId
  | _ => none

namespace PcapNgWriter

/-- Writing a write's bytes to the writer's sink: the count the write
    returned, or `IoError`. -/
def emit (w : PcapNgWriter) (written : Written) : Outcome Nat × PcapNgWriter :=
  let r := w.writer.emit written.bytes
  (if r.1 then .ok written.count else .err .ioError, { w with writer := r.2 })

/-- `PcapNgWriter::with_section_header`: the header is written in its own
    byte order. -/
def withSectionHeader (writer : Sink) (section_ : SectionHeaderBlock) : Outcome PcapNgWriter :=
  let r := writer.emit (Block.writeTo section_.endianness (.sectionHeader section_)).bytes
  if r.1 then pure ⟨section_, [], r.2⟩ else .err .ioError

/-- `PcapNgWriter::with_endianness`: the default section header in the given
    byte order. -/
def withEndianness (writer : Sink) (endianness : Endianness) : Outcome PcapNgWriter :=
  withSectionHeader writer { SectionHeaderBlock.default with endianness := endianness }

/-- `PcapNgWriter::new`, given the byte order `Endianness::native()` names on
    the machine the code runs on. -/
def new (native : Endianness) (writer : Sink) : Outcome PcapNgWriter :=
  withEndianness writer native

/-- The state update and check of `write_block`, before the block is
    written: a section header replaces the section and clears the
    interfaces, an interface description is recorded, and a statistics or
    enhanced packet block must name a recorded interface. -/
def preWrite (w : PcapNgWriter) : Block → Outcome PcapNgWriter
  | .sectionHeader a => pure { w with section_ := a, interfaces := [] }
  | .interfaceDescription a => pure { w with interfaces := w.interfaces ++ [a] }
  | .interfaceStatistics a =>
    if a.interfaceId.toNat ≥ w.interfaces.length then .err (.invalidInterfaceId a.interfaceId)
    else pure w
  | .enhancedPacket a =>
    if a.interfaceId.toNat ≥ w.interfaces.length then .err (.invalidInterfaceId a.interfaceId)
    else pure w
  | _ => pure w

/-- `PcapNgWriter::write_block`: the state is updated before the block is
    written, in the byte order of the section it belongs to. -/
def writeBlock (w : PcapNgWriter) (block : Block) : Outcome Nat × PcapNgWriter :=
  match preWrite w block with
  | .ok w' => w'.emit (Block.writeTo w'.section_.endianness block)
  | .err e => (.err e, w)
  | .panic m => (.panic m, w)

/-- `PcapNgWriter::write_pcapng_block`. -/
def writePcapngBlock {β : Type} [PcapNgBlock β] (w : PcapNgWriter) (block : β) :
    Outcome Nat × PcapNgWriter :=
  w.writeBlock (PcapNgBlock.intoBlock block)

/-- The section update of `write_raw_block`: a raw section header is decoded
    and becomes the section. -/
def rawSection (B : Endianness) (section_ : SectionHeaderBlock) (block : RawBlock) :
    Outcome SectionHeaderBlock :=
  if block.type_ = sectionHeaderBlock then do
    let b ← Block.tryFromRawBlock B block
    unwrap b.intoSectionHeader
  else pure section_

/-- `PcapNgWriter::write_raw_block`: the byte order is the one of the section
    before the call, also when the block is a section header that changes
    it. -/
def writeRawBlock (w : PcapNgWriter) (block : RawBlock) : Outcome Nat × PcapNgWriter :=
  let B := w.section_.endianness
  match rawSection B w.section_ block with
  | .ok s => { w with section_ := s }.emit (RawBlock.writeTo B block)
  | .err e => (.err e, w)
  | .panic m => (.panic m, w)

/-! ## Section 1: One call -/

/-- The section and interfaces a writer keeps: the state a parser keeps. -/
def state (w : PcapNgWriter) : PcapNgParser := ⟨w.section_, w.interfaces⟩

/-- A write that succeeds returns its count, appends exactly its bytes, and
    leaves the section and interfaces alone. -/
theorem emit_eq_ok {w w' : PcapNgWriter} {written : Written} {n : Nat}
    (h : w.emit written = (.ok n, w')) :
    n = written.count ∧ w'.state = w.state ∧
      w'.writer.contents = w.writer.contents ++ written.bytes := by
  simp only [emit, Prod.mk.injEq] at h
  obtain ⟨h, rfl⟩ := h
  split at h
  · cases h; exact ⟨rfl, rfl, Sink.emit_contents ‹_›⟩
  · cases h

/-- A sink with no bound accepts every write. -/
theorem emit_of_unbounded {w : PcapNgWriter} (hw : w.writer.room = none) (written : Written) :
    w.emit written =
      (.ok written.count, { w with writer := ⟨w.writer.contents ++ written.bytes, none⟩ }) := by
  obtain ⟨s, is, c, room⟩ := w
  cases hw
  rfl

/-- What `preWrite` does: it refuses a block naming an interface the writer has
    not recorded, and otherwise moves to the state the parser moves to on
    the same block, keeping the sink. -/
theorem preWrite_eq_ok {w w' : PcapNgWriter} {b : Block} (h : preWrite w b = .ok w') :
    (∀ id ∈ b.interfaceRef, id.toNat < w.interfaces.length) ∧
      w'.state = w.state.afterBlock b ∧ w'.writer = w.writer := by
  cases b <;> simp only [preWrite, Outcome.pure_eq] at h <;>
    first
      | (cases h; simp [Block.interfaceRef, state, PcapNgParser.afterBlock])
      | (split at h
         · cases h
         · cases h
           exact ⟨by simpa [Block.interfaceRef] using Nat.lt_of_not_le ‹_›, rfl, rfl⟩)

/-- **One `write_block` call that succeeds**: the block named a recorded
    interface, the state moved as the parser's does on the same block, and
    the sink got the block's bytes, in the byte order of the section the
    block belongs to. -/
theorem writeBlock_eq_ok {w w' : PcapNgWriter} {b : Block} {n : Nat}
    (h : w.writeBlock b = (.ok n, w')) :
    (∀ id ∈ b.interfaceRef, id.toNat < w.interfaces.length) ∧
      w'.state = w.state.afterBlock b ∧
      w'.writer.contents = w.writer.contents ++
        (Block.writeTo (w.state.afterBlock b).section_.endianness b).bytes := by
  unfold writeBlock at h
  split at h
  · obtain ⟨hid, hs, hw⟩ := preWrite_eq_ok ‹_›
    obtain ⟨-, hs', hc⟩ := emit_eq_ok h
    refine ⟨hid, hs'.trans hs, ?_⟩
    rw [hc, hw, ← hs]
    rfl
  · cases h
  · cases h

/-- `write_raw_block` never changes the interfaces, whatever the frame. -/
theorem writeRawBlock_interfaces (w : PcapNgWriter) (r : RawBlock) :
    (w.writeRawBlock r).2.interfaces = w.interfaces := by
  dsimp only [writeRawBlock]
  split <;> rfl

/-- A raw frame other than a section header leaves the section alone too. -/
theorem writeRawBlock_state_of_ne {r : RawBlock} (h : r.type_ ≠ sectionHeaderBlock)
    (w : PcapNgWriter) : (w.writeRawBlock r).2.state = w.state := by
  simp only [writeRawBlock, rawSection, if_neg h, Outcome.pure_eq]
  rfl

/-! ## Section 2: Runs -/

/-- A call on the writer. -/
inductive Call
  /-- `write_block`; `write_pcapng_block` is this call on the block's
      `into_block`. -/
  | writeBlock (block : Block)
  /-- `write_raw_block`. -/
  | writeRawBlock (block : RawBlock)

/-- One call. -/
def call (w : PcapNgWriter) : Call → Outcome Nat × PcapNgWriter
  | .writeBlock b => w.writeBlock b
  | .writeRawBlock r => w.writeRawBlock r

/-- A run of calls that all return `Ok`: the writer after them, or `none`
    when one of them fails. -/
def run (w : PcapNgWriter) : List Call → Option PcapNgWriter
  | [] => some w
  | c :: cs =>
    match w.call c with
    | (.ok _, w') => w'.run cs
    | _ => none

/-- The block a call gives `write_block`, if any. -/
def Call.block? : Call → Option Block
  | .writeBlock b => some b
  | .writeRawBlock _ => none

/-- The blocks a run gives `write_block`. -/
def written (cs : List Call) : List Block := cs.filterMap Call.block?

/-- A run that succeeds is a run of its first part followed by a run of the
    rest. -/
theorem run_append (w : PcapNgWriter) (cs₁ cs₂ : List Call) :
    w.run (cs₁ ++ cs₂) = (w.run cs₁).bind (·.run cs₂) := by
  induction cs₁ generalizing w with
  | nil => rfl
  | cons c cs ih =>
    simp only [List.cons_append, run]
    split <;> simp [ih]

/-- The run lemma: along a run that succeeds and writes no raw section
    header, the state is what the blocks given to `write_block` make of the
    initial one, as the parser's would be. -/
theorem run_state {w w' : PcapNgWriter} {cs : List Call} (h : w.run cs = some w')
    (hraw : ∀ r, Call.writeRawBlock r ∈ cs → r.type_ ≠ sectionHeaderBlock) :
    w'.state = (written cs).foldl PcapNgParser.afterBlock w.state := by
  induction cs generalizing w with
  | nil => cases h; rfl
  | cons c cs ih =>
    simp only [run] at h
    split at h
    · rename_i w'' hc
      have hraw' : ∀ r, Call.writeRawBlock r ∈ cs → r.type_ ≠ sectionHeaderBlock :=
        fun r hr => hraw r (List.mem_cons_of_mem _ hr)
      rw [ih h hraw']
      cases c with
      | writeBlock b => rw [(writeBlock_eq_ok hc).2.1]; rfl
      | writeRawBlock r =>
        have hw : w'' = (w.writeRawBlock r).2 := (congrArg Prod.snd hc).symm
        rw [hw, writeRawBlock_state_of_ne (hraw r (List.mem_cons_self _ _))]
        rfl
    · cases h

/-! ## Section 3: No dangling interface reference -/

/-- A writer made by `with_section_header` holds that header and no
    interface. -/
theorem withSectionHeader_state {sink : Sink} {s : SectionHeaderBlock} {w : PcapNgWriter}
    (h : withSectionHeader sink s = .ok w) : w.state = ⟨s, []⟩ := by
  dsimp only [withSectionHeader] at h
  split at h
  · cases h; rfl
  · cases h

/-- Every statistics and enhanced packet block a run gives `write_block`
    names an interface described before it in its section, the section a
    writer starts with being `s`. -/
def NoDanglingWrites (s : SectionHeaderBlock) (calls : List Call) : Prop :=
  ∀ pre b post, calls = pre ++ Call.writeBlock b :: post →
    ∀ id ∈ b.interfaceRef,
      id.toNat < (interfacesSinceSection (.sectionHeader s :: written pre)).length

/-- From a writer holding section `s` and no interface, a run that succeeds
    and writes no raw section header keeps as its interfaces those given to
    `write_block` since the last section header. -/
theorem interfaces_of_run {s : SectionHeaderBlock} {w₀ w : PcapNgWriter} {calls : List Call}
    (h₀ : w₀.state = ⟨s, []⟩) (hrun : w₀.run calls = some w)
    (hraw : ∀ r, Call.writeRawBlock r ∈ calls → r.type_ ≠ sectionHeaderBlock) :
    w.interfaces = interfacesSinceSection (.sectionHeader s :: written calls) := by
  have hs : w.state = (Block.sectionHeader s :: written calls).foldl PcapNgParser.afterBlock
      w₀.state := by
    rw [run_state hrun hraw, h₀]; rfl
  have := congrArg PcapNgParser.interfaces hs
  rw [PcapNgParser.foldl_afterBlock_interfaces] at this
  simpa [Block.intoSectionHeader] using this

/-- **The writer's interfaces.**  For a writer made by `with_section_header`
    (so also by `new` and `with_endianness`) and any run of `write_block`
    and `write_raw_block` calls that all return `Ok`, none of them writing a
    raw section header, the writer's interfaces are the interface
    descriptions given to `write_block` since the last section header
    (the one written at construction included), and every statistics and
    enhanced packet block written names one of the interfaces described
    before it in its section. -/
theorem writer_interfaces_since_section (sink : Sink) (s : SectionHeaderBlock)
    (calls : List Call) (w₀ w : PcapNgWriter)
    (h₀ : withSectionHeader sink s = .ok w₀) (hrun : w₀.run calls = some w)
    (hraw : ∀ r, Call.writeRawBlock r ∈ calls → r.type_ ≠ sectionHeaderBlock) :
    w.interfaces = interfacesSinceSection (.sectionHeader s :: written calls) ∧
      NoDanglingWrites s calls := by
  have hs₀ := withSectionHeader_state h₀
  refine ⟨interfaces_of_run hs₀ hrun hraw, ?_⟩
  rintro pre b post rfl id hid
  rw [run_append] at hrun
  cases hpre : w₀.run pre with
  | none => simp [hpre] at hrun
  | some wp =>
    simp only [hpre, Option.some_bind, run, call] at hrun
    split at hrun
    · rename_i hb
      have hwp := interfaces_of_run hs₀ hpre fun r hr => hraw r (by simp [hr])
      exact hwp ▸ (writeBlock_eq_ok hb).1 id hid
    · cases hrun

/-- An interface description, then a packet on it: the writer records the
    interface, and the packet names it. -/
theorem writer_interfaces_one_interface :
    ∃ w₀ w, withSectionHeader ⟨[], none⟩ .default = .ok w₀ ∧
      w₀.run [.writeBlock (.interfaceDescription ⟨.ethernet, 0xFFFF, []⟩),
        .writeBlock (.enhancedPacket ⟨0, .fromNanos 0, 0, [], []⟩)] = some w ∧
      w.interfaces = [⟨.ethernet, 0xFFFF, []⟩] ∧
      NoDanglingWrites .default [.writeBlock (.interfaceDescription ⟨.ethernet, 0xFFFF, []⟩),
        .writeBlock (.enhancedPacket ⟨0, .fromNanos 0, 0, [], []⟩)] :=
  ⟨_, _, rfl, rfl, writer_interfaces_since_section ⟨[], none⟩ .default
    [.writeBlock (.interfaceDescription ⟨.ethernet, 0xFFFF, []⟩),
      .writeBlock (.enhancedPacket ⟨0, .fromNanos 0, 0, [], []⟩)] _ _ rfl rfl (by simp)⟩

/-- The frame of the default section header, big endian. -/
def defaultSectionFrame : RawBlock :=
  ⟨sectionHeaderBlock, 28, .borrowed (SectionHeaderBlock.writeTo .big .default).bytes, 28⟩

/-- A raw section header between an interface description and a packet:
    all three writes return `Ok`, the section the packet is written in has
    no interface description, and yet the writer still holds one, so the
    packet's interface id 0 was accepted. -/
theorem raw_section_header_keeps_interfaces :
    ∃ w₀ w, withSectionHeader ⟨[], none⟩ .default = .ok w₀ ∧
      w₀.run [.writeBlock (.interfaceDescription ⟨.ethernet, 0xFFFF, []⟩),
        .writeRawBlock defaultSectionFrame,
        .writeBlock (.enhancedPacket ⟨0, .fromNanos 0, 0, [], []⟩)] = some w ∧
      Block.tryFromRawBlock .big defaultSectionFrame = .ok (.sectionHeader .default) ∧
      w.interfaces.length = 1 ∧
      interfacesSinceSection [.sectionHeader .default, .interfaceDescription ⟨.ethernet, 0xFFFF, []⟩,
        .sectionHeader .default] = [] :=
  ⟨_, _, rfl, rfl, rfl, rfl, rfl⟩

end PcapNgWriter

end PcapFile.PcapNg
