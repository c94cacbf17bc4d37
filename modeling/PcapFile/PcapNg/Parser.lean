import PcapFile.PcapNg.Blocks.BlockCommon

/-! # The pcapng parser (`pcapng/parser.rs`)

    `PcapNgParser` reads a pcapng stream one block at a time from byte
    slices the caller supplies, and keeps the state a block's meaning
    depends on: the current section header, whose byte order the next frame
    is read in, and the interface descriptions seen since that header,
    which packet blocks refer to by index.

    Every method that can fail takes `&mut self` and assigns the state only
    after its last fallible step, so a call that fails leaves the state as
    it was (`Outcome.withState`).
-/

namespace PcapFile.PcapNg

/-- The result of a `&mut self` method whose every assignment comes after
    its last fallible step: the new state when the method succeeds, the old
    one otherwise. -/
def Outcome.withState {α σ : Type} (x : Outcome (α × σ)) (s : σ) : Outcome α × σ :=
  match x with
  | .ok (a, s') => (.ok a, s')
  | .err e => (.err e, s)
  | .panic m => (.panic m, s)

@[simp] theorem Outcome.withState_ok {α σ : Type} (a : α) (s s' : σ) :
    Outcome.withState (.ok (a, s')) s = (.ok a, s') := rfl

@[simp] theorem Outcome.withState_err {α σ : Type} (e : PcapError) (s : σ) :
    Outcome.withState (.err e : Outcome (α × σ)) s = (.err e, s) := rfl

/-- The parser's state. -/
structure PcapNgParser where
  section_ : SectionHeaderBlock
  interfaces : List InterfaceDescriptionBlock
  deriving DecidableEq

namespace PcapNgParser

/-- `PcapNgParser::new`: the first block, read big endian, must be a section
    header. -/
def new (src : Bytes) : Outcome (Bytes × PcapNgParser) := do
  let (rem, section_) ← Block.fromSlice .big src
  match section_ with
  | .sectionHeader section_ => pure (rem, ⟨section_, []⟩)
  | _ => .err (.invalidField "PcapNg: SectionHeader invalid or missing")

/-- The state update of `next_raw_block_inner` after reading the frame `raw`:
    a section header replaces the section and clears the interfaces, an
    interface description is appended to them. -/
def absorb (B : Endianness) (p : PcapNgParser) (raw : RawBlock) : Outcome PcapNgParser :=
  match raw.type_ with
  | sectionHeaderBlock => do
    let block ← Block.tryFromRawBlock B raw
    let section_ ← unwrap block.intoSectionHeader
    pure { p with section_ := section_, interfaces := [] }
  | interfaceDescriptionBlock => do
    let block ← Block.tryFromRawBlock B raw
    let interface ← unwrap block.intoInterfaceDescription
    pure { p with interfaces := p.interfaces ++ [interface] }
  | _ => pure p

/-- `next_raw_block_inner::<B>`. -/
def nextRawBlockInner (B : Endianness) (p : PcapNgParser) (src : Bytes) :
    Outcome (Bytes × RawBlock) × PcapNgParser :=
  Outcome.withState (do
    let (rem, raw_block) ← RawBlock.fromSlice B src
    let p' ← absorb B p raw_block
    pure ((rem, raw_block), p')) p

/-- `PcapNgParser::next_block`: the next frame, read in the current
    section's byte order, and its decoded body. -/
def nextBlock (p : PcapNgParser) (src : Bytes) : Outcome (Bytes × Block) × PcapNgParser :=
  let B := p.section_.endianness
  let (r, p') := nextRawBlockInner B p src
  (do
    let (rem, raw_block) ← r
    let block ← Block.tryFromRawBlock B raw_block
    pure (rem, block), p')

/-- `PcapNgParser::next_raw_block`. -/
def nextRawBlock (p : PcapNgParser) (src : Bytes) : Outcome (Bytes × RawBlock) × PcapNgParser :=
  nextRawBlockInner p.section_.endianness p src

/-! ## Section 1: One call -/

/-- The state change the documentation gives for each block a call returns:
    a section header starts a new section with no interface, an interface
    description is appended to the section's interfaces, and every other
    block leaves the state alone. -/
def afterBlock (p : PcapNgParser) : Block → PcapNgParser
  | .sectionHeader s => ⟨s, []⟩
  | .interfaceDescription i => { p with interfaces := p.interfaces ++ [i] }
  | _ => p

/-- The block the documentation counts for a frame `next_raw_block` returns:
    the decoded form of a section header or of an interface description. -/
def countedRaw (B : Endianness) (raw : RawBlock) : Option Block :=
  if raw.type_ = sectionHeaderBlock ∨ raw.type_ = interfaceDescriptionBlock then
    match Block.tryFromRawBlock B raw with
    | .ok b => some b
    | _ => none
  else none

/-- What `absorb` does with a frame it reads. -/
theorem absorb_eq (B : Endianness) (p : PcapNgParser) (raw : RawBlock) :
    absorb B p raw =
      if raw.type_ = sectionHeaderBlock ∨ raw.type_ = interfaceDescriptionBlock then
        p.afterBlock <$> Block.tryFromRawBlock B raw
      else .ok p := by
  unfold absorb
  split
  · rw [if_pos (.inl ‹_›)]
    cases h : Block.tryFromRawBlock B raw with
    | ok b =>
      obtain ⟨s, rfl⟩ := Block.intoSectionHeader_of_tryFromRawBlock h ‹_›
      rfl
    | err e => rfl
    | panic m => rfl
  · rw [if_pos (.inr ‹_›)]
    cases h : Block.tryFromRawBlock B raw with
    | ok b =>
      obtain ⟨i, rfl⟩ := Block.intoInterfaceDescription_of_tryFromRawBlock h ‹_›
      rfl
    | err e => rfl
    | panic m => rfl
  · rw [if_neg (by simp_all [sectionHeaderBlock, interfaceDescriptionBlock])]; rfl

/-- `next_raw_block_inner`, with its state update read through `absorb_eq`. -/
theorem nextRawBlockInner_eq (B : Endianness) (p : PcapNgParser) (src : Bytes) :
    nextRawBlockInner B p src =
      match RawBlock.fromSlice B src with
      | .ok (rem, raw) => Outcome.withState ((fun p' => ((rem, raw), p')) <$> absorb B p raw) p
      | .err e => (.err e, p)
      | .panic m => (.panic m, p) := by
  unfold nextRawBlockInner
  cases RawBlock.fromSlice B src with
  | ok r => obtain ⟨rem, raw⟩ := r; cases absorb B p raw <;> rfl
  | err e => rfl
  | panic m => rfl

/-- A block decoded from a frame of any other type leaves the state alone. -/
theorem afterBlock_of_type {B : Endianness} {raw : RawBlock} {b : Block}
    (h : Block.tryFromRawBlock B raw = .ok b)
    (ht : ¬(raw.type_ = sectionHeaderBlock ∨ raw.type_ = interfaceDescriptionBlock))
    (p : PcapNgParser) : p.afterBlock b = p := by
  obtain ⟨hs, hi⟩ := Block.type_of_tryFromRawBlock h
  cases b with
  | sectionHeader s => exact absurd (.inl (hs ⟨s, rfl⟩)) ht
  | interfaceDescription i => exact absurd (.inr (hi ⟨i, rfl⟩)) ht
  | _ => rfl

/-- **One `next_block` call**: a failed call leaves the state alone, and a
    successful one changes it as the block it returns says. -/
theorem nextBlock_state (p : PcapNgParser) (src : Bytes) :
    (p.nextBlock src).2 = match (p.nextBlock src).1 with
      | .ok (_, b) => p.afterBlock b
      | _ => p := by
  dsimp only [nextBlock]
  rw [nextRawBlockInner_eq]
  cases RawBlock.fromSlice p.section_.endianness src with
  | ok r =>
    obtain ⟨rem, raw⟩ := r
    dsimp only
    rw [absorb_eq]
    split
    · cases hb : Block.tryFromRawBlock p.section_.endianness raw <;>
        simp [hb, Outcome.withState]
    · cases hb : Block.tryFromRawBlock p.section_.endianness raw with
      | ok b => simp [hb, afterBlock_of_type hb ‹_› p]
      | err e => simp [hb]
      | panic m => simp [hb]
  | err e => rfl
  | panic m => rfl

/-- **One `next_raw_block` call**: a failed call leaves the state alone, and
    a successful one changes it as the decoded form of the frame it returns
    says. -/
theorem nextRawBlock_state (p : PcapNgParser) (src : Bytes) :
    (p.nextRawBlock src).2 = match (p.nextRawBlock src).1 with
      | .ok (_, raw) =>
        match countedRaw p.section_.endianness raw with
        | some b => p.afterBlock b
        | none => p
      | _ => p := by
  unfold nextRawBlock
  rw [nextRawBlockInner_eq]
  cases RawBlock.fromSlice p.section_.endianness src with
  | ok r =>
    obtain ⟨rem, raw⟩ := r
    dsimp only
    rw [absorb_eq]
    unfold countedRaw
    split
    · cases hb : Block.tryFromRawBlock p.section_.endianness raw <;>
        simp_all [Outcome.withState]
    · simp_all
  | err e => rfl
  | panic m => rfl

/-! ## Section 2: Runs -/

/-- A call on the parser. -/
inductive Call
  | nextBlock (src : Bytes)
  | nextRawBlock (src : Bytes)

/-- One call: the parser after it, and the block it counts, if any. -/
def call (p : PcapNgParser) : Call → PcapNgParser × Option Block
  | .nextBlock src =>
    ((p.nextBlock src).2, match (p.nextBlock src).1 with
      | .ok (_, b) => some b
      | _ => none)
  | .nextRawBlock src =>
    ((p.nextRawBlock src).2, match (p.nextRawBlock src).1 with
      | .ok (_, raw) => countedRaw p.section_.endianness raw
      | _ => none)

/-- A run of calls: the parser after them, and the blocks they counted. -/
def run (p : PcapNgParser) : List Call → PcapNgParser × List Block
  | [] => (p, [])
  | c :: cs => ((p.call c).1.run cs).map id ((p.call c).2.toList ++ ·)

/-- The step lemma: a call changes the state as the block it counts says. -/
theorem call_state (p : PcapNgParser) (c : Call) :
    (p.call c).1 = ((p.call c).2.toList).foldl afterBlock p := by
  cases c with
  | nextBlock src =>
    simp only [call]
    rw [nextBlock_state]
    split <;> rfl
  | nextRawBlock src =>
    simp only [call]
    rw [nextRawBlock_state]
    split
    · split <;> simp_all
    · rfl

/-- The run lemma: after any run, the state is what the counted blocks make
    of the initial one. -/
theorem run_state (p : PcapNgParser) (cs : List Call) :
    (p.run cs).1 = (p.run cs).2.foldl afterBlock p := by
  induction cs generalizing p with
  | nil => rfl
  | cons c cs ih =>
    simp only [run, Prod.map_fst, Prod.map_snd, id, List.foldl_append]
    rw [ih, ← call_state]

/-! ## Section 3: The interfaces of the current section -/

/-- One block's effect on the interfaces: a section header clears them and
    an interface description is appended to them. -/
theorem afterBlock_interfaces (p : PcapNgParser) (b : Block) :
    (p.afterBlock b).interfaces =
      (if b.intoSectionHeader.isSome then [] else p.interfaces) ++
        b.intoInterfaceDescription.toList := by
  cases b <;> simp [afterBlock, Block.intoSectionHeader, Block.intoInterfaceDescription]

/-- The interfaces since the last section header, one block later. -/
theorem interfacesSinceSection_append_singleton (bs : List Block) (b : Block) :
    interfacesSinceSection (bs ++ [b]) =
      (if b.intoSectionHeader.isSome then [] else interfacesSinceSection bs) ++
        b.intoInterfaceDescription.toList := by
  cases b <;> simp [interfacesSinceSection, Block.intoSectionHeader, Block.intoInterfaceDescription]

/-- Folding the state changes over `bs` leaves, after the interfaces the
    state started with unless `bs` holds a section header, exactly the
    interface descriptions of `bs` after its last section header. -/
theorem foldl_afterBlock_interfaces (p : PcapNgParser) (bs : List Block) :
    (bs.foldl afterBlock p).interfaces =
      (if bs.any fun b => b.intoSectionHeader.isSome then [] else p.interfaces) ++
        interfacesSinceSection bs := by
  induction bs using List.reverseRecOn with
  | nil => simp [interfacesSinceSection]
  | append_singleton bs b ih =>
    rw [List.foldl_append, List.foldl_cons, List.foldl_nil, afterBlock_interfaces, ih,
      interfacesSinceSection_append_singleton, List.any_append]
    cases hb : b.intoSectionHeader.isSome <;> simp [hb]

/-- **The parser's section and interface state.**  A parser made by
    `PcapNgParser::new` starts with the decoded first section header and no
    interface; after any run of `next_block` and `next_raw_block` calls its
    state is what the blocks those calls returned make of it (a failed call
    counts no block), so its interfaces are the interface descriptions
    returned since the last section header. -/
theorem parser_tracks_interfaces (src rem : Bytes) (p₀ : PcapNgParser)
    (h : PcapNgParser.new src = .ok (rem, p₀)) (calls : List Call) :
    (∃ s, Block.fromSlice .big src = .ok (rem, .sectionHeader s) ∧ p₀ = ⟨s, []⟩) ∧
    (p₀.run calls).1 = (p₀.run calls).2.foldl afterBlock p₀ ∧
    (p₀.run calls).1.interfaces = interfacesSinceSection (p₀.run calls).2 := by
  have hnew : ∃ s, Block.fromSlice .big src = .ok (rem, .sectionHeader s) ∧ p₀ = ⟨s, []⟩ := by
    obtain ⟨⟨r, b⟩, hb, h⟩ := Outcome.bind_eq_ok.mp h
    cases b <;> cases h
    exact ⟨_, hb, rfl⟩
  obtain ⟨s, hs, rfl⟩ := hnew
  refine ⟨⟨s, hs, rfl⟩, run_state _ calls, ?_⟩
  rw [run_state, foldl_afterBlock_interfaces]
  split <;> simp

/-- A parser made from the default section header, then one interface
    description read: the parser holds that interface. -/
theorem parser_tracks_interfaces_one_interface :
    PcapNgParser.new (Block.writeTo .big (.sectionHeader .default)).bytes =
        .ok ([], ⟨.default, []⟩) ∧
      ((⟨.default, []⟩ : PcapNgParser).run
          [.nextBlock (Block.writeTo .big (.interfaceDescription ⟨.ethernet, 0xFFFF, []⟩)).bytes]).1.interfaces =
        [⟨.ethernet, 0xFFFF, []⟩] := by
  have h : PcapNgParser.new (Block.writeTo .big (.sectionHeader .default)).bytes =
      .ok ([], ⟨.default, []⟩) := by decide
  exact ⟨h, (parser_tracks_interfaces _ _ _ h
    [.nextBlock (Block.writeTo .big (.interfaceDescription ⟨.ethernet, 0xFFFF, []⟩)).bytes]).2.2⟩

/-! ## Section 4: No panic, and prefix stability -/

/-- How a stateful call's result on `s` relates to its result on `s ++ ext`:
    a success keeps its value and its new state and carries `ext` in its
    remainder, and an error other than `IncompleteBuffer` stays the same
    error with the same state. -/
def ExtendsToWith {α σ : Type} (x y : Outcome (Bytes × α) × σ) (ext : Bytes) : Prop :=
  (∀ rem a, x.1 = .ok (rem, a) → y = (.ok (rem ++ ext, a), x.2)) ∧
    ∀ e, x.1 = .err e → e ≠ .incompleteBuffer → y = (.err e, x.2)

theorem absorb_isPanic (B : Endianness) (p : PcapNgParser) {raw : RawBlock} (h : raw.Framed) :
    (absorb B p raw).isPanic = false := by
  rw [absorb_eq]
  split
  · rw [Outcome.isPanic_map]; exact Block.tryFromRawBlock_isPanic B h
  · rfl

theorem nextRawBlockInner_isPanic (B : Endianness) (p : PcapNgParser) (src : Bytes) :
    (nextRawBlockInner B p src).1.isPanic = false := by
  rw [nextRawBlockInner_eq]
  have := RawBlock.fromSlice_isPanic B src
  cases hr : RawBlock.fromSlice B src with
  | ok r =>
    obtain ⟨rem, raw⟩ := r
    have := absorb_isPanic B p (RawBlock.framed_of_fromSlice hr)
    cases ha : absorb B p raw <;> simp_all [Outcome.withState]
  | err e => rfl
  | panic m => simp_all

theorem nextBlock_isPanic (p : PcapNgParser) (src : Bytes) :
    (p.nextBlock src).1.isPanic = false := by
  dsimp only [nextBlock]
  rw [nextRawBlockInner_eq]
  have := RawBlock.fromSlice_isPanic p.section_.endianness src
  cases hr : RawBlock.fromSlice p.section_.endianness src with
  | ok r =>
    obtain ⟨rem, raw⟩ := r
    have hf := RawBlock.framed_of_fromSlice hr
    have := absorb_isPanic p.section_.endianness p hf
    have := Block.tryFromRawBlock_isPanic p.section_.endianness hf
    cases ha : absorb p.section_.endianness p raw <;>
      cases hb : Block.tryFromRawBlock p.section_.endianness raw <;> simp_all [Outcome.withState]
  | err e => rfl
  | panic m => simp_all

theorem new_eq (src : Bytes) :
    new src = Block.fromSlice .big src >>= fun p => (p.1, ·) <$>
      (match p.2 with
        | .sectionHeader s => pure ⟨s, []⟩
        | _ => .err (.invalidField "PcapNg: SectionHeader invalid or missing")) := by
  unfold new
  cases Block.fromSlice .big src with
  | ok p => obtain ⟨rem, b⟩ := p; cases b <;> rfl
  | err e => rfl
  | panic m => rfl

theorem new_isPanic (src : Bytes) : (new src).isPanic = false := by
  rw [new_eq]
  exact Outcome.isPanic_bind (Block.fromSlice_isPanic .big src) fun p _ => by
    rw [Outcome.isPanic_map]; split <;> rfl

theorem new_extendsTo (src ext : Bytes) : ExtendsTo (new src) (new (src ++ ext)) ext := by
  rw [new_eq, new_eq]
  exact (Block.fromSlice_extendsTo .big src ext).bind fun b => match b with
    | .sectionHeader s => pure (⟨s, []⟩ : PcapNgParser)
    | _ => .err (.invalidField "PcapNg: SectionHeader invalid or missing")

theorem ExtendsToWith.of_ok {α σ : Type} {rem ext : Bytes} {a : α} {q : σ} :
    ExtendsToWith (.ok (rem, a), q) (.ok (rem ++ ext, a), q) ext :=
  ⟨fun _ _ h => (by cases h; rfl), fun _ h => (nomatch h)⟩

theorem ExtendsToWith.of_err {α σ : Type} {ext : Bytes} {e : PcapError} {q : σ} :
    ExtendsToWith ((.err e : Outcome (Bytes × α)), q) (.err e, q) ext :=
  ⟨fun _ _ h => (nomatch h), fun _ h _ => (by cases h; rfl)⟩

theorem ExtendsToWith.of_panic {α σ : Type} {ext : Bytes} {m : String} {q : σ}
    (y : Outcome (Bytes × α) × σ) : ExtendsToWith (.panic m, q) y ext :=
  ⟨fun _ _ h => (nomatch h), fun _ h => (nomatch h)⟩

theorem ExtendsToWith.of_incomplete {α σ : Type} {ext : Bytes} {q : σ}
    (y : Outcome (Bytes × α) × σ) : ExtendsToWith (.err .incompleteBuffer, q) y ext :=
  ⟨fun _ _ h => (nomatch h), fun _ h hne => (by cases h; exact absurd rfl hne)⟩

theorem nextRawBlockInner_extendsTo (B : Endianness) (p : PcapNgParser) (src ext : Bytes) :
    ExtendsToWith (nextRawBlockInner B p src) (nextRawBlockInner B p (src ++ ext)) ext := by
  have hf := RawBlock.fromSlice_extendsTo B src ext
  rw [nextRawBlockInner_eq, nextRawBlockInner_eq]
  cases hr : RawBlock.fromSlice B src with
  | ok r =>
    obtain ⟨rem, raw⟩ := r
    rw [hf.1 rem raw hr]
    dsimp only
    cases absorb B p raw with
    | ok p' => exact .of_ok
    | err e => exact .of_err
    | panic m => exact .of_panic _
  | err e =>
    by_cases he : e = .incompleteBuffer
    · subst he; exact .of_incomplete _
    · rw [hf.2 e hr he]; exact .of_err
  | panic m => exact .of_panic _

theorem nextRawBlock_extendsTo (p : PcapNgParser) (src ext : Bytes) :
    ExtendsToWith (p.nextRawBlock src) (p.nextRawBlock (src ++ ext)) ext :=
  nextRawBlockInner_extendsTo _ p src ext

theorem nextBlock_extendsTo (p : PcapNgParser) (src ext : Bytes) :
    ExtendsToWith (p.nextBlock src) (p.nextBlock (src ++ ext)) ext := by
  have hi := nextRawBlockInner_extendsTo p.section_.endianness p src ext
  dsimp only [nextBlock]
  generalize nextRawBlockInner p.section_.endianness p src = x at hi ⊢
  generalize nextRawBlockInner p.section_.endianness p (src ++ ext) = y at hi ⊢
  obtain ⟨r, q⟩ := x
  cases r with
  | ok v =>
    obtain ⟨rem, raw⟩ := v
    rw [hi.1 rem raw rfl]
    simp only [Outcome.ok_bind]
    cases Block.tryFromRawBlock p.section_.endianness raw with
    | ok b => exact .of_ok
    | err e => exact .of_err
    | panic m => exact .of_panic _
  | err e =>
    by_cases he : e = .incompleteBuffer
    · subst he; exact .of_incomplete _
    · rw [hi.2 e rfl he]; exact .of_err
  | panic m => exact .of_panic _

end PcapNgParser

end PcapFile.PcapNg
