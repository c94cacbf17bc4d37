import PcapFile.PcapNg.Parser

/-! # The read buffer (`read_buffer.rs`)

    The readers pull their input from an asynchronous byte source through a
    `ReadBuffer`.  `read_buffer.rs` is not among the sources, so the buffer
    is modelled on the stream driver of the specification (its section 4.F):

    - `parse_with_context(ctx, f)` runs the parse step `f` on the bytes read
      and not yet consumed.  When `f` succeeds, the bytes before the
      remainder it returns are consumed and its value is returned; when it
      fails with `IncompleteBuffer`, one more read is made and `f` runs
      again; any other error is returned with nothing consumed.  A read that
      gives no byte is the end of the stream, and the loop then returns
      `IncompleteBuffer` if nothing of the stream was consumed before, and a
      truncation error (an `IoError`) otherwise.  `parse_with(f)` is the
      same loop with no context.
    - `has_data_left()` is true while unconsumed bytes remain, and otherwise
      makes one read and tells whether it gave a byte.

    The capacity of the buffer, and the compaction that moves the
    unconsumed bytes to its front before a read, only bound how many bytes
    one read may give: the model lets the source choose the size of every
    read, which covers every capacity.

    The buffer refines a parser run on the whole stream.  Seen through
    `pending` (the unconsumed bytes followed by every byte still to be
    read), a parse through the buffer is one parse step on what remains of
    the stream, with running out of the stream reported as the end of the
    stream is (`atEnd`), provided the step is `Streamable` (prefix stable,
    with a suffix for remainder, keeping its context when it fails, and
    never panicking) and the source gives its bytes in non-empty reads
    (`parseWithContext_refines`); the bytes consumed and those that remain
    always add up to the whole stream.  So is a reader's `next_*` call
    (`nextWithContext_refines`), and so is every run of them once something
    was consumed (`runWithContext_refines`): how the stream is cut into
    reads is not observable, and a run never returns `IncompleteBuffer`.
-/

namespace PcapFile

/-- What one read of the byte source gives: the bytes read, none at the end
    of the stream, or an I/O error. -/
inductive ReadResult
  | bytes (bs : Bytes)
  | ioError
  deriving DecidableEq, Repr

/-- A `ReadBuffer` and the byte source it reads from. -/
structure ReadBuffer where
  /-- The bytes read and not yet consumed, `buffer[pos..len]`. -/
  window : Bytes
  /-- The reads the source has still to give, in order. -/
  source : List ReadResult
  /-- How many bytes of the stream were consumed. -/
  consumed : Nat
  deriving DecidableEq, Repr

namespace ReadBuffer

/-! ## Section 1: The driver -/

/-- `ReadBuffer::new`: nothing read or consumed yet. -/
def new (source : List ReadResult) : ReadBuffer := ⟨[], source, 0⟩

/-- `advance_with_slice`: consume the `buf.len() - rem.len()` bytes before
    the remainder `rem` a parse step returned. -/
def advance (window rem : Bytes) : Bytes := window.drop (window.length - rem.length)

/-- What the loop returns when the stream ends before the parse step is
    decided: `IncompleteBuffer` when nothing of the stream was consumed
    before, and a truncation error otherwise. -/
def endOfStream (consumed : Nat) : PcapError :=
  if consumed = 0 then .incompleteBuffer else .ioError

variable {σ α : Type}

/-- The loop of `parse_with_context` on the unconsumed bytes `window` and
    the reads `source` still to come, `consumed` bytes of the stream
    consumed before them. -/
def parseLoop (f : σ → Bytes → Outcome (Bytes × α) × σ) (ctx : σ) (consumed : Nat)
    (window : Bytes) (source : List ReadResult) : Outcome α × σ × ReadBuffer :=
  match f ctx window, source with
  | (.ok (rem, value), ctx), source =>
    (.ok value, ctx, ⟨advance window rem, source, consumed + (window.length - rem.length)⟩)
  | (.err .incompleteBuffer, ctx), [] =>
    (.err (endOfStream consumed), ctx, ⟨window, [], consumed⟩)
  | (.err .incompleteBuffer, ctx), .ioError :: source =>
    (.err .ioError, ctx, ⟨window, source, consumed⟩)
  | (.err .incompleteBuffer, ctx), .bytes [] :: source =>
    (.err (endOfStream consumed), ctx, ⟨window, source, consumed⟩)
  | (.err .incompleteBuffer, ctx), .bytes bs :: source =>
    parseLoop f ctx consumed (window ++ bs) source
  | (.err e, ctx), source => (.err e, ctx, ⟨window, source, consumed⟩)
  | (.panic m, ctx), source => (.panic m, ctx, ⟨window, source, consumed⟩)

/-- `ReadBuffer::parse_with_context`. -/
def parseWithContext (rb : ReadBuffer) (ctx : σ) (f : σ → Bytes → Outcome (Bytes × α) × σ) :
    Outcome α × σ × ReadBuffer :=
  parseLoop f ctx rb.consumed rb.window rb.source

/-- `ReadBuffer::parse_with`: the loop with no context. -/
def parseWith (rb : ReadBuffer) (f : Bytes → Outcome (Bytes × α)) : Outcome α × ReadBuffer :=
  let (r, (), rb) := rb.parseWithContext () fun () src => (f src, ())
  (r, rb)

/-- `ReadBuffer::has_data_left`; `none` is an I/O error of the read. -/
def hasDataLeft (rb : ReadBuffer) : Option Bool × ReadBuffer :=
  if rb.window.isEmpty then
    match rb.source with
    | [] => (some false, rb)
    | .ioError :: source => (none, { rb with source })
    | .bytes bs :: source => (some !bs.isEmpty, { rb with window := bs, source })
  else (some true, rb)

/-- The body the readers' `next_*` methods share: `None` when
    `has_data_left` finds the stream exhausted, an `IoError` when it fails,
    and otherwise the parse step run through `parse_with_context`. -/
def nextWithContext (rb : ReadBuffer) (ctx : σ) (f : σ → Bytes → Outcome (Bytes × α) × σ) :
    Option (Outcome α) × σ × ReadBuffer :=
  match rb.hasDataLeft with
  | (some true, rb) =>
    let (r, ctx, rb) := rb.parseWithContext ctx f
    (some r, ctx, rb)
  | (some false, rb) => (none, ctx, rb)
  | (none, rb) => (some (.err .ioError), ctx, rb)

/-- `n` calls of a reader's `next_*` method, up to the first `None`, as
    `while let Some(x) = reader.next_block()` makes them. -/
def runWithContext (f : σ → Bytes → Outcome (Bytes × α) × σ) :
    Nat → ReadBuffer → σ → List (Outcome α) × σ × ReadBuffer
  | 0, rb, ctx => ([], ctx, rb)
  | n + 1, rb, ctx =>
    match rb.nextWithContext ctx f with
    | (none, ctx, rb) => ([], ctx, rb)
    | (some r, ctx, rb) =>
      let (rs, ctx, rb) := runWithContext f n rb ctx
      (r :: rs, ctx, rb)

/-! ## Section 2: What remains of the stream -/

/-- The bytes a source gives, read after read. -/
def streamed : List ReadResult → Bytes
  | [] => []
  | .bytes bs :: source => bs ++ streamed source
  | .ioError :: source => streamed source

/-- A source that gives the chunks `cs`, one read each, then ends. -/
def ofChunks (cs : List Bytes) : List ReadResult := cs.map .bytes

/-- Every read gives at least one byte and none fails: the source hands out
    a stream in chunks, then ends. -/
def Clean (source : List ReadResult) : Prop := ∀ r ∈ source, ∃ bs, bs ≠ [] ∧ r = .bytes bs

/-- What remains of the stream: the unconsumed bytes, then every byte still
    to be read. -/
def pending (rb : ReadBuffer) : Bytes := rb.window ++ streamed rb.source

/-- The length of the whole stream, as the buffer sees it: the bytes
    consumed and what remains. -/
def streamLength (rb : ReadBuffer) : Nat := rb.consumed + rb.pending.length

/-- A driver's result with the buffer seen as what remains of the stream. -/
def view {β : Type} (x : β × σ × ReadBuffer) : β × σ × Bytes := (x.1, x.2.1, x.2.2.pending)

theorem streamed_ofChunks (cs : List Bytes) : streamed (ofChunks cs) = cs.flatten := by
  induction cs with
  | nil => rfl
  | cons c cs ih => simp [ofChunks, streamed, ← ih]

theorem clean_ofChunks {cs : List Bytes} (h : ∀ c ∈ cs, c ≠ []) : Clean (ofChunks cs) := by
  intro r hr
  obtain ⟨c, hc, rfl⟩ := List.mem_map.mp hr
  exact ⟨c, h c hc, rfl⟩

theorem Clean.tail {r : ReadResult} {source : List ReadResult} (h : Clean (r :: source)) :
    Clean source := fun r' hr' => h r' (List.mem_cons_of_mem r hr')

/-- The first read of a clean source gives some bytes. -/
theorem Clean.head {r : ReadResult} {source : List ReadResult} (h : Clean (r :: source)) :
    ∃ bs, bs ≠ [] ∧ r = .bytes bs := h r (List.mem_cons_self r source)

@[simp] theorem pending_mk (window : Bytes) (source : List ReadResult) (consumed : Nat) :
    pending ⟨window, source, consumed⟩ = window ++ streamed source := rfl

@[simp] theorem consumed_new (source : List ReadResult) : (ReadBuffer.new source).consumed = 0 := rfl

@[simp] theorem endOfStream_zero : endOfStream 0 = .incompleteBuffer := rfl

theorem endOfStream_of_pos {consumed : Nat} (h : 0 < consumed) : endOfStream consumed = .ioError :=
  if_neg (Nat.pos_iff_ne_zero.mp h)

/-- A new buffer over a source of chunks has the whole stream to come. -/
theorem pending_new_ofChunks (cs : List Bytes) : (ReadBuffer.new (ofChunks cs)).pending = cs.flatten := by
  simp [ReadBuffer.new, streamed_ofChunks]

/-! ## Section 3: The abstract reader -/

/-- One parse step on the whole remaining stream `s`: a success consumes the
    bytes before its remainder, a failure consumes nothing. -/
def stepWhole (f : σ → Bytes → Outcome (Bytes × α) × σ) (ctx : σ) (s : Bytes) :
    Outcome α × σ × Bytes :=
  match f ctx s with
  | (.ok (rem, a), ctx) => (.ok a, ctx, rem)
  | (.err e, ctx) => (.err e, ctx, s)
  | (.panic m, ctx) => (.panic m, ctx, s)

/-- The parse step as the buffer drives it at the end of the stream: where
    the step runs out of input, the driver returns `e`. -/
def atEnd (e : PcapError) (f : σ → Bytes → Outcome (Bytes × α) × σ) (ctx : σ) (s : Bytes) :
    Outcome (Bytes × α) × σ :=
  match f ctx s with
  | (.err .incompleteBuffer, ctx) => (.err e, ctx)
  | r => r

/-- A reader's `next_*` call on the whole remaining stream: `None` once it is
    exhausted, one parse step otherwise. -/
def nextWhole (f : σ → Bytes → Outcome (Bytes × α) × σ) (ctx : σ) (s : Bytes) :
    Option (Outcome α) × σ × Bytes :=
  if s = [] then (none, ctx, s)
  else
    let (r, ctx, s) := stepWhole f ctx s
    (some r, ctx, s)

/-- `n` calls on the whole remaining stream, up to the first `None`. -/
def runWhole (f : σ → Bytes → Outcome (Bytes × α) × σ) :
    Nat → σ → Bytes → List (Outcome α) × σ × Bytes
  | 0, ctx, s => ([], ctx, s)
  | n + 1, ctx, s =>
    match nextWhole f ctx s with
    | (none, ctx, s) => ([], ctx, s)
    | (some r, ctx, s) =>
      let (rs, ctx, s) := runWhole f n ctx s
      (r :: rs, ctx, s)

section AtEnd

variable {f : σ → Bytes → Outcome (Bytes × α) × σ} {e : PcapError} {ctx : σ} {s : Bytes}

theorem atEnd_of_ne (h : (f ctx s).1 ≠ .err .incompleteBuffer) : atEnd e f ctx s = f ctx s := by
  unfold atEnd
  split
  · rename_i h'; rw [h'] at h; exact absurd rfl h
  · rfl

theorem atEnd_of_incomplete {ctx' : σ} (h : f ctx s = (.err .incompleteBuffer, ctx')) :
    atEnd e f ctx s = (.err e, ctx') := by
  unfold atEnd; rw [h]

theorem atEnd_of_err {ctx' : σ} {e' : PcapError} (h : f ctx s = (.err e', ctx'))
    (he : e' ≠ .incompleteBuffer) : atEnd e f ctx s = (.err e', ctx') :=
  (atEnd_of_ne (by rw [h]; exact fun h' => he (Outcome.err.inj h'))).trans h

theorem atEnd_of_ok {ctx' : σ} {x : Bytes × α} (h : f ctx s = (.ok x, ctx')) :
    atEnd e f ctx s = (.ok x, ctx') :=
  (atEnd_of_ne (by rw [h]; exact nofun)).trans h

/-- The driver changes none of the step's successes. -/
theorem atEnd_eq_ok {ctx' : σ} {x : Bytes × α} :
    atEnd e f ctx s = (.ok x, ctx') ↔ f ctx s = (.ok x, ctx') := by
  by_cases h : (f ctx s).1 = .err .incompleteBuffer
  · rw [atEnd_of_incomplete (Prod.ext h rfl)]
    exact ⟨nofun, fun h' => by rw [h'] at h; cases h⟩
  · rw [atEnd_of_ne h]

/-- At the start of the stream the driver reports running out of it as the
    step does. -/
@[simp] theorem atEnd_incompleteBuffer : atEnd .incompleteBuffer f = f := by
  funext ctx s
  by_cases h : (f ctx s).1 = .err .incompleteBuffer
  · rw [atEnd_of_incomplete (Prod.ext h rfl), ← h]
  · exact atEnd_of_ne h

/-- After it, no step the driver runs returns `IncompleteBuffer`. -/
theorem atEnd_ne_incompleteBuffer (he : e ≠ .incompleteBuffer) (ctx : σ) (s : Bytes) :
    (atEnd e f ctx s).1 ≠ .err .incompleteBuffer := by
  by_cases h : (f ctx s).1 = .err .incompleteBuffer
  · rw [atEnd_of_incomplete (Prod.ext h rfl)]
    exact fun h' => he (Outcome.err.inj h')
  · rwa [atEnd_of_ne h]

/-- The driver keeps the context wherever the step keeps it. -/
theorem atEnd_keeps (hk : ∀ ctx src e, (f ctx src).1 = .err e → (f ctx src).2 = ctx)
    (e : PcapError) : ∀ ctx src e', (atEnd e f ctx src).1 = .err e' → (atEnd e f ctx src).2 = ctx := by
  intro ctx src e' h
  by_cases hi : (f ctx src).1 = .err .incompleteBuffer
  · rw [atEnd_of_incomplete (Prod.ext hi rfl)] at h ⊢
    exact hk ctx src _ hi
  · rw [atEnd_of_ne hi] at h ⊢
    exact hk ctx src e' h

end AtEnd

theorem runWhole_nil (f : σ → Bytes → Outcome (Bytes × α) × σ) (n : Nat) (ctx : σ) :
    runWhole f n ctx [] = ([], ctx, []) := by
  cases n <;> rfl

/-- A step that succeeds on what is left of the stream is one result. -/
theorem nextWhole_of_ok {f : σ → Bytes → Outcome (Bytes × α) × σ} {ctx ctx' : σ} {s rem : Bytes}
    {a : α} (hs : s ≠ []) (h : f ctx s = (.ok (rem, a), ctx')) :
    nextWhole f ctx s = (some (.ok a), ctx', rem) := by
  simp only [nextWhole, if_neg hs, stepWhole, h]

/-- A step that fails on what is left of the stream is one error. -/
theorem nextWhole_of_err {f : σ → Bytes → Outcome (Bytes × α) × σ} {ctx ctx' : σ} {s : Bytes}
    {e : PcapError} (hs : s ≠ []) (h : f ctx s = (.err e, ctx')) :
    nextWhole f ctx s = (some (.err e), ctx', s) := by
  simp only [nextWhole, if_neg hs, stepWhole, h]

theorem runWhole_succ_of_some {f : σ → Bytes → Outcome (Bytes × α) × σ} {ctx ctx' : σ}
    {s s' : Bytes} {r : Outcome α} (h : nextWhole f ctx s = (some r, ctx', s')) (n : Nat) :
    runWhole f (n + 1) ctx s = (r :: (runWhole f n ctx' s').1, (runWhole f n ctx' s').2) := by
  simp only [runWhole, h]

/-- A run with calls left returns nothing only on an exhausted stream. -/
theorem eq_nil_of_runWhole {f : σ → Bytes → Outcome (Bytes × α) × σ} {n : Nat} {ctx : σ}
    {s : Bytes} (h : (runWhole f (n + 1) ctx s).1 = []) : s = [] := by
  by_contra hs
  rcases hf : stepWhole f ctx s with ⟨r, ctx', s'⟩
  have hn : nextWhole f ctx s = (some r, ctx', s') := by simp only [nextWhole, if_neg hs, hf]
  rw [runWhole_succ_of_some hn] at h
  cases h

/-- The inversion lemma of a run: its first result is a value only when a
    call was left and the step succeeded on the stream with that value, and
    the rest of the run goes on from what the step left. -/
theorem runWhole_eq_ok_cons {f : σ → Bytes → Outcome (Bytes × α) × σ} {n : Nat} {ctx : σ}
    {s : Bytes} {a : α} {rs : List (Outcome α)} (h : (runWhole f n ctx s).1 = .ok a :: rs) :
    ∃ n' rem ctx', n = n' + 1 ∧ f ctx s = (.ok (rem, a), ctx') ∧ (runWhole f n' ctx' rem).1 = rs := by
  cases n with
  | zero => cases h
  | succ n =>
    by_cases hs : s = []
    · rw [hs, runWhole_nil] at h
      cases h
    rcases hf : f ctx s with ⟨⟨rem, a'⟩ | e | m, ctx'⟩
    · rw [runWhole_succ_of_some (nextWhole_of_ok hs hf)] at h
      simp only [List.cons.injEq, Outcome.ok.injEq] at h
      obtain ⟨rfl, h⟩ := h
      exact ⟨n, rem, ctx', rfl, rfl, h⟩
    all_goals
      rw [runWhole_succ_of_some (by simp only [nextWhole, if_neg hs, stepWhole, hf]; rfl)] at h
      cases h

/-- **A run that ends consumed the stream.**  When every success of the step
    is the encoding of its value followed by what the step leaves, a run of
    calls that all succeed and stops before its last call (the stream was
    found exhausted) read the whole stream, one encoding per call. -/
theorem eq_flatten_of_runWhole {f : σ → Bytes → Outcome (Bytes × α) × σ} (enc : α → Bytes)
    (henc : ∀ ctx s rem a ctx', f ctx s = (.ok (rem, a), ctx') → s = enc a ++ rem)
    {n : Nat} {ctx : σ} {s : Bytes} {as : List α} (h : (runWhole f n ctx s).1 = as.map .ok)
    (hlt : as.length < n) : s = (as.map enc).flatten := by
  induction as generalizing n ctx s with
  | nil =>
    cases n with
    | zero => cases hlt
    | succ n => exact eq_nil_of_runWhole h
  | cons a as ih =>
    obtain ⟨n', rem, ctx', rfl, hf, h'⟩ := runWhole_eq_ok_cons h
    rw [henc ctx s rem a ctx' hf, ih h' (Nat.lt_of_succ_lt_succ hlt)]
    rfl

/-- **A run returns at most one value per `m` bytes** of the stream when
    every success of the step consumes `m` bytes or more. -/
theorem length_le_of_runWhole {f : σ → Bytes → Outcome (Bytes × α) × σ} {m : Nat}
    (hm : ∀ ctx s rem a ctx', f ctx s = (.ok (rem, a), ctx') → rem.length + m ≤ s.length)
    {n : Nat} {ctx : σ} {s : Bytes} {as : List α} (h : (runWhole f n ctx s).1 = as.map .ok) :
    m * as.length ≤ s.length := by
  induction as generalizing n ctx s with
  | nil => simp
  | cons a as ih =>
    obtain ⟨n', rem, ctx', rfl, hf, h'⟩ := runWhole_eq_ok_cons h
    have hrem := ih h'
    have hstep := hm ctx s rem a ctx' hf
    rw [List.length_cons, Nat.mul_succ]
    omega

/-- A call succeeds only where the step succeeds, and leaves what it leaves. -/
theorem stepWhole_eq_ok {f : σ → Bytes → Outcome (Bytes × α) × σ} {ctx ctx' : σ} {s s' : Bytes}
    {a : α} (h : stepWhole f ctx s = (.ok a, ctx', s')) : f ctx s = (.ok (s', a), ctx') := by
  unfold stepWhole at h
  rcases hf : f ctx s with ⟨⟨rem, a'⟩ | e | m, c⟩ <;> rw [hf] at h <;> cases h
  rfl

/-- A call fails only where the step fails, with its error. -/
theorem stepWhole_eq_err {f : σ → Bytes → Outcome (Bytes × α) × σ} {ctx : σ} {s : Bytes}
    {e : PcapError} (h : (stepWhole f ctx s).1 = .err e) : (f ctx s).1 = .err e := by
  unfold stepWhole at h
  rcases hf : f ctx s with ⟨_ | e' | m, ctx'⟩ <;> rw [hf] at h <;> cases h
  rfl

/-- **No run returns `IncompleteBuffer`** of a step that never returns it. -/
theorem incompleteBuffer_not_mem_runWhole {f : σ → Bytes → Outcome (Bytes × α) × σ}
    (hf : ∀ ctx s, (f ctx s).1 ≠ .err .incompleteBuffer) (n : Nat) (ctx : σ) (s : Bytes) :
    .err .incompleteBuffer ∉ (runWhole f n ctx s).1 := by
  induction n generalizing ctx s with
  | zero => exact List.not_mem_nil _
  | succ n ih =>
    by_cases hs : s = []
    · rw [hs, runWhole_nil]; exact List.not_mem_nil _
    rcases hx : stepWhole f ctx s with ⟨r, ctx', s'⟩
    have hn : nextWhole f ctx s = (some r, ctx', s') := by simp only [nextWhole, if_neg hs, hx]
    rw [runWhole_succ_of_some hn, List.mem_cons, not_or]
    exact ⟨fun h => hf ctx s (stepWhole_eq_err (by rw [hx]; exact h.symm)), ih ctx' s'⟩

/-- A parse step the buffer can drive without changing its meaning: its
    result on a prefix of the input is `IncompleteBuffer` or its result on
    the whole input, the remainder of a success is a suffix of the input, a
    failure keeps the context, and it never panics. -/
structure Streamable (f : σ → Bytes → Outcome (Bytes × α) × σ) : Prop where
  extendsTo : ∀ ctx src ext, PcapNg.PcapNgParser.ExtendsToWith (f ctx src) (f ctx (src ++ ext)) ext
  suffix : ∀ ctx src rem a, (f ctx src).1 = .ok (rem, a) → rem <:+ src
  keeps : ∀ ctx src e, (f ctx src).1 = .err e → (f ctx src).2 = ctx
  never_panics : ∀ ctx src, (f ctx src).1.isPanic = false

/-- A parse step with no context is streamable when it is prefix stable,
    returns a suffix of its input and never panics. -/
theorem Streamable.of_stateless {g : Bytes → Outcome (Bytes × α)}
    (hext : ∀ src ext, ExtendsTo (g src) (g (src ++ ext)) ext)
    (hsuf : ∀ src rem a, g src = .ok (rem, a) → rem <:+ src)
    (hp : ∀ src, (g src).isPanic = false) :
    Streamable fun (_ : Unit) src => (g src, ()) :=
  ⟨fun _ src ext => ⟨fun rem a h => by rw [(hext src ext).1 rem a h],
      fun e h he => by rw [(hext src ext).2 e h he]⟩,
    fun _ src => hsuf src, fun _ _ _ _ => rfl, fun _ => hp⟩

/-! ## Section 4: The buffer refines the abstract reader -/

section Refinement

variable {f : σ → Bytes → Outcome (Bytes × α) × σ}

theorem parseLoop_ok {ctx ctx' : σ} {window rem : Bytes} {a : α}
    (h : f ctx window = (.ok (rem, a), ctx')) (consumed : Nat) (source : List ReadResult) :
    parseLoop f ctx consumed window source =
      (.ok a, ctx', ⟨advance window rem, source, consumed + (window.length - rem.length)⟩) := by
  unfold parseLoop; rw [h]

theorem parseLoop_err {ctx ctx' : σ} {window : Bytes} {e : PcapError}
    (h : f ctx window = (.err e, ctx')) (he : e ≠ .incompleteBuffer) (consumed : Nat)
    (source : List ReadResult) :
    parseLoop f ctx consumed window source = (.err e, ctx', ⟨window, source, consumed⟩) := by
  unfold parseLoop; rw [h]
  cases e <;> first | exact absurd rfl he | rfl

theorem parseLoop_incomplete_nil {ctx ctx' : σ} {window : Bytes}
    (h : f ctx window = (.err .incompleteBuffer, ctx')) (consumed : Nat) :
    parseLoop f ctx consumed window [] =
      (.err (endOfStream consumed), ctx', ⟨window, [], consumed⟩) := by
  unfold parseLoop; rw [h]

/-- On `IncompleteBuffer` the loop reads once more and tries again. -/
theorem parseLoop_incomplete_bytes {ctx ctx' : σ} {window bs : Bytes}
    (h : f ctx window = (.err .incompleteBuffer, ctx')) (hbs : bs ≠ []) (consumed : Nat)
    (source : List ReadResult) :
    parseLoop f ctx consumed window (.bytes bs :: source) =
      parseLoop f ctx' consumed (window ++ bs) source := by
  obtain ⟨b, bs, rfl⟩ := List.exists_cons_of_ne_nil hbs
  conv_lhs => unfold parseLoop
  rw [h]

/-- The loop never gives a consumed byte back. -/
theorem le_consumed_parseLoop (f : σ → Bytes → Outcome (Bytes × α) × σ) (ctx : σ)
    (consumed : Nat) (window : Bytes) (source : List ReadResult) :
    consumed ≤ (parseLoop f ctx consumed window source).2.2.consumed := by
  induction source generalizing ctx window with
  | nil =>
    unfold parseLoop
    split <;> first | exact Nat.le_refl _ | exact Nat.le_add_right _ _ | cases ‹[] = _›
  | cons r source ih =>
    unfold parseLoop
    split <;> first
      | exact Nat.le_refl _
      | exact Nat.le_add_right _ _
      | (cases ‹r :: source = _›; exact ih _ _)

/-- A remainder that is a suffix of the window is what advancing leaves. -/
theorem advance_of_suffix {window rem : Bytes} (h : rem <:+ window) : advance window rem = rem :=
  (List.suffix_iff_eq_drop.mp h).symm

/-- **A first try that does not run out of input decides the loop**, and
    it is the step on the whole remaining stream, whatever the driver would
    make of running out of it. -/
theorem parseLoop_decided (hf : Streamable f) (e : PcapError) (ctx : σ) (consumed : Nat)
    (window : Bytes) (source : List ReadResult) (h : (f ctx window).1 ≠ .err .incompleteBuffer) :
    view (parseLoop f ctx consumed window source) =
        stepWhole (atEnd e f) ctx (window ++ streamed source) ∧
      (parseLoop f ctx consumed window source).2.2.source = source ∧
      (parseLoop f ctx consumed window source).2.2.streamLength =
        consumed + (window ++ streamed source).length := by
  have hx := hf.extendsTo ctx window (streamed source)
  rcases hres : f ctx window with ⟨⟨rem, a⟩ | e' | m, ctx'⟩
  · rw [hres] at hx
    have hs := hf.suffix ctx window rem a (by rw [hres])
    rw [parseLoop_ok hres, stepWhole, atEnd_of_ok (hx.1 rem a rfl)]
    refine ⟨by simp [view, advance_of_suffix hs], rfl, ?_⟩
    have := hs.length_le
    simp only [streamLength, pending_mk, advance_of_suffix hs, List.length_append]
    omega
  · have he : e' ≠ .incompleteBuffer := fun he => h (by rw [hres, he])
    rw [hres] at hx
    rw [parseLoop_err hres he, stepWhole, atEnd_of_err (hx.2 e' rfl he) he]
    exact ⟨rfl, rfl, rfl⟩
  · have := hf.never_panics ctx window
    rw [hres] at this
    cases this

/-- **One parse through the buffer is one step on the whole stream.**  On a
    source that gives its bytes in non-empty reads, `parse_with_context`
    returns what the step returns on what remains of the stream, with
    running out of it reported as the end of the stream is, leaves the rest
    of the stream as the step leaves it, leaves a source that is still
    clean, and consumes what the step consumed. -/
theorem parseLoop_refines (hf : Streamable f) (ctx : σ) (consumed : Nat) (window : Bytes)
    {source : List ReadResult} (hc : Clean source) :
    view (parseLoop f ctx consumed window source) =
        stepWhole (atEnd (endOfStream consumed) f) ctx (window ++ streamed source) ∧
      Clean (parseLoop f ctx consumed window source).2.2.source ∧
      (parseLoop f ctx consumed window source).2.2.streamLength =
        consumed + (window ++ streamed source).length := by
  induction source generalizing ctx window with
  | nil =>
    by_cases h : (f ctx window).1 = .err .incompleteBuffer
    · have hres : f ctx window = (.err .incompleteBuffer, ctx) := Prod.ext h (hf.keeps ctx window _ h)
      rw [parseLoop_incomplete_nil hres]
      refine ⟨?_, hc, rfl⟩
      simp only [view, pending_mk, streamed, List.append_nil, stepWhole, atEnd_of_incomplete hres]
    · obtain ⟨hv, hs, hl⟩ := parseLoop_decided hf _ ctx consumed window [] h
      exact ⟨hv, by rw [hs]; exact hc, hl⟩
  | cons r source ih =>
    by_cases h : (f ctx window).1 = .err .incompleteBuffer
    · have hres : f ctx window = (.err .incompleteBuffer, ctx) := Prod.ext h (hf.keeps ctx window _ h)
      obtain ⟨bs, hbs, rfl⟩ := hc.head
      rw [parseLoop_incomplete_bytes hres hbs, streamed, ← List.append_assoc]
      exact ih ctx (window ++ bs) hc.tail
    · obtain ⟨hv, hs, hl⟩ := parseLoop_decided hf _ ctx consumed window _ h
      exact ⟨hv, by rw [hs]; exact hc, hl⟩

theorem parseWithContext_refines (hf : Streamable f) {rb : ReadBuffer} (hc : Clean rb.source)
    (ctx : σ) :
    view (rb.parseWithContext ctx f) = stepWhole (atEnd (endOfStream rb.consumed) f) ctx rb.pending ∧
      Clean (rb.parseWithContext ctx f).2.2.source ∧
      (rb.parseWithContext ctx f).2.2.streamLength = rb.streamLength :=
  parseLoop_refines hf ctx rb.consumed rb.window hc

/-- **`parse_with` through the buffer is one step on the whole stream.** -/
theorem parseWith_refines {g : Bytes → Outcome (Bytes × α)}
    (hg : Streamable fun (_ : Unit) src => (g src, ())) {rb : ReadBuffer} (hc : Clean rb.source) :
    ((rb.parseWith g).1, (), (rb.parseWith g).2.pending) =
        stepWhole (atEnd (endOfStream rb.consumed) fun _ src => (g src, ())) () rb.pending ∧
      Clean (rb.parseWith g).2.source ∧ (rb.parseWith g).2.streamLength = rb.streamLength :=
  parseWithContext_refines hg hc ()

theorem parseWith_ok {g : Bytes → Outcome (Bytes × α)}
    (hg : Streamable fun (_ : Unit) src => (g src, ())) {rb : ReadBuffer} (hc : Clean rb.source)
    {rem : Bytes} {a : α} (h : g rb.pending = .ok (rem, a)) :
    (rb.parseWith g).1 = .ok a ∧ (rb.parseWith g).2.pending = rem ∧
      Clean (rb.parseWith g).2.source := by
  obtain ⟨hv, hc', -⟩ := parseWith_refines hg hc
  simp only [stepWhole, atEnd, h, Prod.mk.injEq] at hv
  exact ⟨hv.1, hv.2.2, hc'⟩

/-- Conversely, a `parse_with` that succeeds through the buffer is a success
    of the step on the whole stream, which leaves what remains after it and
    consumes what it read. -/
theorem eq_ok_of_parseWith {g : Bytes → Outcome (Bytes × α)}
    (hg : Streamable fun (_ : Unit) src => (g src, ())) {rb : ReadBuffer} (hc : Clean rb.source)
    {a : α} (h : (rb.parseWith g).1 = .ok a) :
    g rb.pending = .ok ((rb.parseWith g).2.pending, a) ∧ Clean (rb.parseWith g).2.source ∧
      (rb.parseWith g).2.streamLength = rb.streamLength := by
  obtain ⟨hv, hc', hl⟩ := parseWith_refines hg hc
  rw [h] at hv
  exact ⟨congrArg Prod.fst (atEnd_eq_ok.mp (stepWhole_eq_ok hv.symm)), hc', hl⟩

/-- At the start of the stream, `parse_with` fails as the step fails on the
    whole stream. -/
theorem parseWith_err {g : Bytes → Outcome (Bytes × α)}
    (hg : Streamable fun (_ : Unit) src => (g src, ())) {rb : ReadBuffer} (hc : Clean rb.source)
    (h0 : rb.consumed = 0) {e : PcapError} (h : g rb.pending = .err e) :
    (rb.parseWith g).1 = .err e := by
  obtain ⟨hv, -⟩ := parseWith_refines hg hc
  rw [h0, endOfStream_zero, atEnd_incompleteBuffer] at hv
  simp only [stepWhole, h, Prod.mk.injEq] at hv
  exact hv.1

@[simp] theorem consumed_hasDataLeft (rb : ReadBuffer) : (rb.hasDataLeft).2.consumed = rb.consumed := by
  unfold hasDataLeft
  split
  · split <;> rfl
  · rfl

/-- `has_data_left` on a clean source: it tells whether anything remains of
    the stream, and reading for it changes nothing that remains. -/
theorem hasDataLeft_clean {rb : ReadBuffer} (hc : Clean rb.source) :
    (rb.hasDataLeft).1 = some !rb.pending.isEmpty ∧ (rb.hasDataLeft).2.pending = rb.pending ∧
      Clean (rb.hasDataLeft).2.source := by
  obtain ⟨window, source, consumed⟩ := rb
  cases window with
  | nil =>
    cases source with
    | nil => exact ⟨rfl, rfl, hc⟩
    | cons r source =>
      obtain ⟨bs, hbs, rfl⟩ := hc.head
      refine ⟨?_, rfl, hc.tail⟩
      obtain ⟨b, bs, rfl⟩ := List.exists_cons_of_ne_nil hbs
      rfl
  | cons b window => exact ⟨rfl, rfl, hc⟩

/-- **A reader's `next_*` call through the buffer is one call on the whole
    stream.** -/
theorem nextWithContext_refines (hf : Streamable f) {rb : ReadBuffer} (hc : Clean rb.source)
    (ctx : σ) :
    view (rb.nextWithContext ctx f) = nextWhole (atEnd (endOfStream rb.consumed) f) ctx rb.pending ∧
      Clean (rb.nextWithContext ctx f).2.2.source ∧
      (rb.nextWithContext ctx f).2.2.streamLength = rb.streamLength := by
  obtain ⟨hd, hp, hc'⟩ := hasDataLeft_clean hc
  have hk := consumed_hasDataLeft rb
  have hl : (rb.hasDataLeft).2.streamLength = rb.streamLength := by
    simp only [streamLength, hp, hk]
  unfold nextWithContext nextWhole
  generalize rb.hasDataLeft = d at hd hp hc' hk hl ⊢
  obtain ⟨d, rb'⟩ := d
  dsimp only at hd hp hc' hk hl
  subst hd
  rw [← hp, ← hk, ← hl]
  cases hs : rb'.pending with
  | nil => simp [view, hs, hc']
  | cons b s =>
    obtain ⟨hv, hc'', hl'⟩ := parseWithContext_refines hf hc' ctx
    rw [hs] at hv
    simp only [List.isEmpty_cons, Bool.not_false, reduceCtorEq, if_false]
    exact ⟨by rw [← hv]; rfl, hc'', hl'⟩

theorem le_consumed_nextWithContext (rb : ReadBuffer) (ctx : σ) :
    rb.consumed ≤ (rb.nextWithContext ctx f).2.2.consumed := by
  have hk := consumed_hasDataLeft rb
  unfold nextWithContext
  generalize rb.hasDataLeft = d at hk ⊢
  obtain ⟨_ | _ | _, rb'⟩ := d
  all_goals
    dsimp only at hk ⊢
    rw [← hk]
  exact le_consumed_parseLoop f ctx _ _ _

/-- **Every run of a reader through the buffer is a run on the whole
    stream**: once something of the stream was consumed, for every number
    of calls, the results, the context and what remains of the stream are
    those of the same calls on the whole stream, where running out of the
    stream is a truncation error, however the source cuts the stream into
    reads. -/
theorem runWithContext_refines (hf : Streamable f) (n : Nat) {rb : ReadBuffer}
    (hc : Clean rb.source) (hpos : 0 < rb.consumed) (ctx : σ) :
    view (runWithContext f n rb ctx) = runWhole (atEnd .ioError f) n ctx rb.pending := by
  induction n generalizing rb ctx with
  | zero => rfl
  | succ n ih =>
    obtain ⟨hv, hc', -⟩ := nextWithContext_refines hf hc ctx
    have hpos' := Nat.lt_of_lt_of_le hpos (le_consumed_nextWithContext (f := f) rb ctx)
    rw [endOfStream_of_pos hpos] at hv
    simp only [runWithContext, runWhole, ← hv]
    generalize rb.nextWithContext ctx f = x at hc' hpos' ⊢
    obtain ⟨_ | r, ctx', rb'⟩ := x
    · rfl
    · have := ih hc' hpos' ctx'
      simp only [view] at this ⊢
      rw [← this]

/-- A call on the whole stream that fails read something and kept its context. -/
theorem nextWhole_eq_err {g : σ → Bytes → Outcome (Bytes × α) × σ}
    (hk : ∀ ctx src e, (g ctx src).1 = .err e → (g ctx src).2 = ctx) {ctx ctx' : σ}
    {s s' : Bytes} {e : PcapError} (h : nextWhole g ctx s = (some (.err e), ctx', s')) :
    s ≠ [] ∧ g ctx s = (.err e, ctx) ∧ ctx' = ctx ∧ s' = s := by
  unfold nextWhole at h
  split at h
  · cases h
  · rename_i hs
    unfold stepWhole at h
    rcases hres : g ctx s with ⟨_ | e' | m, ctx''⟩ <;> rw [hres] at h
    · cases h
    · cases h
      have hk' : ctx' = ctx := by simpa [hres] using hk ctx s e (by rw [hres])
      exact ⟨hs, by rw [hk'], hk', rfl⟩
    · cases h

/-- A call that fails leaves the buffer where the stream stands, so every
    later call fails the same way. -/
theorem runWithContext_of_err (hf : Streamable f) {ctx : σ} {s : Bytes} {c : Nat} {e : PcapError}
    (hs : s ≠ []) (h : atEnd (endOfStream c) f ctx s = (.err e, ctx)) (n : Nat) {rb : ReadBuffer}
    (hc : Clean rb.source) (hrb : rb.consumed = c) (hp : rb.pending = s) :
    (runWithContext f n rb ctx).1 = List.replicate n (.err e) := by
  induction n generalizing rb with
  | zero => rfl
  | succ n ih =>
    obtain ⟨hv, hc', hl⟩ := nextWithContext_refines hf hc ctx
    rw [hrb, hp, nextWhole_of_err hs h] at hv
    simp only [runWithContext]
    generalize rb.nextWithContext ctx f = x at hv hc' hl ⊢
    obtain ⟨r, ctx', rb'⟩ := x
    simp only [view, Prod.mk.injEq] at hv
    obtain ⟨rfl, rfl, hp'⟩ := hv
    refine congrArg (.err e :: ·) (ih hc' ?_ hp')
    unfold streamLength at hl
    rw [hp', ← hp] at hl
    omega

/-- **An error is never left behind.**  On a clean source, once a reader's
    `next_*` call returns an error, every later call returns the same error,
    and the stream is never reported exhausted. -/
theorem runWithContext_after_err (hf : Streamable f) {rb rb' : ReadBuffer} (hc : Clean rb.source)
    {ctx ctx' : σ} {e : PcapError} (h : rb.nextWithContext ctx f = (some (.err e), ctx', rb'))
    (n : Nat) : (runWithContext f n rb' ctx').1 = List.replicate n (.err e) := by
  obtain ⟨hv, hc', hl⟩ := nextWithContext_refines hf hc ctx
  rw [h] at hv hc' hl
  simp only [view] at hv
  obtain ⟨hs, hres, rfl, hp⟩ := nextWhole_eq_err (atEnd_keeps hf.keeps _) hv.symm
  refine runWithContext_of_err hf hs hres n hc' ?_ hp
  simp only [streamLength, hp] at hl
  omega

end Refinement

end ReadBuffer

end PcapFile
