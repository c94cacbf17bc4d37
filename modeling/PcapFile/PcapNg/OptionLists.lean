import PcapFile.PcapNg.Blocks.BlockCommon

/-! # Option lists: what reads back, and where a list ends

    `opts_from_slice` reads TLVs until the end-of-options marker `(0, 0)`.
    An empty slice is an empty list, but a list of options that runs to the
    end of the slice without the marker is refused with `Invalid option`
    (`optsFromSlice_needs_endOfOpt`); `write_opts_to` always writes the
    marker after at least one option, so what the writers emit is read back
    (`options_read_back`) for every option the decoders accept.  The one
    option no decoder accepts as written is the interface time zone: it is
    written as a four-byte value and read only from a one-byte one
    (`ifTzone_never_read_back`).
-/

namespace PcapFile.PcapNg

/-! ## Section 1: The end-of-options marker -/

section EndOfOpt

variable {α : Type} [PcapNgOption α]

/-- **An option list ends with its marker.**  Well-formed TLVs, one at
    least, are refused when the slice ends after them, and read when the
    end-of-options marker follows them. -/
theorem optsFromSlice_needs_endOfOpt {B : Endianness} {tlvs : List (UInt16 × Bytes)}
    {opts : List α} (h : List.Forall₂ (ReadsAs B) tlvs opts) (hne : tlvs ≠ []) :
    (optsFromSlice B (tlvs.map fun t => tlv B t.1 t.2).flatten : Outcome (Bytes × List α)) =
        .err (.invalidField "Invalid option") ∧
      optsFromSlice B ((tlvs.map fun t => tlv B t.1 t.2).flatten ++ writeU16 B 0 ++ writeU16 B 0) =
        .ok ([], opts) := by
  have hbytes : (tlvs.map fun t => tlv B t.1 t.2).flatten ≠ [] := by
    obtain ⟨t, ts, rfl⟩ := List.exists_cons_of_ne_nil hne
    simp [tlv_ne_nil]
  constructor
  · have := optsLoop_tlvs h [] []
    rw [List.append_nil, List.nil_append, optsLoop_nil] at this
    rw [optsFromSlice, if_neg hbytes, this]
  · rw [optsFromSlice, if_neg (by simp [hbytes]), List.append_assoc, optsLoop_tlvs h]
    simpa using optsLoop_endOfOpt B 0 [] ([] ++ opts)

end EndOfOpt

/-- One comment option, `hi`, with and without the marker. -/
theorem comment_needs_endOfOpt :
    List.Forall₂ (ReadsAs .big) [((1 : UInt16), [0x68, 0x69])]
        [SectionHeaderOption.comment ⟨[0x68, 0x69], rfl⟩] ∧
      optsFromSlice .big (tlv .big 1 [0x68, 0x69]) =
        (.err (.invalidField "Invalid option") : Outcome (Bytes × List SectionHeaderOption)) ∧
      optsFromSlice .big (tlv .big 1 [0x68, 0x69] ++ writeU16 .big 0 ++ writeU16 .big 0) =
        .ok ([], [SectionHeaderOption.comment ⟨[0x68, 0x69], rfl⟩]) := by
  have h : List.Forall₂ (ReadsAs .big) [((1 : UInt16), [0x68, 0x69])]
      [SectionHeaderOption.comment ⟨[0x68, 0x69], rfl⟩] := .cons ⟨by decide, by decide, rfl⟩ .nil
  exact ⟨h, by simpa using optsFromSlice_needs_endOfOpt h (List.cons_ne_nil _ _)⟩

/-- A well-formed comment option `hi` that runs to the end of the slice is
    refused. -/
theorem comment_at_end_refused :
    ReadsAs .big ((1 : UInt16), [0x68, 0x69]) (SectionHeaderOption.comment ⟨[0x68, 0x69], rfl⟩) ∧
      (optsFromSlice .big (tlv .big 1 [0x68, 0x69]) : Outcome (Bytes × List SectionHeaderOption)) =
        .err (.invalidField "Invalid option") := by
  have h : ReadsAs .big ((1 : UInt16), [0x68, 0x69])
      (SectionHeaderOption.comment ⟨[0x68, 0x69], rfl⟩) := ⟨by decide, by decide, rfl⟩
  have hp := optPass_tlv h []
  rw [List.append_nil] at hp
  refine ⟨h, ?_⟩
  rw [optsFromSlice, if_neg (tlv_ne_nil _ _ _), optsLoop_of_ne_nil (tlv_ne_nil _ _ _), hp]
  exact optsLoop_nil _ _

/-! ## Section 2: What the option writers emit reads back -/

/-- Options that each round-trip are read back from what `write_opts_to`
    wrote, with nothing left over. -/
theorem optsFromSlice_writeOptsTo_self {α : Type} [PcapNgOption α] {B : Endianness}
    {opts : List α} (h : ∀ o ∈ opts, TlvRoundTrip B o) :
    optsFromSlice B (writeOptsTo B opts).bytes = .ok ([], opts) := by
  simpa using optsFromSlice_writeOptsTo h [] fun _ => rfl

/-- **Option round trip.**  For every byte order, every list of well-formed
    options of each of the five option types is read back from what
    `write_opts_to` writes, with nothing left over, and so is every
    well-formed name resolution block from what its writer writes.  An
    option is well formed when its value fits the length field and has the
    length its code's decoder requires; no interface time zone option is. -/
theorem options_read_back (B : Endianness) :
    (∀ opts : List SectionHeaderOption, (∀ o ∈ opts, o.WellFormed) →
      optsFromSlice B (writeOptsTo B opts).bytes = .ok ([], opts)) ∧
    (∀ opts : List InterfaceDescriptionOption, (∀ o ∈ opts, o.WellFormed) →
      optsFromSlice B (writeOptsTo B opts).bytes = .ok ([], opts)) ∧
    (∀ opts : List EnhancedPacketOption, (∀ o ∈ opts, o.WellFormed) →
      optsFromSlice B (writeOptsTo B opts).bytes = .ok ([], opts)) ∧
    (∀ opts : List InterfaceStatisticsOption, (∀ o ∈ opts, o.WellFormed) →
      optsFromSlice B (writeOptsTo B opts).bytes = .ok ([], opts)) ∧
    (∀ opts : List NameResolutionOption, (∀ o ∈ opts, o.WellFormed) →
      optsFromSlice B (writeOptsTo B opts).bytes = .ok ([], opts)) ∧
    (∀ b : NameResolutionBlock, b.WellFormed →
      NameResolutionBlock.fromSlice B (NameResolutionBlock.writeTo B b).bytes = .ok ([], b)) :=
  ⟨fun _ h => optsFromSlice_writeOptsTo_self fun o ho => SectionHeaderOption.tlvRoundTrip (h o ho),
    fun _ h => optsFromSlice_writeOptsTo_self fun o ho =>
      InterfaceDescriptionOption.tlvRoundTrip (h o ho),
    fun _ h => optsFromSlice_writeOptsTo_self fun o ho => EnhancedPacketOption.tlvRoundTrip (h o ho),
    fun _ h => optsFromSlice_writeOptsTo_self fun o ho =>
      InterfaceStatisticsOption.tlvRoundTrip (h o ho),
    fun _ h => optsFromSlice_writeOptsTo_self fun o ho => NameResolutionOption.tlvRoundTrip (h o ho),
    fun _ h => NameResolutionBlock.fromSlice_writeTo B h⟩

/-! ## Section 3: The interface time zone -/

/-- The time zone option as `write_opts_to` writes it: code 10, length 4,
    the value, and the end-of-options marker. -/
theorem writeOptsTo_ifTzone (B : Endianness) (x : UInt32) :
    (writeOptsTo B [InterfaceDescriptionOption.ifTzone x]).bytes =
      writeU16 B 10 ++ writeU16 B 4 ++ (writeU32 B x ++ (writeU16 B 0 ++ writeU16 B 0)) := by
  simp [writeOptsTo, PcapNgOption.writeTo, InterfaceDescriptionOption.writeTo,
    WriteOptTo.writeOptTo]

/-- **The interface time zone is never read back.**  In either byte order,
    a list holding one time zone option, whatever its value, is written as
    a TLV that the decoder refuses. -/
theorem ifTzone_never_read_back (B : Endianness) (x : UInt32) :
    (optsFromSlice B (writeOptsTo B [InterfaceDescriptionOption.ifTzone x]).bytes :
        Outcome (Bytes × List InterfaceDescriptionOption)) =
      .err (.invalidField "InterfaceDescriptionOption: IfTzone length != 1") := by
  rw [writeOptsTo_ifTzone, optsFromSlice, if_neg (by simp), optsLoop_of_ne_nil (by simp),
    optPass_header, if_neg (by decide), if_neg (by simp [UInt16.size, padLen])]
  simp only [PcapNgOption.fromSlice, InterfaceDescriptionOption.ifTzone_fromSlice]
  simp [UInt16.size]

end PcapFile.PcapNg
