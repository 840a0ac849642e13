import DnsTrace.Proofs.Edns.Defects
import DnsTrace.Proofs.Name.Limit
import DnsTrace.Proofs.RecordData.Isolation

/-!
# Data that is too short

A name inside record data is measured in the message, and the cursor that has to pass over it runs
over the data. The window of the name ends with the data, so what is measured never takes more
than the cursor has left, whatever the message and wherever the record says that its data lies.

Decoding fails for three kinds of reasons: fixed octets are missing, a name is refused, or the
options of an EDNS record are. In a message that was read the data lies inside the message, so
every name has its window, and a shortage is always one of fixed octets.
-/

namespace DnsTrace

/-- A name whose window lies inside the message is refused for what stands there, never for a
shortage. -/
theorem Message.refusesMessage_of_nameAt {message : Message} {offset limit : Nat} {fault : Fault}
    (hwindow : offset ≤ min limit message.raw.length)
    (h : message.nameAt offset limit = .error fault) : fault.RefusesMessage := by
  rw [nameAt_eq_map, map_eq_error_iff, DomainName.readAt_eq_error_iff] at h
  obtain ⟨hbehind, -⟩ | ⟨-, position, defect, -, rfl⟩ | ⟨run, -, hresolve⟩ := h
  · omega
  · trivial
  · exact Run.refusesMessage_of_resolve hresolve

/-- The options of an EDNS record are never refused for a shortage of the record's own data. -/
theorem Edns.ne_truncated_of_ofRecord {ν : Type} {record : Record ν} {fault : Fault}
    (h : ofRecord record = .error fault) (needed remaining : Nat) :
    fault ≠ .truncated needed remaining := by
  rw [ofRecord, bind_eq_error_iff] at h
  obtain hread | ⟨options, -, hpure⟩ := h
  · obtain ⟨fields, rest, hfails⟩ := OptionField.exists_failsBehind_of_readAll hread
    cases hfails.defective <;> simp
  · cases hpure

namespace Record

/-- The decoder of the record's type comes to fixed octets, `needed` of them, where only
`remaining` octets of the data are left. -/
inductive Lacks (record : Record String) (Named : String → Nat → Nat → Prop) : Nat → Nat → Prop
  | a (type : record.rrType = .a) (short : record.rdlength < 4) :
      Lacks record Named 4 record.rdlength
  | aaaa (type : record.rrType = .aaaa) (short : record.rdlength < 16) :
      Lacks record Named 16 record.rdlength
  | mx (type : record.rrType = .mx) (short : record.rdlength < 2) :
      Lacks record Named 2 record.rdlength
  | soa {primary mailbox : String} {first second remaining : Nat} (type : record.rrType = .soa)
      (primaryNamed : Named primary 0 first) (mailboxNamed : Named mailbox first second)
      (left : first + second + remaining = record.rdlength) (short : remaining < 20) :
      Lacks record Named 20 remaining

/-- The reasons for which the data of a record is not decoded. -/
inductive Fails (record : Record String) (message : Message) : Fault → Prop
  | short {needed remaining : Nat}
      (lacks : record.Lacks (record.Embeds message) needed remaining) :
      Fails record message (.truncated needed remaining)
  | name {position : Nat} {fault : Fault}
      (reads : record.ReadsNameAt (record.Embeds message) position)
      (refused : message.nameAt (record.rdataOffset + position)
        (record.rdataOffset + record.rdlength) = .error fault) : Fails record message fault
  | options {fault : Fault} (type : record.rrType = .opt)
      (refused : Edns.ofRecord record = .error fault) : Fails record message fault

section Decoding

variable {record : Record String} {message : Message} {fault : Fault} {position : Nat}

/-- A name at a cursor is refused exactly when it is refused in the message. -/
theorem embeddedName_eq_error_iff :
    record.embeddedName message (.within record.rdata position) = .error fault ↔
      message.nameAt (record.rdataOffset + position) (record.rdataOffset + record.rdlength) =
        .error fault := by
  rw [embeddedName_within, map_eq_error_iff]

/-- What begins with a name fails as the name does, or behind it. -/
theorem embeddedName_bind_eq_error_iff {next : String × Cursor → Except Fault RecordData} :
    (record.embeddedName message (.within record.rdata position) >>= next) = .error fault ↔
      message.nameAt (record.rdataOffset + position) (record.rdataOffset + record.rdlength) =
          .error fault ∨
        ∃ name used, record.Embeds message name position used ∧
          next (name, .within record.rdata (position + used)) = .error fault := by
  rw [bind_eq_error_iff, embeddedName_eq_error_iff]
  apply or_congr_right
  constructor
  · intro h
    obtain ⟨⟨name, _⟩, hread, hnext⟩ := h
    obtain ⟨_, ⟨used, hname, rfl⟩, rfl⟩ := (embeddedName_reads record message _ _ _).mp hread
    exact ⟨name, used, hname, hnext⟩
  · intro h
    obtain ⟨name, used, hname, hnext⟩ := h
    exact ⟨_, (embeddedName_reads record message _ _ _).mpr ⟨_, ⟨used, hname, rfl⟩, rfl⟩, hnext⟩

/-- Whatever is made of a name, it is refused as the name is. -/
theorem embeddedName_bind_pure_eq_error_iff (interpret : String → RecordData) :
    (record.embeddedName message (.within record.rdata position) >>= fun found =>
        pure (interpret found.1)) = .error fault ↔
      message.nameAt (record.rdataOffset + position) (record.rdataOffset + record.rdlength) =
        .error fault := by
  rw [embeddedName_bind_eq_error_iff, or_iff_left]
  rintro ⟨name, used, -, hpure⟩
  cases hpure

/-- An address is refused when some of its octets are missing. -/
theorem bytes_padded_eq_error_iff {n : Nat} (rdata : Octets)
    (address : Vector UInt8 n → RecordData) :
    ((Cursor.start rdata).bytes n >>= fun taken => pure (address (Octets.padded n taken.1))) =
        .error fault ↔
      rdata.length < n ∧ fault = .truncated n rdata.length := by
  rw [Cursor.start_eq_within, Cursor.bytes_within_remaining, Nat.sub_zero]
  by_cases hfits : n ≤ rdata.length
  · rw [if_pos hfits]
    exact iff_of_false (by simp [bind, Except.bind, pure, Except.pure]) (by omega)
  · rw [if_neg hfits]
    simp only [bind, Except.bind, Except.error.injEq, eq_comm]
    exact (and_iff_right (by omega)).symm

/-- A single name is refused as it is in the message. -/
theorem readTarget_eq_error_iff :
    record.readTarget message = .error fault ↔
      message.nameAt (record.rdataOffset + 0) (record.rdataOffset + record.rdlength) =
        .error fault :=
  embeddedName_bind_pure_eq_error_iff RecordData.name

/-- A mail exchange is refused when its preference is cut off, or as its name is. -/
theorem readMX_eq_error_iff :
    record.readMX message = .error fault ↔
      (record.rdlength < 2 ∧ fault = .truncated 2 record.rdlength) ∨
        (2 ≤ record.rdlength ∧
          message.nameAt (record.rdataOffset + 2) (record.rdataOffset + record.rdlength) =
            .error fault) := by
  have hread : (Cursor.within record.rdata 0).read16 = if 2 ≤ record.rdlength then
      .ok (.ofNat (record.rdata.number 0 2), .within record.rdata 2)
    else .error (.truncated 2 record.rdlength) :=
    (Cursor.read16_eq _).trans <| Cursor.bytes_bind_within_remaining record.rdata 0 2 fun octets =>
      UInt16.ofNat (Octets.value octets)
  rw [readMX, Cursor.start_eq_within, hread]
  by_cases hroom : 2 ≤ record.rdlength
  · rw [if_pos hroom, or_iff_right fun h => absurd h.1 (by omega), and_iff_right hroom]
    exact embeddedName_bind_pure_eq_error_iff (RecordData.mx _)
  · rw [if_neg hroom, or_iff_left fun h => hroom h.1, and_iff_right (by omega)]
    simp only [bind, Except.bind, Except.error.injEq, eq_comm]

/-- The data of a zone is refused as one of its two names is, or when octets of its numbers are
missing behind them. -/
theorem readSOA_eq_error_iff :
    record.readSOA message = .error fault ↔
      message.nameAt (record.rdataOffset + 0) (record.rdataOffset + record.rdlength) =
          .error fault ∨
        ∃ primary first, record.Embeds message primary 0 first ∧
          (message.nameAt (record.rdataOffset + first) (record.rdataOffset + record.rdlength) =
              .error fault ∨
            ∃ mailbox second remaining, record.Embeds message mailbox first second ∧
              first + second + remaining = record.rdlength ∧ remaining < 20 ∧
              fault = .truncated 20 remaining) := by
  rw [readSOA, Cursor.start_eq_within]
  refine embeddedName_bind_eq_error_iff.trans (or_congr_right (exists_congr fun primary =>
    exists_congr fun first => and_congr_right fun _ => ?_))
  rw [Nat.zero_add]
  refine embeddedName_bind_eq_error_iff.trans (or_congr_right (exists_congr fun mailbox =>
    exists_congr fun second => ?_))
  dsimp only
  have hlength : record.rdlength = record.rdata.length := rfl
  rw [bind_eq_error_iff, Cursor.ensure_within_eq_error_iff, or_iff_left]
  · constructor
    · intro h
      obtain ⟨hsecond, hshort, rfl⟩ := h
      have hinside := hsecond.le.2
      exact ⟨record.rdlength - (first + second), hsecond, by omega, hshort, rfl⟩
    · intro h
      obtain ⟨remaining, hsecond, hleft, hshort, rfl⟩ := h
      have hremaining : remaining = record.rdata.length - (first + second) := by omega
      rw [hremaining] at hshort ⊢
      exact ⟨hsecond, hshort, rfl⟩
  · -- Where twenty octets are left, all five numbers are read.
    intro h
    obtain ⟨_, hensure, hnumbers⟩ := h
    have hroom := (Cursor.ensure_within_eq_ok_iff _ _ _).mp hensure
    simp (disch := omega) only [Cursor.read32_of_le, bind, Except.bind] at hnumbers
    cases hnumbers

/-- Decoding is refused exactly for these reasons. -/
theorem decode_eq_error_iff :
    record.decode message = .error fault ↔ record.Fails message fault := by
  constructor
  · intro h
    unfold decode at h
    split at h
    case h_1 htype =>
      obtain hname | ⟨primary, first, hfirst, hname | hshort⟩ := readSOA_eq_error_iff.mp h
      · exact .name (.primary htype) hname
      · exact .name (.mailbox htype hfirst) hname
      · obtain ⟨mailbox, second, remaining, hsecond, hleft, hshort, rfl⟩ := hshort
        exact .short (.soa htype hfirst hsecond hleft hshort)
    case h_2 htype =>
      obtain ⟨hshort, rfl⟩ :=
        (bytes_padded_eq_error_iff record.rdata fun octets => .a ⟨octets⟩).mp h
      exact .short (.a htype hshort)
    case h_3 htype =>
      obtain ⟨hshort, rfl⟩ :=
        (bytes_padded_eq_error_iff record.rdata fun octets => .aaaa ⟨octets⟩).mp h
      exact .short (.aaaa htype hshort)
    case h_4 htype =>
      obtain ⟨hshort, rfl⟩ | ⟨hroom, hname⟩ := readMX_eq_error_iff.mp h
      · exact .short (.mx htype hshort)
      · exact .name (.exchange htype hroom) hname
    case h_5 htype => exact .name (.target (.inl htype)) (readTarget_eq_error_iff.mp h)
    case h_6 htype => exact .name (.target (.inr (.inl htype))) (readTarget_eq_error_iff.mp h)
    case h_7 htype => exact .name (.target (.inr (.inr htype))) (readTarget_eq_error_iff.mp h)
    case h_8 htype => exact .options htype (map_eq_error_iff.mp h)
    case h_9 => cases h
  · intro h
    cases h with
    | short lacks =>
      cases lacks with
      | a type short =>
        rw [decode, type]
        exact (bytes_padded_eq_error_iff record.rdata fun octets => .a ⟨octets⟩).mpr ⟨short, rfl⟩
      | aaaa type short =>
        rw [decode, type]
        exact (bytes_padded_eq_error_iff record.rdata fun octets => .aaaa ⟨octets⟩).mpr
          ⟨short, rfl⟩
      | mx type short =>
        rw [decode, type]
        exact readMX_eq_error_iff.mpr (.inl ⟨short, rfl⟩)
      | soa type primary mailbox left short =>
        rw [decode, type]
        exact readSOA_eq_error_iff.mpr
          (.inr ⟨_, _, primary, .inr ⟨_, _, _, mailbox, left, short, rfl⟩⟩)
    | name reads refused =>
      cases reads with
      | target type =>
        obtain type | type | type := type <;> rw [decode, type] <;>
          exact readTarget_eq_error_iff.mpr refused
      | exchange type room =>
        rw [decode, type]
        exact readMX_eq_error_iff.mpr (.inr ⟨room, refused⟩)
      | primary type =>
        rw [decode, type]
        exact readSOA_eq_error_iff.mpr (.inl refused)
      | mailbox type named =>
        rw [decode, type]
        exact readSOA_eq_error_iff.mpr (.inr ⟨_, _, named, .inl refused⟩)
    | options type refused =>
      rw [decode, type, refused]
      rfl

/-- Every name of the data is read at a position inside the data. -/
theorem ReadsNameAt.le (h : record.ReadsNameAt (record.Embeds message) position) :
    position ≤ record.rdlength := by
  cases h with
  | target | primary => exact Nat.zero_le _
  | exchange type room => exact room
  | mailbox type named =>
    have hinside := named.le.2
    omega

end Decoding

/-- Names keep the cursor and the message in step. Take any record and any message, also a record
whose data is not what the message holds at its offset. A name that is read in the message takes
at least one octet and no more than the cursor over the data has left. So passing over it never
fails, the cursor moves on by exactly its octets, and a name at the cursor is refused only as it
is in the message.

In a message that was read, no name inside the data of a record is refused for a shortage. Decoding
is refused for one exactly when fixed octets are missing: four of an address, sixteen of a long
one, two of a preference or twenty of the numbers of a zone, and what is reported as remaining is
what the data has left there. -/
theorem names_keep_step :
    (∀ (record : Record String) (message : Message) (position : Nat) (name : String) (used : Nat),
      message.nameAt (record.rdataOffset + position) (record.rdataOffset + record.rdlength) =
          .ok (name, used) →
        1 ≤ used ∧ used ≤ (Cursor.within record.rdata position).remaining ∧
          (Cursor.within record.rdata position).skip used =
            .ok (.within record.rdata (position + used)) ∧
          record.embeddedName message (.within record.rdata position) =
            .ok (name, .within record.rdata (position + used))) ∧
    (∀ (record : Record String) (message : Message) (position : Nat) (fault : Fault),
      record.embeddedName message (.within record.rdata position) = .error fault ↔
        message.nameAt (record.rdataOffset + position) (record.rdataOffset + record.rdlength) =
          .error fault) ∧
    ∀ (raw : Octets) (message : Message) (part : Section) (record : Record String),
      Message.parse raw = .ok message → record ∈ message.records part →
        (∀ position ≤ record.rdlength, ∀ needed remaining,
          message.nameAt (record.rdataOffset + position) (record.rdataOffset + record.rdlength) ≠
            .error (.truncated needed remaining)) ∧
        ∀ needed remaining, record.decode message = .error (.truncated needed remaining) ↔
          record.Lacks (record.Embeds message) needed remaining := by
  refine ⟨fun record message position name used h => ?_,
    fun record message position fault => embeddedName_eq_error_iff, ?_⟩
  · have hembeds : record.Embeds message name position used := h
    obtain ⟨hpos, hinside⟩ := hembeds.le
    rw [Cursor.remaining_within, embeddedName_within, h]
    have hlength : record.rdlength = record.rdata.length := rfl
    exact ⟨hpos, by omega, Cursor.skip_within record.rdata hpos hinside, rfl⟩
  · intro raw message part record h hrecord
    obtain ⟨-, hinside⟩ := Message.rdata_of_parse h hrecord
    obtain ⟨rfl, -⟩ := Message.parse_eq_ok_iff_writtenAt.mp h
    have hname (position : Nat) (hposition : position ≤ record.rdlength) (needed remaining : Nat) :
        message.nameAt (record.rdataOffset + position) (record.rdataOffset + record.rdlength) ≠
          .error (.truncated needed remaining) :=
      fun hrefused => Message.refusesMessage_of_nameAt (by omega) hrefused
    refine ⟨hname, fun needed remaining => ?_⟩
    rw [decode_eq_error_iff]
    refine ⟨fun hfails => ?_, .short⟩
    cases hfails with
    | short lacks => exact lacks
    | name reads refused => exact absurd refused (hname _ reads.le _ _)
    | options type refused => exact absurd rfl (Edns.ne_truncated_of_ofRecord refused _ _)

/-- A response with the start of a zone whose numbers lack three octets. Its primary name is the
owner's, and its mailbox is the root. -/
def zoneWire : Octets :=
  [0, 1, 0x80, 0, 0, 0, 0, 1, 0, 0, 0, 0,
    1, 97, 0, 0, 6, 0, 1, 0, 0, 0, 0, 0, 20,
    0xc0, 12, 0, 0, 0, 0, 1, 0, 0, 0, 2, 0, 0, 0, 3, 0, 0, 0, 4, 0]

/-- The record in `zoneWire`. -/
def zoneRecord : Record String :=
  ⟨"a", .soa, .internet, 0, [0xc0, 12, 0, 0, 0, 0, 1, 0, 0, 0, 2, 0, 0, 0, 3, 0, 0, 0, 4, 0], 25⟩

/-- The message in `zoneWire`. -/
def zoneMessage : Message where
  header := ⟨1, .query, .noError, ⟨true, false, false, false, false, false, false, false⟩⟩
  body := ⟨[], [zoneRecord], [], []⟩
  raw := zoneWire

/-- Three octets that the message does not hold, said to lie where the owner name `a` does. -/
def strayRecord : Record String := ⟨"a", .ns, .internet, 0, [255, 255, 255], 12⟩

/-- Seventeen octets remain behind the two names of the zone. The stray record is read as the name
in the message, and its cursor passes over as many octets of its own. Said to lie behind the
message, which no record of a message does, it has no window for its name. -/
theorem decode_zoneRecord :
    Message.parse zoneWire = .ok zoneMessage ∧ zoneRecord ∈ zoneMessage.records .answer ∧
      zoneRecord.decode zoneMessage = .error (.truncated 20 17) ∧
      strayRecord.embeddedName zoneMessage (.within strayRecord.rdata 0) =
        .ok ("a", .within strayRecord.rdata 3) ∧
      ({ strayRecord with rdataOffset := 100 } : Record String).decode zoneMessage =
        .error (.truncated 1 0) := by
  have hparse : Message.parse zoneWire = .ok zoneMessage := by decide +kernel
  have hmem : zoneRecord ∈ zoneMessage.records .answer := List.mem_singleton.mpr rfl
  have hprimary : zoneRecord.Embeds zoneMessage "a" 0 2 := by
    unfold Embeds
    decide +kernel
  have hmailbox : zoneRecord.Embeds zoneMessage "." 2 1 := by
    unfold Embeds
    decide +kernel
  have hstray : zoneMessage.nameAt (12 + 0) (12 + 3) = .ok ("a", 3) := by decide +kernel
  obtain ⟨hstep, -, hshort⟩ := names_keep_step
  have hlacks : zoneRecord.Lacks (zoneRecord.Embeds zoneMessage) 20 17 :=
    .soa rfl hprimary hmailbox rfl (by decide)
  obtain ⟨-, -, -, hname⟩ := hstep strayRecord zoneMessage 0 "a" 3 hstray
  exact ⟨hparse, hmem, ((hshort zoneWire _ _ _ hparse hmem).2 _ _).mpr hlacks, hname,
    by decide +kernel⟩

end Record

end DnsTrace
