import DnsTrace.Proofs.Message.Appending
import DnsTrace.Proofs.RecordData.Parsed

/-!
# Records that are shown alike everywhere

A name inside record data is read from the whole message, at an absolute offset. Still a record
whose names have no pointer is shown by its data alone. The window in which a name is read ends
with the data, so a walk without pointers sees no octet outside, also when it fails: a label that
claims to go on behind the data is not completed by what stands there.

`Octets.SpellsName` says of the data alone which name is written out where. Where no pointer is
met, it agrees with what is read in the message, so the data says the same in every message that
holds it.
-/

namespace DnsTrace

namespace Octets

variable {octets : Octets} {position : Nat}

/-- The walk from a position goes from length octet to length octet and meets no pointer before
it comes to a zero octet, to a reserved octet or to the end of the octets. -/
inductive PointerFree (octets : Octets) : Nat → Prop
  | ends {position : Nat} (ends : octets.length ≤ position) : PointerFree octets position
  | closed {position : Nat} (stands : octets[position]? = some 0) : PointerFree octets position
  | reserved {position : Nat} {octet : UInt8} (stands : octets[position]? = some octet)
      (bits : 64 ≤ octet.toNat ∧ octet.toNat < 192) : PointerFree octets position
  | label {position : Nat} {octet : UInt8} (stands : octets[position]? = some octet)
      (bits : 0 < octet.toNat ∧ octet.toNat < 64)
      (rest : PointerFree octets (position + 1 + octet.toNat)) : PointerFree octets position

/-- The name is written out at a position, as labels and a closing zero octet, in so many octets,
and is not too long to be read. -/
def SpellsName (octets : Octets) (text : String) (position used : Nat) : Prop :=
  ∃ name : DomainName, (⟨name, none⟩ : Run).LiesIn (octets.drop position) ∧
    name.wireLength ≤ DomainName.maxWireLength ∧ text = name.text ∧
      used = (⟨name, none⟩ : Run).size

/-- The octet at a position of such a walk opens no pointer, and behind a label that it opens the
walk goes on. -/
theorem PointerFree.step (h : octets.PointerFree position) {octet : UInt8}
    (hoctet : octets[position]? = some octet) :
    octet.toNat < 192 ∧ (0 < octet.toNat → octet.toNat < 64 →
      octets.PointerFree (position + 1 + octet.toNat)) := by
  cases h with
  | ends ends =>
    rw [List.getElem?_eq_none ends] at hoctet
    cases hoctet
  | closed stands =>
    obtain rfl := Option.some.inj (stands.symm.trans hoctet)
    exact ⟨by decide, fun hpos => absurd hpos (by decide)⟩
  | reserved stands bits =>
    obtain rfl := Option.some.inj (stands.symm.trans hoctet)
    exact ⟨bits.2, fun _ hlt => absurd hlt (by omega)⟩
  | label stands bits rest =>
    obtain rfl := Option.some.inj (stands.symm.trans hoctet)
    exact ⟨by omega, fun _ _ => rest⟩

/-- A run that stands where no pointer is met is closed by a zero octet. -/
theorem PointerFree.target_eq_none (h : octets.PointerFree position) {run : Run}
    (hrun : run.LiesIn (octets.drop position)) : run.target = none := by
  obtain ⟨labels, target⟩ := run
  obtain ⟨hwell, hwire⟩ := hrun
  induction labels generalizing position with
  | nil =>
    cases target with
    | none => rfl
    | some target =>
      have hbound : target < 16384 := hwell.target_lt target rfl
      obtain ⟨hfirst, -⟩ := h.step (getElem?_of_prefix_drop hwire)
      rw [UInt8.toNat_ofNat_of_lt' (by simp only [UInt8.size]; omega)] at hfirst
      omega
  | cons label labels ih =>
    change (Run.cons label ⟨labels, target⟩).WellFormed at hwell
    change (Run.cons label ⟨labels, target⟩).wire <+: octets.drop position at hwire
    obtain ⟨hlabel, hrest⟩ := Run.wellFormed_cons.mp hwell
    rw [Run.wire_cons, append_prefix_drop_iff] at hwire
    obtain ⟨hfront, hback⟩ := hwire
    have hlength : (UInt8.ofNat label.length).toNat = label.length :=
      UInt8.toNat_ofNat_of_lt' (by simp only [UInt8.size]; omega)
    have hbehind := (h.step (getElem?_of_prefix_drop hfront)).2 (by omega) (by omega)
    rw [hlength] at hbehind
    rw [Run.labelWire, List.length_cons, Nat.add_comm label.length, ← Nat.add_assoc] at hback
    exact ih hbehind hrest hback

/-- What lies between two offsets is the end of the slice from the first of them on. -/
theorem between_add (octets : Octets) (offset position n : Nat) :
    octets.between (offset + position) (offset + n) = (octets.slice offset n).drop position := by
  rw [between, slice, ← List.drop_drop, List.drop_take, Nat.add_sub_cancel_left]

end Octets

/-- A run that is closed by a zero octet is resolved to its own labels, unless they are too many. -/
theorem Run.resolve_closed_iff {raw : Octets} {labels name : DomainName} :
    (⟨labels, none⟩ : Run).resolve raw = .ok name ↔
      name = labels ∧ labels.wireLength ≤ DomainName.maxWireLength := by
  rw [resolve_eq_ok_iff]
  constructor
  · intro h
    obtain ⟨pointers, hwalk, -, hfits⟩ := h
    cases hwalk
    exact ⟨rfl, hfits⟩
  · intro h
    obtain ⟨rfl, hfits⟩ := h
    exact ⟨[], .ends name, Nat.zero_le _, hfits⟩

namespace Record

/-- The decoder of the record's type reads a name at this position of the data. The mailbox of a
zone is read behind the primary name, if that one was read. -/
inductive ReadsNameAt (record : Record String) (Named : String → Nat → Nat → Prop) : Nat → Prop
  | target (type : record.rrType = .ns ∨ record.rrType = .ptr ∨ record.rrType = .cname) :
      ReadsNameAt record Named 0
  | exchange (type : record.rrType = .mx) (room : 2 ≤ record.rdlength) :
      ReadsNameAt record Named 2
  | primary (type : record.rrType = .soa) : ReadsNameAt record Named 0
  | mailbox {name : String} {used : Nat} (type : record.rrType = .soa)
      (named : Named name 0 used) : ReadsNameAt record Named used

variable {record other : Record String} {message : Message} {octets : Octets} {start size : Nat}
  {Named Named' : String → Nat → Nat → Prop} {data : RecordData}

/-- A name is read at the same positions when the first name is the same. -/
theorem ReadsNameAt.imp {position : Nat} (h : record.ReadsNameAt Named position)
    (hprimary : record.rrType = .soa → ∀ name used, Named name 0 used → Named' name 0 used) :
    record.ReadsNameAt Named' position := by
  cases h with
  | target type => exact .target type
  | exchange type room => exact .exchange type room
  | primary type => exact .primary type
  | mailbox type named => exact .mailbox type (hprimary type _ _ named)

/-- Where names are read is told by the type and the data. -/
theorem ReadsNameAt.of_fields_eq {position : Nat} (h : record.ReadsNameAt Named position)
    (htype : other.rrType = record.rrType) (hrdata : other.rdata = record.rdata) :
    other.ReadsNameAt Named position := by
  cases h with
  | target type =>
    rw [← htype] at type
    exact .target type
  | exchange type room => exact .exchange (htype.trans type) (by rwa [rdlength, hrdata])
  | primary type => exact .primary (htype.trans type)
  | mailbox type named => exact .mailbox (htype.trans type) named

/-- What is said depends on the names at the positions at which names are read. -/
theorem Says.imp_readsNameAt (h : record.Says octets start Named data size)
    (hnamed : ∀ position, record.ReadsNameAt Named position → ∀ name used,
      Named name position used → Named' name position used) :
    record.Says octets start Named' data size := by
  cases h with
  | a type room spelled => exact .a type room spelled
  | aaaa type room spelled => exact .aaaa type room spelled
  | name type named => exact .name type (hnamed 0 (.target type) _ _ named)
  | mx type room spelled named =>
    exact .mx type room spelled (hnamed 2 (.exchange type room) _ _ named)
  | soa type primary mailbox room spelled =>
    exact .soa type (hnamed 0 (.primary type) _ _ primary)
      (hnamed _ (.mailbox type primary) _ _ mailbox) room spelled
  | opt type read => exact .opt type read

/-- Records with the same type, class, ttl and data say the same of the same names. -/
theorem Says.of_fields_eq (h : record.Says octets start Named data size)
    (htype : other.rrType = record.rrType) (hclass : other.rrClass = record.rrClass)
    (httl : other.ttl = record.ttl) (hrdata : other.rdata = record.rdata) :
    other.Says octets start Named data size := by
  cases h with
  | a type room spelled =>
    exact .a (htype.trans type) (by rwa [rdlength, hrdata]) spelled
  | aaaa type room spelled =>
    exact .aaaa (htype.trans type) (by rwa [rdlength, hrdata]) spelled
  | name type named =>
    rw [← htype] at type
    exact .name type named
  | mx type room spelled named =>
    exact .mx (htype.trans type) (by rwa [rdlength, hrdata]) spelled named
  | soa type primary mailbox room spelled =>
    exact .soa (htype.trans type) primary mailbox (by rwa [rdlength, hrdata]) spelled
  | opt type read =>
    rw [Edns.ofRecord, rdlength, ← hclass, ← httl, ← hrdata] at read
    rw [rdlength, ← hrdata]
    exact .opt (htype.trans type) read

/-- Where no pointer is met, a name is read in the message exactly when the data spells it. -/
theorem embeds_iff_spellsName
    (hrdata : record.rdata = message.raw.slice record.rdataOffset record.rdlength)
    (hinside : record.rdataOffset + record.rdlength ≤ message.raw.length) {name : String}
    {position used : Nat} (hfree : record.rdata.PointerFree position) :
    record.Embeds message name position used ↔ record.rdata.SpellsName name position used := by
  have hwindow : message.raw.between (record.rdataOffset + position)
      (min (record.rdataOffset + record.rdlength) message.raw.length) =
        record.rdata.drop position := by
    rw [Nat.min_eq_left hinside, Octets.between_add, ← hrdata]
  rw [Embeds, Message.nameAt_eq_ok_iff, hwindow]
  constructor
  · intro h
    obtain ⟨⟨labels, target⟩, resolved, hstands, hresolve, htext, hused⟩ := h
    obtain rfl : target = none := hfree.target_eq_none hstands
    obtain ⟨rfl, hfits⟩ := Run.resolve_closed_iff.mp hresolve
    exact ⟨resolved, hstands, hfits, htext, hused⟩
  · intro h
    obtain ⟨labels, hstands, hfits, htext, hused⟩ := h
    exact ⟨_, labels, hstands, Run.resolve_closed_iff.mpr ⟨rfl, hfits⟩, htext, hused⟩

/-- Where its names have no pointer, the data says in the message what it says on its own. -/
theorem says_embeds_iff_spellsName
    (hrdata : record.rdata = message.raw.slice record.rdataOffset record.rdlength)
    (hinside : record.rdataOffset + record.rdlength ≤ message.raw.length)
    (hfree : ∀ position, record.ReadsNameAt record.rdata.SpellsName position →
      record.rdata.PointerFree position) :
    record.Says record.rdata 0 (record.Embeds message) data size ↔
      record.Says record.rdata 0 record.rdata.SpellsName data size := by
  constructor
  · intro h
    apply h.imp_readsNameAt
    intro position hposition name used hname
    have hspelled := hposition.imp fun type primary first hprimary =>
      (embeds_iff_spellsName hrdata hinside (hfree 0 (.primary type))).mp hprimary
    exact (embeds_iff_spellsName hrdata hinside (hfree position hspelled)).mp hname
  · intro h
    apply h.imp_readsNameAt
    intro position hposition name used hname
    exact (embeds_iff_spellsName hrdata hinside (hfree position hposition)).mpr hname

/-- The names that are read have no pointer, whether they are read in the message or spelled by
the data: the first name is the same either way, and it tells where the second is read. -/
theorem pointerFree_of_spellsName
    (hrdata : record.rdata = message.raw.slice record.rdataOffset record.rdlength)
    (hinside : record.rdataOffset + record.rdlength ≤ message.raw.length)
    (hfree : ∀ position, record.ReadsNameAt (record.Embeds message) position →
      record.rdata.PointerFree position) {position : Nat}
    (h : record.ReadsNameAt record.rdata.SpellsName position) :
    record.rdata.PointerFree position := by
  apply hfree
  apply h.imp
  intro type primary first hprimary
  exact (embeds_iff_spellsName hrdata hinside (hfree 0 (.primary type))).mpr hprimary

/-- Records are isolated. Take two records of messages that were read, in any sections and at any
offsets, with the same type, class, ttl and data. If the names that are read from this data have
no pointer, both records are shown with the same data, decoded or not, and under the same owner
name both have the same trace. So nothing outside the data has a part in it. -/
theorem data_eq_of_pointerFree (raw raw' : Octets) (message message' : Message)
    (part part' : Section) (record record' : Record String)
    (h : Message.parse raw = .ok message) (h' : Message.parse raw' = .ok message')
    (hrecord : record ∈ message.records part) (hrecord' : record' ∈ message'.records part')
    (htype : record'.rrType = record.rrType) (hclass : record'.rrClass = record.rrClass)
    (httl : record'.ttl = record.ttl) (hrdata : record'.rdata = record.rdata)
    (hfree : ∀ position, record.ReadsNameAt (record.Embeds message) position →
      record.rdata.PointerFree position) :
    record'.data message' = record.data message ∧
      (record'.name = record.name → record'.trace message' = record.trace message) := by
  obtain ⟨hslice, hinside⟩ := Message.rdata_of_parse h hrecord
  obtain ⟨hslice', hinside'⟩ := Message.rdata_of_parse h' hrecord'
  obtain ⟨rfl, -⟩ := Message.parse_eq_ok_iff_writtenAt.mp h
  obtain ⟨rfl, -⟩ := Message.parse_eq_ok_iff_writtenAt.mp h'
  have hspelled (position : Nat) (hposition : record.ReadsNameAt record.rdata.SpellsName position) :
      record.rdata.PointerFree position :=
    pointerFree_of_spellsName hslice hinside hfree hposition
  have hspelled' (position : Nat)
      (hposition : record'.ReadsNameAt record'.rdata.SpellsName position) :
      record'.rdata.PointerFree position := by
    rw [hrdata] at hposition ⊢
    exact hspelled position (hposition.of_fields_eq htype.symm hrdata.symm)
  have hsame (data : RecordData) (size : Nat) :
      record'.Says record'.rdata 0 (record'.Embeds message') data size ↔
        record.Says record.rdata 0 (record.Embeds message) data size := by
    rw [says_embeds_iff_spellsName hslice' hinside' hspelled',
      says_embeds_iff_spellsName hslice hinside hspelled, hrdata]
    exact ⟨fun hsaid => hsaid.of_fields_eq htype.symm hclass.symm httl.symm hrdata.symm,
      fun hsaid => hsaid.of_fields_eq htype hclass httl hrdata⟩
  have hlength : record'.rdlength = record.rdlength := congrArg List.length hrdata
  have hdata : record'.data message' = record.data message := by
    rw [data_eq_iff, hlength]
    simp only [hsame]
    exact data_eq_iff.mp rfl
  refine ⟨hdata, fun hname => ?_⟩
  rw [trace, trace, hdata, text, text, hname, hclass, htype, httl]

/-- A response whose name server is a label that claims one octet more than the data has. The two
octets behind the message would complete it. -/
def completedWire : Octets :=
  [0, 1, 0x80, 0, 0, 0, 0, 1, 0, 0, 0, 0,
    1, 97, 0, 0, 2, 0, 1, 0, 0, 0, 0, 0, 3, 3, 110, 115, 49, 0]

/-- The message in `completedWire`. -/
def completedMessage : Message where
  header := ⟨1, .query, .noError, ⟨true, false, false, false, false, false, false, false⟩⟩
  body := ⟨[], [⟨"a", .ns, .internet, 0, [3, 110, 115], 25⟩], [], []⟩
  raw := completedWire

/-- A query with the same data in its additional section, and nothing behind it. -/
def bareWire : Octets :=
  [0, 2, 0, 0, 0, 1, 0, 0, 0, 0, 0, 1, 1, 97, 0, 0, 1, 0, 1,
    0xc0, 12, 0, 2, 0, 1, 0, 0, 0, 0, 0, 3, 3, 110, 115]

/-- The message in `bareWire`. -/
def bareMessage : Message where
  header := ⟨2, .query, .noError, ⟨false, false, false, false, false, false, false, false⟩⟩
  body := ⟨[⟨"a", .a, .internet⟩], [], [], [⟨"a", .ns, .internet, 0, [3, 110, 115], 31⟩]⟩
  raw := bareWire

/-- The label is not completed by what stands behind the data: in both messages only the length of
the data is shown. -/
theorem data_completedMessage :
    Message.parse completedWire = .ok completedMessage ∧ Message.parse bareWire = .ok bareMessage ∧
      ∃ record ∈ completedMessage.records .answer, ∃ record' ∈ bareMessage.records .additional,
        record'.rdata = record.rdata ∧ record.rdata.PointerFree 0 ∧
        record.data completedMessage = .undecoded 3 ∧ record'.data bareMessage = .undecoded 3 ∧
        record'.trace bareMessage = record.trace completedMessage := by
  have hparse : Message.parse completedWire = .ok completedMessage := by decide +kernel
  have hparse' : Message.parse bareWire = .ok bareMessage := by decide +kernel
  let record : Record String := ⟨"a", .ns, .internet, 0, [3, 110, 115], 25⟩
  let record' : Record String := ⟨"a", .ns, .internet, 0, [3, 110, 115], 31⟩
  have hmem : record ∈ completedMessage.records .answer := List.mem_singleton.mpr rfl
  have hmem' : record' ∈ bareMessage.records .additional := List.mem_singleton.mpr rfl
  have hwalk : Octets.PointerFree [3, 110, 115] 0 := by
    apply Octets.PointerFree.label rfl (by decide)
    exact .ends (by decide)
  have hfree (position : Nat)
      (hposition : record.ReadsNameAt (record.Embeds completedMessage) position) :
      record.rdata.PointerFree position := by
    cases hposition with
    | target type => exact hwalk
    | exchange type | primary type | mailbox type => cases type
  obtain ⟨hdata, htrace⟩ := data_eq_of_pointerFree completedWire bareWire completedMessage
    bareMessage .answer .additional record record' hparse hparse' hmem hmem' rfl rfl rfl rfl hfree
  have hlength : record.data completedMessage = .undecoded 3 := by decide +kernel
  exact ⟨hparse, hparse', record, hmem, record', hmem', rfl, hwalk, hlength,
    hdata.trans hlength, htrace rfl⟩

end Record

end DnsTrace
