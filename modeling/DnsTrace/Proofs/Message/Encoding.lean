import DnsTrace.Proofs.Message.Tiling

/-!
# Encodings of a message

What a message says does not fix its octets: a name may stop after any of its labels and be
continued by a pointer to an earlier place where the remaining labels are spelled already.
`Spells` is this rule, and `MessageContent.EncodedIn` lays a whole message out by it.

Every encoding is read, and read as what was encoded. Each pointer of a legal spelling leads to
a label, so a name that fits in 255 octets has no more pointers than labels and at most 127 of
them; spellings are finite, so no pointer comes back. None of the limits of a walk refuses a
legal name.
-/

namespace DnsTrace

/-- From `start` on, `used` octets spell a name: labels in a row, then a zero octet, or a pointer
to an earlier offset where a label stands and, behind it, the other labels are spelled. -/
inductive Spells (raw : Octets) : DomainName → Nat → Nat → Prop
  | root {start : Nat} (stands : Run.closing none <+: raw.drop start) : Spells raw [] start 1
  | label {label : Label} {labels : DomainName} {start used : Nat}
      (stands : Run.labelWire label <+: raw.drop start)
      (others : Spells raw labels (start + (label.length + 1)) used) :
      Spells raw (label :: labels) start (label.length + 1 + used)
  | pointer {target : Nat} {label : Label} {labels : DomainName} {start used : Nat}
      (stands : Run.closing (some target) <+: raw.drop start)
      (earlier : target < start) (low : target < 16384)
      (inline : Run.labelWire label <+: raw.drop target)
      (others : Spells raw labels (target + (label.length + 1)) used) :
      Spells raw (label :: labels) start 2

/-- A spelled name is the end of a walk that follows no more pointers than the name has
labels, because every pointer leads to a label. -/
theorem Spells.exists_unfolds {raw : Octets} {name : DomainName} {start used : Nat}
    (h : Spells raw name start used)
    (hname : ∀ label ∈ name, 1 ≤ label.length ∧ label.length ≤ 63) :
    ∃ (run : Run) (pointers : List Nat), run.StandsAt raw start used ∧
      Walk.Unfolds raw run pointers name ∧ pointers.length ≤ name.length := by
  induction h with
  | root stands =>
    have hwell : Run.WellFormed ⟨[], none⟩ := ⟨by simp, by simp⟩
    exact ⟨⟨[], none⟩, [], ⟨⟨hwell, stands⟩, rfl⟩, .ends [], Nat.le_refl 0⟩
  | @label label labels start used stands others ih =>
    obtain ⟨hlabel, hlabels⟩ := List.forall_mem_cons.mp hname
    obtain ⟨run, pointers, hrun, hunfolds, hcount⟩ := ih hlabels
    exact ⟨run.cons label, pointers, hrun.cons stands hlabel, hunfolds.cons label,
      Nat.le_succ_of_le hcount⟩
  | @pointer target label labels start used stands earlier low inline others ih =>
    obtain ⟨hlabel, hlabels⟩ := List.forall_mem_cons.mp hname
    obtain ⟨run, pointers, hrun, hunfolds, hcount⟩ := ih hlabels
    have hwell : Run.WellFormed ⟨[], some target⟩ := by
      refine ⟨by simp, ?_⟩
      intro target' htarget
      obtain rfl := Option.some.inj htarget
      exact low
    have hinside : target < raw.length := by
      have hroom := inline.length_le
      rw [Run.labelWire, List.length_cons, List.length_drop] at hroom
      omega
    have hnext := (hrun.cons inline hlabel).1
    exact ⟨⟨[], some target⟩, target :: pointers, ⟨⟨hwell, stands⟩, rfl⟩,
      .follows [] hinside hnext (hunfolds.cons label), Nat.succ_le_succ hcount⟩

/-- Labels in a row with a zero octet behind them spell a name without a pointer. -/
theorem Spells.of_wire {raw : Octets} {labels : DomainName} {start : Nat}
    (h : (Run.mk labels none).wire <+: raw.drop start) :
    Spells raw labels start (Run.mk labels none).wire.length := by
  induction labels generalizing start with
  | nil => exact .root h
  | cons label labels ih =>
    change ((Run.mk labels none).cons label).wire <+: raw.drop start at h
    change Spells raw (label :: labels) start ((Run.mk labels none).cons label).wire.length
    rw [Run.wire_cons] at h ⊢
    obtain ⟨hlabel, hlabels⟩ := Octets.append_prefix_drop_iff.mp h
    rw [List.length_append]
    exact .label hlabel (ih hlabels)

/-- A name that RFC 1035 allows: its labels take 1 to 63 octets each and 255 octets in all. -/
structure LegalName where
  labels : DomainName
  label_length : ∀ label ∈ labels, 1 ≤ label.length ∧ label.length ≤ 63
  fits : labels.wireLength ≤ DomainName.maxWireLength

/-- A legal name is read where it is spelled. -/
theorem LegalName.namedAt {message : Message} (name : LegalName) {start used : Nat}
    (h : Spells message.raw name.labels start used) :
    message.NamedAt name.labels.text start used := by
  obtain ⟨run, pointers, hstands, hunfolds, hcount⟩ := h.exists_unfolds name.label_length
  have hhops : pointers.length ≤ Walk.maxHops := by
    have hlabels := DomainName.two_mul_length_le name.label_length
    have hfits := name.fits
    simp only [DomainName.wireLength, DomainName.maxWireLength] at hfits
    simp only [Walk.maxHops]
    omega
  have hresolve : run.resolve message.raw = .ok name.labels :=
    Run.resolve_eq_ok_iff.mpr ⟨pointers, hunfolds, hhops, name.fits⟩
  refine (message.namedAt_iff _ _ _).mpr ⟨run, hstands, ?_⟩
  rw [hresolve]
  rfl

/-- From `start` up to `stop` stand a name, in any legal spelling, and the octets behind it. -/
def LegalName.Heads (raw : Octets) (name : LegalName) (fields : Octets) (start stop : Nat) :
    Prop :=
  ∃ used, Spells raw name.labels start used ∧ fields <+: raw.drop (start + used) ∧
    stop = start + used + fields.length

/-- A name in full is a legal spelling. -/
theorem LegalName.heads_of_wire {raw : Octets} {name : LegalName} {fields : Octets} {start : Nat}
    (h : (Run.mk name.labels none).wire ++ fields <+: raw.drop start) :
    name.Heads raw fields start
      (start + ((Run.mk name.labels none).wire ++ fields).length) := by
  obtain ⟨hname, hfields⟩ := Octets.append_prefix_drop_iff.mp h
  exact ⟨_, .of_wire hname, hfields, by rw [List.length_append, Nat.add_assoc]⟩

/-- What a question says: a legal name and the codes of its type and class. -/
structure QuestionContent where
  name : LegalName
  type : UInt16
  cls : UInt16

namespace QuestionContent

/-- The octets behind the name. -/
def fields (content : QuestionContent) : Octets :=
  .ofNumber 2 content.type.toNat ++ .ofNumber 2 content.cls.toNat

/-- The question is laid out from `start` up to `stop`. -/
def EncodedAt (raw : Octets) (content : QuestionContent) (start stop : Nat) : Prop :=
  content.name.Heads raw content.fields start stop

/-- The question with its name in full. -/
def wire (content : QuestionContent) : Octets :=
  (Run.mk content.name.labels none).wire ++ content.fields

/-- The question that is read. Its type and class are read from the codes and still have them. -/
def ReadAs (content : QuestionContent) (question : Question String) : Prop :=
  content.name.labels.ShownAs question.name ∧
    question.rrType = .ofCode content.type ∧
    RRType.codes.HasCode question.rrType content.type.toNat ∧
    question.rrClass = .ofCode content.cls ∧
    RRClass.codes.HasCode question.rrClass content.cls.toNat

/-- A question is written where it is laid out. -/
theorem exists_writtenAt {message : Message} {content : QuestionContent} {start stop : Nat}
    (h : content.EncodedAt message.raw start stop) :
    ∃ question, Question.WrittenAt message.raw message.NamedAt question start stop ∧
      content.ReadAs question := by
  obtain ⟨used, hname, hfields, rfl⟩ := h
  have hroom := hfields.length_le
  simp only [fields, Octets.append_prefix_drop_iff, Octets.length_ofNumber, List.length_append,
    List.length_drop] at hfields hroom ⊢
  obtain ⟨htype, hcls⟩ := hfields
  let question : Question String :=
    ⟨content.name.labels.text, .ofCode content.type, .ofCode content.cls⟩
  have hrrType : RRType.codes.HasCode question.rrType content.type.toNat :=
    RRType.hasCode_ofCode content.type
  have hrrClass : RRClass.codes.HasCode question.rrClass content.cls.toNat :=
    RRClass.hasCode_ofCode content.cls
  refine ⟨question, ⟨used, content.name.namedAt hname, ?_, ?_, rfl, by omega⟩,
    DomainName.shownAs_iff.mpr rfl, rfl, hrrType, rfl, hrrClass⟩
  · rwa [Octets.number_eq_of_prefix htype content.type.toNat_lt]
  · rwa [Octets.number_eq_of_prefix hcls content.cls.toNat_lt]

end QuestionContent

/-- What a record says: a legal owner name, the codes of its type and class, its time to live
and its data. -/
structure RecordContent where
  name : LegalName
  type : UInt16
  cls : UInt16
  ttl : UInt32
  rdata : Octets
  rdata_length : rdata.length ≤ 65535

namespace RecordContent

/-- The octets behind the name. -/
def fields (content : RecordContent) : Octets :=
  .ofNumber 2 content.type.toNat ++ .ofNumber 2 content.cls.toNat ++
    .ofNumber 4 content.ttl.toNat ++ .ofNumber 2 content.rdata.length ++ content.rdata

/-- The record is laid out from `start` up to `stop`. -/
def EncodedAt (raw : Octets) (content : RecordContent) (start stop : Nat) : Prop :=
  content.name.Heads raw content.fields start stop

/-- The record with its owner name in full. -/
def wire (content : RecordContent) : Octets :=
  (Run.mk content.name.labels none).wire ++ content.fields

/-- The record that is read, apart from where its data lies. -/
def ReadAs (content : RecordContent) (record : Record String) : Prop :=
  content.name.labels.ShownAs record.name ∧
    record.rrType = .ofCode content.type ∧
    RRType.codes.HasCode record.rrType content.type.toNat ∧
    record.rrClass = .ofCode content.cls ∧
    RRClass.codes.HasCode record.rrClass content.cls.toNat ∧
    record.ttl = content.ttl ∧ record.rdata = content.rdata

/-- A record is written where it is laid out. -/
theorem exists_writtenAt {message : Message} {content : RecordContent} {start stop : Nat}
    (h : content.EncodedAt message.raw start stop) :
    ∃ record, Record.WrittenAt message.raw message.NamedAt record start stop ∧
      content.ReadAs record := by
  obtain ⟨used, hname, hfields, rfl⟩ := h
  have hroom := hfields.length_le
  simp only [fields, Octets.append_prefix_drop_iff, Octets.length_ofNumber, List.length_append,
    List.length_drop] at hfields hroom ⊢
  obtain ⟨⟨⟨⟨htype, hcls⟩, httl⟩, hrdlength⟩, hrdata⟩ := hfields
  have hlength := content.rdata_length
  let record : Record String := ⟨content.name.labels.text, .ofCode content.type,
    .ofCode content.cls, content.ttl, content.rdata, start + used + 10⟩
  have hrrType : RRType.codes.HasCode record.rrType content.type.toNat :=
    RRType.hasCode_ofCode content.type
  have hrrClass : RRClass.codes.HasCode record.rrClass content.cls.toNat :=
    RRClass.hasCode_ofCode content.cls
  refine ⟨record, ⟨used, content.rdata.length, content.name.namedAt hname, ?_, ?_, ?_, ?_, rfl,
    ?_, ?_, by omega⟩, DomainName.shownAs_iff.mpr rfl, rfl, hrrType, rfl, hrrClass, rfl, rfl⟩
  · rwa [Octets.number_eq_of_prefix htype content.type.toNat_lt]
  · rwa [Octets.number_eq_of_prefix hcls content.cls.toNat_lt]
  · rw [Octets.number_eq_of_prefix httl content.ttl.toNat_lt, UInt32.ofNat_toNat]
  · rw [Octets.number_eq_of_prefix hrdlength (by omega)]
  · exact (Octets.slice_eq_of_prefix hrdata).symm
  · simp only [record]
    omega

end RecordContent

/-- What a message says: a header with codes of four bits, and sections whose sizes can be
written in sixteen bits. -/
structure MessageContent where
  id : UInt16
  opcode : Fin 16
  rcode : Fin 16
  flags : Flags
  questions : List QuestionContent
  answers : List RecordContent
  authority : List RecordContent
  additional : List RecordContent
  questions_length : questions.length ≤ 65535
  answers_length : answers.length ≤ 65535
  authority_length : authority.length ≤ 65535
  additional_length : additional.length ≤ 65535

namespace MessageContent

/-- The flags and codes, from the top bit down. -/
def word (content : MessageContent) : Nat :=
  content.flags.qr.toNat * 2 ^ 15 + content.opcode * 2 ^ 11 + content.flags.aa.toNat * 2 ^ 10 +
    content.flags.tc.toNat * 2 ^ 9 + content.flags.rd.toNat * 2 ^ 8 +
    content.flags.ra.toNat * 2 ^ 7 + content.flags.z.toNat * 2 ^ 6 +
    content.flags.ad.toNat * 2 ^ 5 + content.flags.cd.toNat * 2 ^ 4 + content.rcode

/-- The twelve octets in front of the sections. -/
def headerWire (content : MessageContent) : Octets :=
  .ofNumber 2 content.id.toNat ++ .ofNumber 2 content.word ++
    .ofNumber 2 content.questions.length ++ .ofNumber 2 content.answers.length ++
    .ofNumber 2 content.authority.length ++ .ofNumber 2 content.additional.length

/-- The octets lay out the content in wire order; whatever follows the last item is free. -/
def EncodedIn (content : MessageContent) (raw : Octets) : Prop :=
  content.headerWire <+: raw ∧
    ∃ answersAt authorityAt additionalAt stop,
      Tiled (QuestionContent.EncodedAt raw) 12 content.questions answersAt ∧
      Tiled (RecordContent.EncodedAt raw) answersAt content.answers authorityAt ∧
      Tiled (RecordContent.EncodedAt raw) authorityAt content.authority additionalAt ∧
      Tiled (RecordContent.EncodedAt raw) additionalAt content.additional stop

/-- The content with every name in full. -/
def wire (content : MessageContent) : Octets :=
  content.headerWire ++ (content.questions.flatMap QuestionContent.wire ++
    (content.answers.flatMap RecordContent.wire ++
      (content.authority.flatMap RecordContent.wire ++
        content.additional.flatMap RecordContent.wire)))

/-- Every content has encodings, since names may always be written in full. -/
theorem encodedIn_of_wire {content : MessageContent} {raw : Octets} (h : content.wire <+: raw) :
    content.EncodedIn raw := by
  have hheader : content.headerWire.length = 12 := by
    simp only [headerWire, List.length_append, Octets.length_ofNumber]
  have hrecords (items : List RecordContent) (start : Nat) :
      items.flatMap RecordContent.wire <+: raw.drop start →
        Tiled (RecordContent.EncodedAt raw) start items _ :=
    Tiled.of_flatMap (fun _ _ h => LegalName.heads_of_wire h) items start
  rw [← List.drop_zero (l := raw)] at h
  simp only [wire, Octets.append_prefix_drop_iff, hheader, Nat.zero_add] at h
  obtain ⟨hfront, h₁, h₂, h₃, h₄⟩ := h
  exact ⟨hfront, _, _, _, _,
    .of_flatMap (fun _ _ h => LegalName.heads_of_wire h) content.questions 12 h₁,
    hrecords _ _ h₂, hrecords _ _ h₃, hrecords _ _ h₄⟩

/-- The header that is read. -/
def header (content : MessageContent) : Header :=
  ⟨content.id, .ofCode (.ofNat content.opcode), .ofCode (.ofNat content.rcode), content.flags⟩

/-- How many items of each section the header announces. -/
def sizes (content : MessageContent) : SectionSizes :=
  ⟨.ofNat content.questions.length, .ofNat content.answers.length,
    .ofNat content.authority.length, .ofNat content.additional.length⟩

/-- The flags and codes fit in two octets, where each has its own bits. -/
theorem word_bits (content : MessageContent) :
    content.word < 256 ^ 2 ∧
      content.word / 2 ^ 11 % 2 ^ 4 = content.opcode ∧ content.word % 2 ^ 4 = content.rcode ∧
      content.word.testBit 15 = content.flags.qr ∧ content.word.testBit 10 = content.flags.aa ∧
      content.word.testBit 9 = content.flags.tc ∧ content.word.testBit 8 = content.flags.rd ∧
      content.word.testBit 7 = content.flags.ra ∧ content.word.testBit 6 = content.flags.z ∧
      content.word.testBit 5 = content.flags.ad ∧ content.word.testBit 4 = content.flags.cd := by
  have hopcode := content.opcode.isLt
  have hrcode := content.rcode.isLt
  have hbit (bit : Bool) : bit.toNat ≤ 1 := bit.toNat_le
  have hqr := hbit content.flags.qr
  have haa := hbit content.flags.aa
  have htc := hbit content.flags.tc
  have hrd := hbit content.flags.rd
  have hra := hbit content.flags.ra
  have hz := hbit content.flags.z
  have had := hbit content.flags.ad
  have hcd := hbit content.flags.cd
  have htest {word i : Nat} {bit : Bool} (h : word / 2 ^ i % 2 = bit.toNat) :
      word.testBit i = bit := by
    rw [Nat.testBit_eq_decide_div_mod_eq, h]
    cases bit <;> rfl
  rw [word]
  refine ⟨by omega, by omega, by omega, htest ?_, htest ?_, htest ?_, htest ?_, htest ?_,
    htest ?_, htest ?_, htest ?_⟩ <;> omega

/-- The header is that of the word of flags and codes. -/
theorem header_eq_ofWord (content : MessageContent) :
    content.header = .ofWord content.id content.word := by
  obtain ⟨-, hopcode, hrcode, hqr, haa, htc, hrd, hra, hz, had, hcd⟩ := content.word_bits
  rw [header, Header.ofWord, hopcode, hrcode, hqr, haa, htc, hrd, hra, hz, had, hcd]

/-- The header is written where its twelve octets stand. -/
theorem header_writtenAt {content : MessageContent} {raw : Octets}
    (h : content.headerWire <+: raw) :
    Header.WrittenAt raw content.header content.sizes 0 12 := by
  have hroom := h.length_le
  have hquestions := content.questions_length
  have hanswers := content.answers_length
  have hauthority := content.authority_length
  have hadditional := content.additional_length
  rw [← List.drop_zero (l := raw)] at h
  simp only [headerWire, Octets.append_prefix_drop_iff, Octets.length_ofNumber,
    List.length_append] at h hroom
  obtain ⟨⟨⟨⟨⟨hid, hword⟩, h₁⟩, h₂⟩, h₃⟩, h₄⟩ := h
  refine ⟨?_, ?_, ?_, ?_, ?_, rfl, hroom⟩
  · rw [Octets.number_eq_of_prefix hid content.id.toNat_lt,
      Octets.number_eq_of_prefix hword content.word_bits.1, UInt16.ofNat_toNat]
    exact content.header_eq_ofWord
  · exact congrArg UInt16.ofNat (Octets.number_eq_of_prefix h₁ (by omega)).symm
  · exact congrArg UInt16.ofNat (Octets.number_eq_of_prefix h₂ (by omega)).symm
  · exact congrArg UInt16.ofNat (Octets.number_eq_of_prefix h₃ (by omega)).symm
  · exact congrArg UInt16.ofNat (Octets.number_eq_of_prefix h₄ (by omega)).symm

/-- The sections are written where they are laid out. -/
theorem exists_body_writtenAt {content : MessageContent} (message : Message)
    (h : content.EncodedIn message.raw) :
    ∃ (body : Body String) (stop : Nat),
      body.WrittenAt message.raw message.NamedAt 12 stop ∧ body.HasSizes content.sizes ∧
      List.Forall₂ QuestionContent.ReadAs content.questions body.questions ∧
      List.Forall₂ RecordContent.ReadAs content.answers body.answers ∧
      List.Forall₂ RecordContent.ReadAs content.authority body.authority ∧
      List.Forall₂ RecordContent.ReadAs content.additional body.additional := by
  obtain ⟨-, _, _, _, stop, tiled₁, tiled₂, tiled₃, tiled₄⟩ := h
  have hrecord (item : RecordContent) (start next : Nat)
      (h : item.EncodedAt message.raw start next) := RecordContent.exists_writtenAt h
  obtain ⟨questions, tiled₁, forall₁⟩ := tiled₁.exists_forall₂ fun item start next h =>
    QuestionContent.exists_writtenAt h
  obtain ⟨answers, tiled₂, forall₂⟩ := tiled₂.exists_forall₂ hrecord
  obtain ⟨authority, tiled₃, forall₃⟩ := tiled₃.exists_forall₂ hrecord
  obtain ⟨additional, tiled₄, forall₄⟩ := tiled₄.exists_forall₂ hrecord
  have hsize {size : Nat} (h : size ≤ 65535) : size = (UInt16.ofNat size).toNat :=
    (UInt16.toNat_ofNat_of_lt' (Nat.lt_succ_of_le h)).symm
  refine ⟨⟨questions, answers, authority, additional⟩, stop,
    ⟨_, _, _, tiled₁, tiled₂, tiled₃, tiled₄⟩, ⟨?_, ?_, ?_, ?_⟩, forall₁, forall₂, forall₃, forall₄⟩
  · exact forall₁.length_eq.symm.trans (hsize content.questions_length)
  · exact forall₂.length_eq.symm.trans (hsize content.answers_length)
  · exact forall₃.length_eq.symm.trans (hsize content.authority_length)
  · exact forall₄.length_eq.symm.trans (hsize content.additional_length)

/-- The header that is read has the bits of the content. -/
theorem header_hasCode (content : MessageContent) :
    OpCode.codes.HasCode content.header.opcode content.opcode ∧
      ResponseCode.codes.HasCode content.header.rcode content.rcode := by
  have hsize (code : Fin 16) : code.val < UInt8.size := Nat.lt_trans code.isLt (by decide)
  exact ⟨(OpCode.codes.eq_ofCode_iff (hsize _)).mp rfl,
    (ResponseCode.codes.eq_ofCode_iff (hsize _)).mp rfl⟩

/-- Reading undoes every encoding, however its names are compressed and whatever follows it: it
yields the identifier, codes and flags and the four sections that were encoded, with the names as
text. There is always one to undo, with every name in full. -/
theorem parse_of_encodedIn (content : MessageContent) :
    content.EncodedIn content.wire ∧
      ∀ raw, content.EncodedIn raw →
        ∃ message, Message.parse raw = .ok message ∧ message.raw = raw ∧
          message.header.id = content.id ∧
          OpCode.codes.HasCode message.header.opcode content.opcode ∧
          ResponseCode.codes.HasCode message.header.rcode content.rcode ∧
          message.header.flags = content.flags ∧
          List.Forall₂ QuestionContent.ReadAs content.questions message.body.questions ∧
          List.Forall₂ RecordContent.ReadAs content.answers message.body.answers ∧
          List.Forall₂ RecordContent.ReadAs content.authority message.body.authority ∧
          List.Forall₂ RecordContent.ReadAs content.additional message.body.additional := by
  refine ⟨encodedIn_of_wire (List.prefix_refl _), fun raw h => ?_⟩
  -- Names depend on the octets of a message only, so they can be placed before its body is known.
  let empty : Message := ⟨content.header, ⟨[], [], [], []⟩, raw⟩
  obtain ⟨body, stop, hbody, hsizes, hread⟩ := exists_body_writtenAt empty h
  have hparse : Message.parse raw = .ok ⟨content.header, body, raw⟩ :=
    Message.parse_eq_ok_iff_writtenAt.mpr
      ⟨rfl, content.sizes, 12, stop, header_writtenAt h.1, hsizes, hbody⟩
  obtain ⟨hopcode, hrcode⟩ := content.header_hasCode
  exact ⟨_, hparse, rfl, rfl, hopcode, hrcode, rfl, hread⟩

/-- A label of a letter, a dot and an octet that is no character, above `b`. -/
def nameAB : LegalName := ⟨[[97, 46, 7], [98]], by decide, by decide⟩

/-- The name `c.b`. -/
def nameCB : LegalName := ⟨[[99], [98]], by decide, by decide⟩

/-- A response to a question for `nameAB`, with two more records for `c.b`. -/
def shared : MessageContent where
  id := 7
  opcode := 9
  rcode := 3
  flags := ⟨true, false, false, true, true, false, false, false⟩
  questions := [⟨nameAB, 1, 1⟩]
  answers := [⟨nameAB, 1, 1, 60, [10, 0, 0, 1], by decide⟩]
  authority := [⟨nameCB, 2, 1, 0, [], by decide⟩]
  additional := [⟨nameCB, 1000, 3, 0, [], by decide⟩]
  questions_length := by decide
  answers_length := by decide
  authority_length := by decide
  additional_length := by decide

/-- An encoding of `shared`: the answer points to the question, the third name points into it
behind a label of its own, the fourth points to the third, and one octet follows. -/
def sharedWire : Octets :=
  [0, 7, 0xc9, 0x83, 0, 1, 0, 1, 0, 1, 0, 1,
    3, 97, 46, 7, 1, 98, 0, 0, 1, 0, 1,
    0xc0, 12, 0, 1, 0, 1, 0, 0, 0, 60, 0, 4, 10, 0, 0, 1,
    1, 99, 0xc0, 16, 0, 2, 0, 1, 0, 0, 0, 0, 0, 0,
    0xc0, 39, 3, 0xe8, 0, 3, 0, 0, 0, 0, 0, 0,
    255]

/-- What is read from `sharedWire`. -/
def sharedMessage : Message where
  header := ⟨7, .unknown 9, .nameError, ⟨true, false, false, true, true, false, false, false⟩⟩
  body :=
    { questions := [⟨"a\\.\\007.b", .a, .internet⟩]
      answers := [⟨"a\\.\\007.b", .a, .internet, 60, [10, 0, 0, 1], 35⟩]
      authority := [⟨"c.b", .ns, .internet, 0, [], 53⟩]
      additional := [⟨"c.b", .unknown 1000, .chaos, 0, [], 65⟩] }
  raw := sharedWire

/-- A response with one pointer to a pointer is read as what it says, its code without a name and
its escaped octets included. -/
theorem parse_sharedWire :
    shared.EncodedIn sharedWire ∧ Message.parse sharedWire = .ok sharedMessage ∧
      OpCode.codes.HasCode sharedMessage.header.opcode 9 ∧
      ResponseCode.codes.HasCode sharedMessage.header.rcode 3 ∧
      List.Forall₂ QuestionContent.ReadAs shared.questions sharedMessage.body.questions ∧
      List.Forall₂ RecordContent.ReadAs shared.answers sharedMessage.body.answers ∧
      List.Forall₂ RecordContent.ReadAs shared.authority sharedMessage.body.authority ∧
      List.Forall₂ RecordContent.ReadAs shared.additional sharedMessage.body.additional := by
  have hab : Run.labelWire [97, 46, 7] <+: sharedWire.drop 12 := by decide
  have hb : Run.labelWire [98] <+: sharedWire.drop 16 := by decide
  have hc : Run.labelWire [99] <+: sharedWire.drop 39 := by decide
  have hanswer : Run.closing (some 12) <+: sharedWire.drop 23 := by decide
  have hauthority : Run.closing (some 16) <+: sharedWire.drop 41 := by decide
  have hadditional : Run.closing (some 39) <+: sharedWire.drop 53 := by decide
  have hroot : Spells sharedWire [] 18 1 := .root (by decide)
  have hb₁ : Spells sharedWire [[98]] 16 3 := .label hb hroot
  have hab₁ : Spells sharedWire [[97, 46, 7], [98]] 12 7 := .label hab hb₁
  have hab₂ : Spells sharedWire [[97, 46, 7], [98]] 23 2 :=
    .pointer hanswer (by decide) (by decide) hab hb₁
  have hb₂ : Spells sharedWire [[98]] 41 2 :=
    .pointer hauthority (by decide) (by decide) hb hroot
  have hcb₁ : Spells sharedWire [[99], [98]] 39 4 := .label hc hb₂
  have hcb₂ : Spells sharedWire [[99], [98]] 53 2 :=
    .pointer hadditional (by decide) (by decide) hc hb₂
  have hencoded : shared.EncodedIn sharedWire :=
    ⟨by decide, 23, 39, 53, 65, .cons ⟨_, hab₁, by decide, rfl⟩ (.nil 23),
      .cons ⟨_, hab₂, by decide, rfl⟩ (.nil 39), .cons ⟨_, hcb₁, by decide, rfl⟩ (.nil 53),
      .cons ⟨_, hcb₂, by decide, rfl⟩ (.nil 65)⟩
  have hparse : Message.parse sharedWire = .ok sharedMessage := by with_unfolding_all rfl
  obtain ⟨message, hmessage, -, -, hopcode, hrcode, -, hread⟩ :=
    (parse_of_encodedIn shared).2 sharedWire hencoded
  obtain rfl : sharedMessage = message := Except.ok.inj (hparse.symm.trans hmessage)
  exact ⟨hencoded, hparse, hopcode, hrcode, hread⟩

end MessageContent

end DnsTrace
