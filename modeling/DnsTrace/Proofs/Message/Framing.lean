import DnsTrace.Envelope
import DnsTrace.Proofs.Codes
import DnsTrace.Proofs.Name.Wire

/-!
# What framing accepts

An item is written at a place when its name stands there and its fixed fields are the numbers
behind the name. `Question.WrittenAt` and `Record.WrittenAt` say this for any form of name:
for the runs that framing reads, for the texts that a message holds and for label lists.

An envelope is read exactly when its items tile the message from the twelfth octet on, as many
in each section as the header announces.
-/

namespace DnsTrace

variable {ν : Type}

/-- A question from `start` up to `stop`: a name, which `Named` says takes `used` octets at
`start`, then the codes of its type and class. -/
def Question.WrittenAt (raw : Octets) (Named : ν → Nat → Nat → Prop) (question : Question ν)
    (start stop : Nat) : Prop :=
  ∃ used, Named question.name start used ∧
    RRType.codes.HasCode question.rrType (raw.number (start + used) 2) ∧
    RRClass.codes.HasCode question.rrClass (raw.number (start + used + 2) 2) ∧
    stop = start + used + 4 ∧ stop ≤ raw.length

/-- A record from `start` up to `stop`: a name, the codes of its type and class, its time to
live, the length of its data, and the data. -/
def Record.WrittenAt (raw : Octets) (Named : ν → Nat → Nat → Prop) (record : Record ν)
    (start stop : Nat) : Prop :=
  ∃ used rdlength, Named record.name start used ∧
    RRType.codes.HasCode record.rrType (raw.number (start + used) 2) ∧
    RRClass.codes.HasCode record.rrClass (raw.number (start + used + 2) 2) ∧
    record.ttl = .ofNat (raw.number (start + used + 4) 4) ∧
    rdlength = raw.number (start + used + 8) 2 ∧
    record.rdataOffset = start + used + 10 ∧
    record.rdata = raw.slice record.rdataOffset rdlength ∧
    stop = record.rdataOffset + rdlength ∧ stop ≤ raw.length

/-- A type is read where its number stands. -/
theorem RRType.eq_ofCode_number_iff {raw : Octets} {start : Nat} {rrType : RRType} :
    rrType = .ofCode (.ofNat (raw.number start 2)) ↔
      RRType.codes.HasCode rrType (raw.number start 2) :=
  RRType.codes.eq_ofCode_iff (raw.number_lt start 2)

/-- A class is read where its number stands. -/
theorem RRClass.eq_ofCode_number_iff {raw : Octets} {start : Nat} {rrClass : RRClass} :
    rrClass = .ofCode (.ofNat (raw.number start 2)) ↔
      RRClass.codes.HasCode rrClass (raw.number start 2) :=
  RRClass.codes.eq_ofCode_iff (raw.number_lt start 2)

/-- A question takes room, all of it inside the message. -/
theorem Question.WrittenAt.le {raw : Octets} {Named : ν → Nat → Nat → Prop}
    {question : Question ν} {start stop : Nat} (h : question.WrittenAt raw Named start stop) :
    start ≤ stop ∧ stop ≤ raw.length := by
  obtain ⟨used, -, -, -, hstop, hend⟩ := h
  omega

/-- A record takes room, all of it inside the message. -/
theorem Record.WrittenAt.le {raw : Octets} {Named : ν → Nat → Nat → Prop}
    {record : Record ν} {start stop : Nat} (h : record.WrittenAt raw Named start stop) :
    start ≤ stop ∧ stop ≤ raw.length := by
  obtain ⟨used, rdlength, -, -, -, -, -, hoffset, -, hstop, hend⟩ := h
  omega

/-- A run that stands at `start` and takes `used` octets there. -/
def Run.StandsAt (raw : Octets) (run : Run) (start used : Nat) : Prop :=
  run.LiesIn (raw.drop start) ∧ used = run.size

/-- One label more in front of a run that stands. -/
theorem Run.StandsAt.cons {raw : Octets} {label : Label} {run : Run} {start used : Nat}
    (h : run.StandsAt raw (start + (label.length + 1)) used)
    (hstands : labelWire label <+: raw.drop start)
    (hlength : 1 ≤ label.length ∧ label.length ≤ 63) :
    (run.cons label).StandsAt raw start (label.length + 1 + used) := by
  obtain ⟨⟨hwell, hwire⟩, hused⟩ := h
  refine ⟨⟨wellFormed_cons.mpr ⟨hlength, hwell⟩, ?_⟩, ?_⟩
  · rw [wire_cons]
    exact Octets.append_prefix_drop_iff.mpr ⟨hstands, hwire⟩
  · rw [size_cons, hused]

/-- A run is read where it stands. -/
theorem Run.reads (raw : Octets) :
    Cursor.Reads raw Cursor.readRun fun run start stop =>
      run.LiesIn (raw.drop start) ∧ stop = start + run.size := by
  intro start run next
  refine ⟨fun h => ?_, fun h => ?_⟩
  · obtain ⟨hwell, hoctets, hposition⟩ := read_eq_ok_iff.mp h
    refine ⟨next.position, ⟨⟨hwell, next.rest, hoctets.symm⟩, hposition⟩, ?_⟩
    have hrest : raw.drop next.position = next.rest := by
      change raw.drop start = run.wire ++ next.rest at hoctets
      change next.position = start + run.size at hposition
      rw [hposition, ← List.drop_drop, hoctets, ← length_wire, List.drop_left]
    rw [Cursor.within, hrest]
  · obtain ⟨stop, ⟨⟨hwell, rest, hoctets⟩, rfl⟩, rfl⟩ := h
    refine read_eq_ok_iff.mpr ⟨hwell, ?_, rfl⟩
    change raw.drop start = run.wire ++ raw.drop (start + run.size)
    rw [← List.drop_drop, ← hoctets, ← length_wire, List.drop_left]

/-- A question is read where it is written with a run for its name. -/
theorem Question.reads (raw : Octets) :
    Cursor.Reads raw Question.read (Question.WrittenAt raw (Run.StandsAt raw)) := by
  refine ((Run.reads raw).bind fun name => Cursor.Reads.field16.bind fun type =>
    Cursor.Reads.field16.bind fun cls =>
      .pure (Question.mk name (.ofCode type) (.ofCode cls))).of_iff
        fun question start stop => ⟨fun h => ?_, fun h => ?_⟩
  · obtain ⟨name, _, ⟨hname, rfl⟩, h⟩ := h
    obtain ⟨type, _, ⟨rfl, rfl, -⟩, cls, _, ⟨rfl, rfl, hfits⟩, rfl, rfl⟩ := h
    exact ⟨name.size, ⟨hname, rfl⟩, RRType.eq_ofCode_number_iff.mp rfl,
      RRClass.eq_ofCode_number_iff.mp rfl, rfl, hfits⟩
  · obtain ⟨name, rrType, rrClass⟩ := question
    simp only [Question.WrittenAt, Run.StandsAt, ← RRType.eq_ofCode_number_iff,
      ← RRClass.eq_ofCode_number_iff] at h
    obtain ⟨_, ⟨hname, rfl⟩, rfl, rfl, rfl, hfits⟩ := h
    exact ⟨name, _, ⟨hname, rfl⟩, _, _, ⟨rfl, rfl, by omega⟩, _, _, ⟨rfl, rfl, hfits⟩, rfl, rfl⟩

/-- Record data is read in full, and starts where its length ends. -/
theorem Record.data_reads (raw : Octets) (name : Run) (rrType : RRType) (rrClass : RRClass)
    (ttl : UInt32) (rdlength : UInt16) :
    Cursor.Reads raw
      (fun cursor => cursor.field rdlength.toNat >>= fun taken =>
        pure (Record.mk name rrType rrClass ttl taken.1 cursor.position, taken.2))
      fun record start stop =>
        record = Record.mk name rrType rrClass ttl (raw.slice start rdlength.toNat) start ∧
          stop = start + rdlength.toNat ∧ stop ≤ max start raw.length := by
  intro start record next
  simp only [Cursor.field_within]
  refine ⟨fun h => ?_, fun h => ?_⟩
  · split at h
    · cases h
      exact ⟨_, ⟨rfl, rfl, by omega⟩, rfl⟩
    · cases h
  · obtain ⟨stop, ⟨rfl, rfl, hfits⟩, rfl⟩ := h
    rw [if_pos (by omega)]
    rfl

/-- A record is read where it is written with a run for its name. -/
theorem Record.reads (raw : Octets) :
    Cursor.Reads raw Record.read (Record.WrittenAt raw (Run.StandsAt raw)) := by
  refine ((Run.reads raw).bind fun name => Cursor.Reads.field16.bind fun type =>
    Cursor.Reads.field16.bind fun cls => Cursor.Reads.field32.bind fun ttl =>
      Cursor.Reads.field16.bind fun rdlength =>
        Record.data_reads raw name (.ofCode type) (.ofCode cls) ttl rdlength).of_iff
          fun record start stop => ⟨fun h => ?_, fun h => ?_⟩
  · obtain ⟨name, _, ⟨hname, rfl⟩, h⟩ := h
    obtain ⟨type, _, ⟨rfl, rfl, -⟩, cls, _, ⟨rfl, rfl, -⟩, ttl, _, ⟨rfl, rfl, -⟩, h⟩ := h
    obtain ⟨rdlength, _, ⟨rfl, rfl, hdata⟩, rfl, rfl, hfits⟩ := h
    rw [Octets.toNat_ofNat_number_two] at hfits ⊢
    exact ⟨name.size, _, ⟨hname, rfl⟩, RRType.eq_ofCode_number_iff.mp rfl,
      RRClass.eq_ofCode_number_iff.mp rfl, rfl, rfl, rfl, rfl, rfl, by omega⟩
  · obtain ⟨name, rrType, rrClass, ttl, rdata, rdataOffset⟩ := record
    simp only [Record.WrittenAt, Run.StandsAt, ← RRType.eq_ofCode_number_iff,
      ← RRClass.eq_ofCode_number_iff] at h
    obtain ⟨_, _, ⟨hname, rfl⟩, rfl, rfl, rfl, rfl, rfl, rfl, rfl, hfits⟩ := h
    refine ⟨name, _, ⟨hname, rfl⟩, _, _, ⟨rfl, rfl, by omega⟩, _, _, ⟨rfl, rfl, by omega⟩, _, _,
      ⟨rfl, rfl, by omega⟩, _, _, ⟨rfl, rfl, by omega⟩, ?_⟩
    rw [Octets.toNat_ofNat_number_two]
    exact ⟨rfl, rfl, by omega⟩

/-- The header with this identifier, from the word of flags and codes behind it. -/
def Header.ofWord (id : UInt16) (word : Nat) : Header where
  id := id
  opcode := .ofCode (.ofNat (word / 2 ^ 11 % 2 ^ 4))
  rcode := .ofCode (.ofNat (word % 2 ^ 4))
  flags :=
    { qr := word.testBit 15
      aa := word.testBit 10
      tc := word.testBit 9
      rd := word.testBit 8
      ra := word.testBit 7
      z := word.testBit 6
      ad := word.testBit 5
      cd := word.testBit 4 }

/-- The two octets of flags and codes are one word, the first of them above the second. -/
theorem Header.ofWire_eq_ofWord (id : UInt16) (high low : UInt8) :
    ofWire id high low = ofWord id (high.toNat * 256 + low.toNat) := by
  have hword : high.toNat * 256 + low.toNat = 2 ^ 8 * high.toNat + low.toNat := by omega
  have hbit (i : Nat) : (high.toNat * 256 + low.toNat).testBit i =
      if i < 8 then low.toNat.testBit i else high.toNat.testBit (i - 8) := by
    rw [hword, Nat.testBit_two_pow_mul_add _ low.toNat_lt]
  have hopcode : (high.toNat * 256 + low.toNat) / 2 ^ 11 % 2 ^ 4 = high.toNat / 8 % 16 := by
    have hlow := low.toNat_lt
    omega
  have hrcode : (high.toNat * 256 + low.toNat) % 2 ^ 4 = low.toNat % 16 := by omega
  rw [ofWire, ofWord, hopcode, hrcode]
  simp only [hbit]
  rfl

/-- A header is given by its identifier and the bits of its word. -/
theorem Header.eq_ofWord_iff {header : Header} {id : UInt16} {word : Nat} :
    header = ofWord id word ↔
      header.id = id ∧ OpCode.codes.HasCode header.opcode (word / 2 ^ 11 % 2 ^ 4) ∧
        ResponseCode.codes.HasCode header.rcode (word % 2 ^ 4) ∧
        header.flags = (ofWord id word).flags := by
  have hsize (n : Nat) : n % 2 ^ 4 < UInt8.size :=
    Nat.lt_trans (Nat.mod_lt n (by decide)) (by decide)
  rw [← OpCode.codes.eq_ofCode_iff (hsize _), ← ResponseCode.codes.eq_ofCode_iff (hsize _)]
  obtain ⟨id', opcode, rcode, flags⟩ := header
  rw [ofWord, Header.mk.injEq]
  rfl

/-- A header and its section sizes, written from `start` up to `stop`. -/
def Header.WrittenAt (raw : Octets) (header : Header) (sizes : SectionSizes)
    (start stop : Nat) : Prop :=
  header = ofWord (.ofNat (raw.number start 2)) (raw.number (start + 2) 2) ∧
    sizes.questions = .ofNat (raw.number (start + 4) 2) ∧
    sizes.answers = .ofNat (raw.number (start + 6) 2) ∧
    sizes.authority = .ofNat (raw.number (start + 8) 2) ∧
    sizes.additional = .ofNat (raw.number (start + 10) 2) ∧
    stop = start + 12 ∧ stop ≤ raw.length

/-- A header is read where it is written. -/
theorem Header.reads (raw : Octets) :
    Cursor.Reads raw Header.read fun result start stop =>
      Header.WrittenAt raw result.1 result.2 start stop := by
  have hflags (start : Nat) (h : start + 2 ≤ raw.length) :
      raw.number start 2 = (UInt8.ofNat (raw.number start 1)).toNat * 256 +
        (UInt8.ofNat (raw.number (start + 1) 1)).toNat := by
    have hhigh : (UInt8.ofNat (raw.number start 1)).toNat = raw.number start 1 :=
      UInt8.toNat_ofNat_of_lt' (raw.number_lt start 1)
    have hlow : (UInt8.ofNat (raw.number (start + 1) 1)).toNat = raw.number (start + 1) 1 :=
      UInt8.toNat_ofNat_of_lt' (raw.number_lt (start + 1) 1)
    rw [hhigh, hlow]
    exact Octets.number_succ (n := 1) (by omega)
  refine (Cursor.Reads.field16.bind fun id => Cursor.Reads.field8.bind fun high =>
    Cursor.Reads.field8.bind fun low => Cursor.Reads.field16.bind fun questions =>
      Cursor.Reads.field16.bind fun answers => Cursor.Reads.field16.bind fun authority =>
        Cursor.Reads.field16.bind fun additional =>
          .pure (ofWire id high low, SectionSizes.mk questions answers authority additional)).of_iff
            fun result start stop => ⟨fun h => ?_, fun h => ?_⟩
  · obtain ⟨id, _, ⟨rfl, rfl, -⟩, high, _, ⟨rfl, rfl, -⟩, low, _, ⟨rfl, rfl, hfits⟩, h⟩ := h
    obtain ⟨questions, _, ⟨rfl, rfl, -⟩, answers, _, ⟨rfl, rfl, -⟩, h⟩ := h
    obtain ⟨authority, _, ⟨rfl, rfl, -⟩, additional, _, ⟨rfl, rfl, hend⟩, rfl, rfl⟩ := h
    refine ⟨?_, rfl, rfl, rfl, rfl, rfl, hend⟩
    rw [ofWire_eq_ofWord, hflags (start + 2) (by omega)]
  · obtain ⟨header, questions, answers, authority, additional⟩ := result
    simp only [Header.WrittenAt] at h
    obtain ⟨rfl, rfl, rfl, rfl, rfl, rfl, hend⟩ := h
    refine ⟨_, _, ⟨rfl, rfl, by omega⟩, _, _, ⟨rfl, rfl, by omega⟩, _, _, ⟨rfl, rfl, by omega⟩,
      _, _, ⟨rfl, rfl, by omega⟩, _, _, ⟨rfl, rfl, by omega⟩, _, _, ⟨rfl, rfl, by omega⟩,
      _, _, ⟨rfl, rfl, by omega⟩, ?_, rfl⟩
    rw [hflags (start + 2) (by omega), ← ofWire_eq_ofWord]

/-- How many items each section of a body holds. -/
def Body.HasSizes (sizes : SectionSizes) (body : Body ν) : Prop :=
  body.questions.length = sizes.questions.toNat ∧ body.answers.length = sizes.answers.toNat ∧
    body.authority.length = sizes.authority.toNat ∧
    body.additional.length = sizes.additional.toNat

/-- A written header announces the numbers behind its word of flags and codes. -/
theorem Header.WrittenAt.hasSizes_iff {raw : Octets} {header : Header} {sizes : SectionSizes}
    {start stop : Nat} (h : header.WrittenAt raw sizes start stop) (body : Body ν) :
    body.HasSizes sizes ↔
      body.questions.length = raw.number (start + 4) 2 ∧
        body.answers.length = raw.number (start + 6) 2 ∧
        body.authority.length = raw.number (start + 8) 2 ∧
        body.additional.length = raw.number (start + 10) 2 := by
  obtain ⟨-, hquestions, hanswers, hauthority, hadditional, -⟩ := h
  rw [Body.HasSizes, hquestions, hanswers, hauthority, hadditional]
  simp only [Octets.toNat_ofNat_number_two]

/-- The items of a body, end to end in wire order from `start` up to `stop`. -/
def Body.WrittenAt (raw : Octets) (Named : ν → Nat → Nat → Prop) (body : Body ν)
    (start stop : Nat) : Prop :=
  ∃ answersAt authorityAt additionalAt,
    Tiled (Question.WrittenAt raw Named) start body.questions answersAt ∧
    Tiled (Record.WrittenAt raw Named) answersAt body.answers authorityAt ∧
    Tiled (Record.WrittenAt raw Named) authorityAt body.authority additionalAt ∧
    Tiled (Record.WrittenAt raw Named) additionalAt body.additional stop

/-- A body takes room, all of it inside the message that it starts in. -/
theorem Body.WrittenAt.le {raw : Octets} {Named : ν → Nat → Nat → Prop} {body : Body ν}
    {start stop : Nat} (h : body.WrittenAt raw Named start stop) (hstart : start ≤ raw.length) :
    start ≤ stop ∧ stop ≤ raw.length := by
  obtain ⟨answersAt, authorityAt, additionalAt, tiled₁, tiled₂, tiled₃, tiled₄⟩ := h
  have le₁ := tiled₁.start_le fun _ _ _ h => h.le.1
  have le₂ := tiled₂.start_le fun _ _ _ h => h.le.1
  have le₃ := tiled₃.start_le fun _ _ _ h => h.le.1
  have le₄ := tiled₄.start_le fun _ _ _ h => h.le.1
  have end₁ := tiled₁.stop_le (fun _ _ _ h => h.le.2) hstart
  have end₂ := tiled₂.stop_le (fun _ _ _ h => h.le.2) end₁
  have end₃ := tiled₃.stop_le (fun _ _ _ h => h.le.2) end₂
  have end₄ := tiled₄.stop_le (fun _ _ _ h => h.le.2) end₃
  omega

/-- A body is read where it is written with runs for its names. -/
theorem Body.reads (raw : Octets) (sizes : SectionSizes) :
    Cursor.Reads raw (Body.read sizes) fun body start stop =>
      body.HasSizes sizes ∧ Body.WrittenAt raw (Run.StandsAt raw) body start stop := by
  have hrecords := (Record.reads raw).many
  refine (((Question.reads raw).many sizes.questions.toNat).bind fun questions =>
    (hrecords sizes.answers.toNat).bind fun answers =>
      (hrecords sizes.authority.toNat).bind fun authority =>
        (hrecords sizes.additional.toNat).bind fun additional =>
          .pure (Body.mk questions answers authority additional)).of_iff
            fun body start stop => ⟨fun h => ?_, fun h => ?_⟩
  · obtain ⟨questions, _, ⟨hquestions, tiled₁⟩, answers, _, ⟨hanswers, tiled₂⟩, h⟩ := h
    obtain ⟨authority, _, ⟨hauthority, tiled₃⟩, additional, _, ⟨hadditional, tiled₄⟩, h⟩ := h
    obtain ⟨rfl, rfl⟩ := h
    exact ⟨⟨hquestions, hanswers, hauthority, hadditional⟩, _, _, _, tiled₁, tiled₂, tiled₃, tiled₄⟩
  · obtain ⟨⟨hquestions, hanswers, hauthority, hadditional⟩, h⟩ := h
    obtain ⟨_, _, _, tiled₁, tiled₂, tiled₃, tiled₄⟩ := h
    exact ⟨_, _, ⟨hquestions, tiled₁⟩, _, _, ⟨hanswers, tiled₂⟩, _, _, ⟨hauthority, tiled₃⟩,
      _, _, ⟨hadditional, tiled₄⟩, rfl, rfl⟩

/-- An envelope is read where its header is written and its items tile what follows. -/
theorem Envelope.reads (raw : Octets) :
    Cursor.Reads raw Envelope.read fun envelope start stop =>
      ∃ sizes bodyAt, Header.WrittenAt raw envelope.header sizes start bodyAt ∧
        envelope.body.HasSizes sizes ∧
        Body.WrittenAt raw (Run.StandsAt raw) envelope.body bodyAt stop := by
  refine ((Header.reads raw).bind fun read => (Body.reads raw read.2).bind fun body =>
    .pure (Envelope.mk read.1 body)).of_iff fun envelope start stop => ⟨fun h => ?_, fun h => ?_⟩
  · obtain ⟨⟨header, sizes⟩, bodyAt, hheader, body, _, ⟨hsizes, hbody⟩, rfl, rfl⟩ := h
    exact ⟨sizes, bodyAt, hheader, hsizes, hbody⟩
  · obtain ⟨sizes, bodyAt, hheader, hsizes, hbody⟩ := h
    exact ⟨(envelope.header, sizes), bodyAt, hheader, envelope.body, _, ⟨hsizes, hbody⟩, rfl, rfl⟩

end DnsTrace
