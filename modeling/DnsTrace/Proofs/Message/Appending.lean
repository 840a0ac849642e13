import DnsTrace.Message.Trace
import DnsTrace.Proofs.Message.Tiling
import DnsTrace.Proofs.RecordData.Grammar

/-!
# Octets behind a message

The items of a message lie in front, and pointers lead to offsets from the front. So octets that
are appended disturb nothing that was read: every number, every stretch of data and every name
of the message is read again. A failure, on the other hand, may end: a pointer that led behind
the message, or to a name that was cut off there, can find a name among the new octets.
-/

namespace DnsTrace

/-- A tiling stays one when the items fit more places. -/
theorem Tiled.imp {α : Type} {Fits Fits' : α → Nat → Nat → Prop} {start stop : Nat}
    {items : List α} (h : Tiled Fits start items stop)
    (hfits : ∀ item start next, Fits item start next → Fits' item start next) :
    Tiled Fits' start items stop := by
  induction h with
  | nil position => exact .nil position
  | cons fits _ ih => exact .cons (hfits _ _ _ fits) ih

section Written

variable {ν : Type} {Named Named' : ν → Nat → Nat → Prop} {raw : Octets} {start stop : Nat}

/-- A header stays written when octets are appended. -/
theorem Header.WrittenAt.append {header : Header} {sizes : SectionSizes}
    (h : header.WrittenAt raw sizes start stop) (more : Octets) :
    header.WrittenAt (raw ++ more) sizes start stop := by
  obtain ⟨hword, sizes₁, sizes₂, sizes₃, sizes₄, rfl, hend⟩ := h
  have hnumber (q n : Nat) (hq : q + n ≤ start + 12) :
      (raw ++ more).number q n = raw.number q n := Octets.number_append (by omega) more
  unfold WrittenAt
  rw [hnumber start 2 (by omega), hnumber (start + 2) 2 (by omega),
    hnumber (start + 4) 2 (by omega), hnumber (start + 6) 2 (by omega),
    hnumber (start + 8) 2 (by omega), hnumber (start + 10) 2 (by omega), List.length_append]
  exact ⟨hword, sizes₁, sizes₂, sizes₃, sizes₄, rfl, by omega⟩

/-- A question stays written when octets are appended, if its name does. -/
theorem Question.WrittenAt.append {question : Question ν}
    (h : question.WrittenAt raw Named start stop)
    (hnamed : ∀ name start used, Named name start used → Named' name start used)
    (more : Octets) : question.WrittenAt (raw ++ more) Named' start stop := by
  obtain ⟨used, hname, htype, hclass, hstop, hend⟩ := h
  unfold WrittenAt
  refine ⟨used, hnamed _ _ _ hname, ?_, ?_, hstop, ?_⟩
  · rwa [Octets.number_append (by omega)]
  · rwa [Octets.number_append (by omega)]
  · rw [List.length_append]
    omega

/-- A record stays written when octets are appended, if its name does. -/
theorem Record.WrittenAt.append {record : Record ν}
    (h : record.WrittenAt raw Named start stop)
    (hnamed : ∀ name start used, Named name start used → Named' name start used)
    (more : Octets) : record.WrittenAt (raw ++ more) Named' start stop := by
  obtain ⟨used, rdlength, hname, htype, hclass, httl, hlength, hoffset, hrdata, hstop, hend⟩ := h
  unfold WrittenAt
  refine ⟨used, rdlength, hnamed _ _ _ hname, ?_, ?_, ?_, ?_, hoffset, ?_, hstop, ?_⟩
  · rwa [Octets.number_append (by omega)]
  · rwa [Octets.number_append (by omega)]
  · rw [Octets.number_append (by omega), httl]
  · rw [Octets.number_append (by omega), hlength]
  · rw [Octets.slice_append (by omega), hrdata]
  · rw [List.length_append]
    omega

/-- A body stays written when octets are appended, if its names do. -/
theorem Body.WrittenAt.append {body : Body ν} (h : body.WrittenAt raw Named start stop)
    (hnamed : ∀ name start used, Named name start used → Named' name start used)
    (more : Octets) : body.WrittenAt (raw ++ more) Named' start stop := by
  obtain ⟨answersAt, authorityAt, additionalAt, tiled₁, tiled₂, tiled₃, tiled₄⟩ := h
  have hrecords (record : Record ν) (start next : Nat)
      (hwritten : record.WrittenAt raw Named start next) :
      record.WrittenAt (raw ++ more) Named' start next := hwritten.append hnamed more
  exact ⟨answersAt, authorityAt, additionalAt,
    tiled₁.imp fun _ _ _ hwritten => hwritten.append hnamed more,
    tiled₂.imp hrecords, tiled₃.imp hrecords, tiled₄.imp hrecords⟩

end Written

/-- What was decoded is decoded again when octets are appended. -/
theorem Record.decode_append {record : Record String} {message other : Message}
    {data : RecordData} (h : record.decode message = .ok data) {more : Octets}
    (hraw : other.raw = message.raw ++ more) : record.decode other = .ok data := by
  rw [decode_eq_ok_iff] at h ⊢
  rcases h with ⟨size, hsaid⟩ | hundecoded
  · left
    use size
    apply hsaid.imp
    intro name position used hname
    exact Message.nameAt_append hname hraw (Nat.le_refl _)
  · exact .inr hundecoded

/-- A record is traced by its own fields and its data; nothing else of the message is used. -/
theorem Record.trace_eq_of_data {record : Record String} {message other : Message}
    (h : record.data other = record.data message) :
    record.trace other = record.trace message := by
  rw [trace, trace, h]

namespace Message

variable {raw : Octets} {message : Message}

/-- The message with octets behind it. -/
def appending (message : Message) (more : Octets) : Message :=
  { message with raw := message.raw ++ more }

/-- The message is read again when octets are appended. -/
theorem parse_append (h : parse raw = .ok message) (more : Octets) :
    parse (raw ++ more) = .ok (message.appending more) := by
  obtain ⟨rfl, sizes, bodyAt, stop, hheader, hsizes, hbody⟩ := parse_eq_ok_iff_writtenAt.mp h
  have hnamed (name : String) (start used : Nat) (hname : message.NamedAt name start used) :
      (message.appending more).NamedAt name start used := by
    apply nameAt_append hname rfl
    rw [appending, List.length_append]
    exact Nat.le_add_right _ _
  apply parse_eq_ok_iff_writtenAt.mpr
  exact ⟨rfl, sizes, bodyAt, stop, hheader.append more, hsizes, hbody.append hnamed more⟩

/-- Octets behind a message disturb nothing that was decoded. The header, the questions and the
records are read again, each record with the same data at the same offset. A record whose data
was decoded is decoded to the same data and has the same trace; so only the trace of a record
whose data was not decoded can change. -/
theorem decode_eq_ok_of_parse_append (raw more : Octets) (message : Message)
    (h : parse raw = .ok message) :
    ∃ other, parse (raw ++ more) = .ok other ∧ other.raw = raw ++ more ∧
      other.header = message.header ∧ other.body = message.body ∧
      ∀ part, ∀ record ∈ message.records part,
        (∀ data, record.decode message = .ok data →
          record.decode other = .ok data ∧ record.trace other = record.trace message) ∧
        (record.trace other ≠ record.trace message →
          ∃ fault, record.decode message = .error fault) := by
  obtain ⟨rfl, -⟩ := parse_eq_ok_iff_writtenAt.mp h
  have hkept (record : Record String) (data : RecordData)
      (hdecode : record.decode message = .ok data) :
      record.decode (message.appending more) = .ok data ∧
        record.trace (message.appending more) = record.trace message := by
    have hagain : record.decode (message.appending more) = .ok data :=
      Record.decode_append hdecode rfl
    constructor
    · exact hagain
    · apply Record.trace_eq_of_data
      rw [Record.data, Record.data, hagain, hdecode]
  refine ⟨message.appending more, parse_append h more, rfl, rfl, rfl, ?_⟩
  intro part record _
  constructor
  · exact hkept record
  · intro hchanged
    cases hdecode : record.decode message with
    | ok data => exact absurd (hkept record data hdecode).2 hchanged
    | error fault => exact ⟨fault, rfl⟩

/-- Two name servers for `a`: the first name is the owner's, the second lies behind the
message. -/
def openWire : Octets :=
  [0, 1, 0x80, 0, 0, 0, 0, 2, 0, 0, 0, 0,
    1, 97, 0, 0, 2, 0, 1, 0, 0, 0, 0, 0, 2, 0xc0, 12,
    0xc0, 12, 0, 2, 0, 1, 0, 0, 0, 0, 0, 2, 0xc0, 41]

/-- The first record in `openWire`. -/
def closedRecord : Record String := ⟨"a", .ns, .internet, 0, [0xc0, 12], 25⟩

/-- The second record in `openWire`. -/
def openRecord : Record String := ⟨"a", .ns, .internet, 0, [0xc0, 41], 39⟩

/-- The message in `openWire`. -/
def openMessage : Message where
  header := ⟨1, .query, .noError, ⟨true, false, false, false, false, false, false, false⟩⟩
  body := ⟨[], [closedRecord, openRecord], [], []⟩
  raw := openWire

/-- With a name behind the message, the first record is decoded as before. The second had not
been decoded, and now is. -/
theorem decode_openMessage :
    parse openWire = .ok openMessage ∧
      openRecord.decode openMessage = .error (.pointerOutside 41) ∧
      openRecord.decode (openMessage.appending [1, 120, 0]) = .ok (.name "x") ∧
      closedRecord ∈ openMessage.records .answer ∧
      closedRecord.decode openMessage = .ok (.name "a") ∧
      ∃ other, parse (openWire ++ [1, 120, 0]) = .ok other ∧ other.body = openMessage.body ∧
        closedRecord.decode other = .ok (.name "a") ∧
        closedRecord.trace other = closedRecord.trace openMessage := by
  have hparse : parse openWire = .ok openMessage := by decide +kernel
  have hopen : openRecord.decode openMessage = .error (.pointerOutside 41) := by decide +kernel
  have hfound : openRecord.decode (openMessage.appending [1, 120, 0]) = .ok (.name "x") := by
    decide +kernel
  have hmem : closedRecord ∈ openMessage.records .answer := List.mem_cons_self
  have hclosed : closedRecord.decode openMessage = .ok (.name "a") := by decide +kernel
  obtain ⟨other, hother, -, -, hbody, hkept⟩ :=
    decode_eq_ok_of_parse_append openWire [1, 120, 0] openMessage hparse
  obtain ⟨hdecode, htrace⟩ := (hkept .answer closedRecord hmem).1 _ hclosed
  exact ⟨hparse, hopen, hfound, hmem, hclosed, other, hother, hbody, hdecode, htrace⟩

end Message

end DnsTrace
