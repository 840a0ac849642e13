import DnsTrace.Proofs.RecordData.Grammar

/-!
# The data of the records of a message

In a message that was read, the data of a record is the stretch of the message at its offset.
So the grammar of the data can be stated of the message itself: addresses and numbers are its
octets from that offset on, names are read at it, and nothing written in place lies behind the
last octet of the data.

Octets behind the decoded part are not looked at. They may still be the target of a pointer,
since pointers lead anywhere; as long as none of the record's names does so, they can be
exchanged in the message as well.
-/

namespace DnsTrace

namespace Octets

/-- Octets that agree one by one in a stretch have one slice there. -/
theorem slice_eq_of_getElem? {octets other : Octets} {offset n : Nat}
    (h : ∀ i, offset ≤ i → i < offset + n → other[i]? = octets[i]?) :
    other.slice offset n = octets.slice offset n := by
  apply List.ext_getElem?
  intro i
  rw [slice, slice, List.getElem?_take, List.getElem?_take]
  by_cases hi : i < n
  · rw [if_pos hi, if_pos hi, List.getElem?_drop, List.getElem?_drop]
    exact h (offset + i) (by omega) (by omega)
  · rw [if_neg hi, if_neg hi]

/-- The octets agree wherever neither lies in the stretch from `start` up to `stop`. -/
def AgreeApartFrom (start stop : Nat) (octets other : Octets) : Prop :=
  ∀ i, i < start ∨ stop ≤ i → other[i]? = octets[i]?

/-- A slice on either side of the stretch is the same in both. -/
theorem AgreeApartFrom.slice_eq {start stop offset n : Nat} {octets other : Octets}
    (h : AgreeApartFrom start stop octets other) (hside : offset + n ≤ start ∨ stop ≤ offset) :
    other.slice offset n = octets.slice offset n := by
  apply slice_eq_of_getElem?
  intro i hfirst hlast
  apply h
  omega

end Octets

namespace Message

/-- No pointer that is followed for the name at the offset leads to a run that has octets in
the stretch from `start` up to `stop`. -/
def PassesBy (message : Message) (offset start stop : Nat) : Prop :=
  ∀ pointers, message.FollowsAt offset pointers → ∀ pointer ∈ pointers, ∀ run : Run,
    run.LiesIn (message.raw.drop pointer) → pointer + run.size ≤ start ∨ stop ≤ pointer

/-- The runs behind the pointers of such a name are kept by octets that agree elsewhere. -/
theorem PassesBy.kept {message other : Message} {offset start stop : Nat}
    (h : message.PassesBy offset start stop)
    (hagree : Octets.AgreeApartFrom start stop message.raw other.raw) (pointers : List Nat)
    (hpointers : message.FollowsAt offset pointers) :
    Walk.Kept message.raw other.raw pointers := by
  intro pointer hpointer run hrun
  apply hrun.of_slice
  apply hagree.slice_eq
  exact h pointers hpointers pointer hpointer run hrun

/-- The data of a record is the stretch of the message at its offset. -/
theorem rdata_of_parse {raw : Octets} {message : Message} (h : parse raw = .ok message)
    {part : Section} {record : Record String} (hrecord : record ∈ message.records part) :
    record.rdata = raw.slice record.rdataOffset record.rdlength ∧
      record.rdataOffset + record.rdlength ≤ raw.length := by
  obtain ⟨-, _, _, _, -, -, _, _, _, -, tiled₂, tiled₃, tiled₄⟩ := parse_eq_ok_iff_writtenAt.mp h
  have hwritten : ∃ start stop, Record.WrittenAt raw message.NamedAt record start stop := by
    cases part with
    | question => cases hrecord
    | answer => exact tiled₂.exists_of_mem hrecord
    | authority => exact tiled₃.exists_of_mem hrecord
    | additional => exact tiled₄.exists_of_mem hrecord
  obtain ⟨start, stop, used, rdlength, -, -, -, -, -, -, hrdata, rfl, hend⟩ := hwritten
  have hlength : record.rdlength = rdlength := by
    rw [Record.rdlength, hrdata, Octets.length_slice]
    omega
  rw [hlength]
  exact ⟨hrdata, hend⟩

end Message

namespace Record

variable {record : Record String} {message : Message} {data : RecordData} {size : Nat}

/-- What the data says is what is shown. -/
theorem data_of_said (h : record.Says record.rdata 0 (record.Embeds message) data size) :
    record.data message = data := by
  rw [Record.data, decode_eq_ok_iff.mpr (.inl ⟨size, h⟩)]

/-- Data that says nothing is shown as its length. -/
theorem data_of_unsaid
    (h : ∀ data size, ¬ record.Says record.rdata 0 (record.Embeds message) data size) :
    record.data message = .undecoded record.rdlength := by
  unfold Record.data
  cases hdecode : record.decode message with
  | error fault => rfl
  | ok data =>
    rcases decode_eq_ok_iff.mp hdecode with ⟨size, hsaid⟩ | ⟨-, rfl⟩
    · exact absurd hsaid (h data size)
    · rfl

/-- What is shown is what the data says, or the length of data that says nothing. -/
theorem data_eq_iff :
    record.data message = data ↔
      (∃ size, record.Says record.rdata 0 (record.Embeds message) data size) ∨
        data = .undecoded record.rdlength ∧
          ∀ data' size, ¬ record.Says record.rdata 0 (record.Embeds message) data' size := by
  constructor
  · intro h
    by_cases hsaid : ∃ data' size, record.Says record.rdata 0 (record.Embeds message) data' size
    · obtain ⟨data', size, hsaid⟩ := hsaid
      rw [data_of_said hsaid] at h
      exact .inl ⟨size, h ▸ hsaid⟩
    · rw [not_exists] at hsaid
      have hnone : ∀ data' size,
          ¬ record.Says record.rdata 0 (record.Embeds message) data' size :=
        fun data' size h' => hsaid data' ⟨size, h'⟩
      rw [data_of_unsaid hnone] at h
      exact .inr ⟨h.symm, hnone⟩
  · intro h
    rcases h with ⟨size, hsaid⟩ | ⟨rfl, hnone⟩
    · exact data_of_said hsaid
    · exact data_of_unsaid hnone

/-- EDNS data is read as a whole, and no name in it. -/
theorem says_iff_of_opt {octets : Octets} {start : Nat} {Named : String → Nat → Nat → Prop}
    (h : record.rrType = .opt) :
    record.Says octets start Named data size ↔
      ∃ edns, Edns.ofRecord record = .ok edns ∧ data = .opt edns ∧ size = record.rdlength := by
  constructor
  · intro hsaid
    cases hsaid with
    | opt type read => exact ⟨_, read, rfl, rfl⟩
    | name type => simp [h] at type
    | a type | aaaa type | mx type | soa type => simp [h] at type
  · intro hsaid
    obtain ⟨edns, hread, rfl, rfl⟩ := hsaid
    exact .opt h hread

/-- The data may be looked at where it lies in the message. -/
theorem says_iff_of_slice {raw : Octets}
    (h : record.rdata = raw.slice record.rdataOffset record.rdlength)
    {Named : String → Nat → Nat → Prop}
    (hnamed : ∀ name position used, Named name position used →
      position + used ≤ record.rdlength) :
    record.Says raw record.rdataOffset Named data size ↔
      record.Says record.rdata 0 Named data size := by
  by_cases hopt : record.rrType = .opt
  · rw [says_iff_of_opt hopt, says_iff_of_opt hopt]
  · have hslice (hsize : size ≤ record.rdlength) :
        record.rdata.slice 0 size = raw.slice record.rdataOffset size := by
      rw [h, Octets.slice_slice (by omega), Nat.add_zero]
    constructor
    · intro hsaid
      have hsize := hsaid.size_le hnamed
      exact hsaid.transfer rfl hopt (hslice hsize) hsize fun _ _ _ _ hname => hname
    · intro hsaid
      have hsize := hsaid.size_le hnamed
      exact hsaid.transfer rfl hopt (hslice hsize).symm hsize fun _ _ _ _ hname => hname

/-- A name of the data whose pointers pass by the octets of the data from `size` on. -/
def EmbedsApart (record : Record String) (message : Message) (size : Nat) (name : String)
    (position used : Nat) : Prop :=
  record.Embeds message name position used ∧
    message.PassesBy (record.rdataOffset + position) (record.rdataOffset + size)
      (record.rdataOffset + record.rdlength)

/-- Whatever stands in the data behind its decoded part, the same is shown. -/
theorem data_of_said_of_front
    (h : record.Says record.rdata 0 (record.Embeds message) data size)
    (hopt : record.rrType ≠ .opt) (rest : Octets) :
    ({ record with rdata := record.rdata.take size ++ rest } : Record String).data message =
      data := by
  have hsize := h.size_le fun _ _ _ hname => hname.le.2
  have hlength : (record.rdata.take size).length = size := by
    rw [List.length_take]
    exact Nat.min_eq_left hsize
  let edited : Record String := { record with rdata := record.rdata.take size ++ rest }
  have htype : edited.rrType = record.rrType := rfl
  have hroom : size ≤ edited.rdlength := by
    change size ≤ (record.rdata.take size ++ rest).length
    rw [List.length_append, hlength]
    omega
  have hsaid : edited.Says edited.rdata 0 (edited.Embeds message) data size := by
    apply h.transfer htype hopt
    · change Octets.slice (record.rdata.take size ++ rest) 0 size = _
      rw [Octets.slice_zero, Octets.slice_zero, List.take_left' hlength]
    · exact hroom
    · intro name position used hinside hname
      apply Message.nameAt_of_kept hname rfl
      · intro pointers _ pointer _ run hrun
        exact hrun
      · change _ ≤ record.rdataOffset + edited.rdlength
        omega
  exact data_of_said hsaid

/-- Octets of the message behind the decoded part of the data may be exchanged, when no name of
the data is continued there. -/
theorem data_of_said_apart {other : Message}
    (hrdata : record.rdata = message.raw.slice record.rdataOffset record.rdlength)
    (hinside : record.rdataOffset + record.rdlength ≤ message.raw.length)
    (h : record.Says record.rdata 0 (record.EmbedsApart message size) data size)
    (hopt : record.rrType ≠ .opt)
    (hagree : Octets.AgreeApartFrom (record.rdataOffset + size)
      (record.rdataOffset + record.rdlength) message.raw other.raw) :
    ({ record with rdata := other.raw.slice record.rdataOffset record.rdlength } :
      Record String).data other = data := by
  have hsize := h.size_le fun _ _ _ hname => hname.1.le.2
  have hslice : other.raw.slice record.rdataOffset size =
      message.raw.slice record.rdataOffset size := hagree.slice_eq (.inl (Nat.le_refl _))
  have hother : record.rdataOffset + size ≤ other.raw.length ∨ size = 0 := by
    have hlength := congrArg List.length hslice
    rw [Octets.length_slice, Octets.length_slice] at hlength
    omega
  let edited : Record String :=
    { record with rdata := other.raw.slice record.rdataOffset record.rdlength }
  have htype : edited.rrType = record.rrType := rfl
  have hroom : size ≤ edited.rdlength := by
    change size ≤ (other.raw.slice record.rdataOffset record.rdlength).length
    rw [Octets.length_slice]
    omega
  have hsaid : edited.Says edited.rdata 0 (edited.Embeds other) data size := by
    apply h.transfer htype hopt
    · change (other.raw.slice record.rdataOffset record.rdlength).slice 0 size = _
      rw [Octets.slice_slice (by omega), Nat.add_zero, hslice, hrdata,
        Octets.slice_slice (by omega), Nat.add_zero]
    · exact hroom
    · intro name position used hused hname
      apply Message.nameAt_of_kept hname.1
      · apply hagree.slice_eq
        omega
      · exact hname.2.kept hagree
      · change _ ≤ record.rdataOffset + edited.rdlength
        omega
  exact data_of_said hsaid

/-- What is shown of the data of a record in a message that was read, for every section and
every type. The data is the stretch of the message at its offset. Addresses, numbers and names
are read there by the grammar of the type, and whatever is read in place lies inside the data;
in every other case, and only then, the length is shown. Apart from EDNS, octets behind the
decoded part do not matter: others may follow it in the data, and others may stand there in the
message, when no name of the data is continued there by a pointer. -/
theorem data_eq_iff_says_of_parse (raw : Octets) (message : Message) (part : Section)
    (record : Record String) (h : Message.parse raw = .ok message)
    (hrecord : record ∈ message.records part) :
    record.rdata = raw.slice record.rdataOffset record.rdlength ∧
      record.rdataOffset + record.rdlength ≤ raw.length ∧
      (∀ data, record.data message = data ↔
        (∃ size, record.Says raw record.rdataOffset (record.Embeds message) data size) ∨
          data = .undecoded record.rdlength ∧ ∀ data' size,
            ¬ record.Says raw record.rdataOffset (record.Embeds message) data' size) ∧
      (∀ data size, record.Says raw record.rdataOffset (record.Embeds message) data size →
        size ≤ record.rdlength ∧ (record.rrType ≠ .opt → ∀ rest : Octets,
          ({ record with rdata := record.rdata.take size ++ rest } : Record String).data message =
            data)) ∧
      ∀ data size, record.rrType ≠ .opt →
        record.Says raw record.rdataOffset (record.EmbedsApart message size) data size →
        ∀ other : Message, Octets.AgreeApartFrom (record.rdataOffset + size)
            (record.rdataOffset + record.rdlength) raw other.raw →
          ({ record with rdata := other.raw.slice record.rdataOffset record.rdlength } :
            Record String).data other = data := by
  obtain ⟨hrdata, hinside⟩ := Message.rdata_of_parse h hrecord
  obtain ⟨rfl, -⟩ := Message.parse_eq_ok_iff_writtenAt.mp h
  have hnamed (name : String) (position used : Nat)
      (hname : record.Embeds message name position used) :
      position + used ≤ record.rdlength := hname.le.2
  refine ⟨hrdata, hinside, ?_, ?_, ?_⟩
  · intro data
    simp only [says_iff_of_slice hrdata hnamed]
    exact data_eq_iff
  · intro data size hsaid
    rw [says_iff_of_slice hrdata hnamed] at hsaid
    exact ⟨hsaid.size_le hnamed, fun hopt rest => data_of_said_of_front hsaid hopt rest⟩
  · intro data size hopt hsaid other hagree
    rw [says_iff_of_slice hrdata fun _ _ _ hname => hname.1.le.2] at hsaid
    exact data_of_said_apart hrdata hinside hsaid hopt hagree

/-- A response with a mail exchange. The name in its data continues in the question, and two
octets follow it in the data. -/
def mailWire : Octets :=
  [0, 1, 0x80, 0, 0, 1, 0, 1, 0, 0, 0, 0,
    1, 97, 0, 0, 15, 0, 1,
    0xc0, 12, 0, 15, 0, 1, 0, 0, 0, 0, 0, 8,
    0, 10, 1, 98, 0xc0, 12, 255, 255]

/-- The record in `mailWire`. -/
def mailRecord : Record String :=
  ⟨"a", .mx, .internet, 0, [0, 10, 1, 98, 0xc0, 12, 255, 255], 31⟩

/-- The message in `mailWire`. -/
def mailMessage : Message where
  header := ⟨1, .query, .noError, ⟨true, false, false, false, false, false, false, false⟩⟩
  body := ⟨[⟨"a", .mx, .internet⟩], [mailRecord], [], []⟩
  raw := mailWire

/-- The octets behind the name are not looked at: they may be zero, and they may be left out. -/
theorem data_mailRecord :
    Message.parse mailWire = .ok mailMessage ∧ mailRecord ∈ mailMessage.records .answer ∧
      mailRecord.data mailMessage = .mx 10 "b.a" ∧
      ({ mailRecord with rdata := [0, 10, 1, 98, 0xc0, 12] } : Record String).data mailMessage =
        .mx 10 "b.a" ∧
      ({ mailRecord with rdata := [0, 10, 1, 98, 0xc0, 12, 0, 0] } : Record String).data
        { mailMessage with raw := mailWire.take 37 ++ [0, 0] } = .mx 10 "b.a" := by
  have hparse : Message.parse mailWire = .ok mailMessage := by decide +kernel
  have hmem : mailRecord ∈ mailMessage.records .answer := List.mem_singleton.mpr rfl
  have hname : mailRecord.Embeds mailMessage "b.a" 2 4 := by
    unfold Embeds
    decide +kernel
  have hfirst : (⟨[[98]], some 12⟩ : Run).LiesIn (mailMessage.raw.drop 33) :=
    ⟨⟨by decide, by decide⟩, by decide⟩
  have hsecond : (⟨[[97]], none⟩ : Run).LiesIn (mailMessage.raw.drop 12) :=
    ⟨⟨by decide, by decide⟩, by decide⟩
  have hwalk : Walk.Unfolds mailMessage.raw ⟨[[98]], some 12⟩ [12] [[98], [97]] :=
    .follows [[98]] (by decide) hsecond (.ends [[97]])
  have hpasses : mailMessage.PassesBy 33 37 39 := by
    intro pointers hpointers pointer hpointer run hrun
    obtain ⟨first, name, hstands, hunfolds⟩ := hpointers
    rw [hstands.unique hfirst] at hunfolds
    obtain ⟨rfl, -⟩ := hunfolds.unique hwalk
    rw [List.mem_singleton] at hpointer
    rw [hpointer] at hrun
    rw [hrun.unique hsecond, hpointer]
    decide
  have hsaid : mailRecord.Says mailWire 31 (mailRecord.EmbedsApart mailMessage 6)
      (.mx 10 "b.a") (2 + 4) := .mx rfl (by decide) (by decide) ⟨hname, hpasses⟩
  have hsaid' : mailRecord.Says mailWire 31 (mailRecord.Embeds mailMessage) (.mx 10 "b.a")
      (2 + 4) := .mx rfl (by decide) (by decide) hname
  have hagree : Octets.AgreeApartFrom 37 39 mailWire (mailWire.take 37 ++ [0, 0]) := by
    intro i hi
    rcases hi with hbefore | hbehind
    · rw [List.getElem?_append_left hbefore, List.getElem?_take, if_pos hbefore]
    · rw [List.getElem?_eq_none hbehind, List.getElem?_eq_none hbehind]
  obtain ⟨-, -, hdata, hfront, hapart⟩ :=
    data_eq_iff_says_of_parse mailWire mailMessage .answer mailRecord hparse hmem
  exact ⟨hparse, hmem, (hdata _).mpr (.inl ⟨_, hsaid'⟩), (hfront _ _ hsaid').2 (by decide) [],
    hapart _ _ (by decide) hsaid { mailMessage with raw := mailWire.take 37 ++ [0, 0] } hagree⟩

end Record

end DnsTrace
