import DnsTrace.Proofs.Message.Framing
import DnsTrace.Proofs.Name.Unfolding

/-!
# A message as a tiling of its octets

Reading a message goes twice over its names: framing reads the run of each owner name, and
only when all items are framed are the runs resolved. Reading a name at an offset does both at
once, on a window. Both ways agree on every name.

A message is therefore read exactly when the header fields are the bits of the first twelve
octets and the items of its sections lie end to end behind them, each with the name that is
read at its own offset.
-/

namespace DnsTrace

/-- A list is changed item by item. -/
theorem mapM_eq_ok_iff {α β : Type} {change : α → Except Fault β} {items : List α}
    {results : List β} :
    items.mapM change = .ok results ↔
      List.Forall₂ (fun item result => change item = .ok result) items results := by
  induction items generalizing results with
  | nil =>
    refine ⟨fun h => ?_, fun h => ?_⟩
    · cases h
      exact .nil
    · cases h
      rfl
  | cons item items ih =>
    simp only [List.mapM_cons, bind_eq_ok_iff]
    refine ⟨fun h => ?_, fun h => ?_⟩
    · obtain ⟨result, hresult, results, hresults, hpure⟩ := h
      cases hpure
      exact .cons hresult (ih.mp hresults)
    · cases h with
      | cons hresult hresults => exact ⟨_, hresult, _, ih.mpr hresults, rfl⟩

section Renaming

variable {ν μ : Type} {change : ν → Except Fault μ} {raw : Octets}

/-- Changing the form of its name leaves the rest of a question alone. -/
theorem Question.mapName_eq_ok_iff {question : Question ν} {renamed : Question μ} :
    question.mapName change = .ok renamed ↔
      change question.name = .ok renamed.name ∧ renamed.rrType = question.rrType ∧
        renamed.rrClass = question.rrClass := by
  simp only [mapName, bind_eq_ok_iff]
  refine ⟨fun h => ?_, fun h => ?_⟩
  · obtain ⟨name, hname, hpure⟩ := h
    cases hpure
    exact ⟨hname, rfl, rfl⟩
  · obtain ⟨hname, htype, hclass⟩ := h
    refine ⟨renamed.name, hname, ?_⟩
    rw [← htype, ← hclass]
    rfl

/-- Changing the form of its name leaves the rest of a record alone. -/
theorem Record.mapName_eq_ok_iff {record : Record ν} {renamed : Record μ} :
    record.mapName change = .ok renamed ↔
      change record.name = .ok renamed.name ∧ renamed.rrType = record.rrType ∧
        renamed.rrClass = record.rrClass ∧ renamed.ttl = record.ttl ∧
        renamed.rdata = record.rdata ∧ renamed.rdataOffset = record.rdataOffset := by
  simp only [mapName, bind_eq_ok_iff]
  refine ⟨fun h => ?_, fun h => ?_⟩
  · obtain ⟨name, hname, hpure⟩ := h
    cases hpure
    exact ⟨hname, rfl, rfl, rfl, rfl, rfl⟩
  · obtain ⟨hname, htype, hclass, httl, hrdata, hoffset⟩ := h
    refine ⟨renamed.name, hname, ?_⟩
    rw [← htype, ← hclass, ← httl, ← hrdata, ← hoffset]
    rfl

variable {Named : ν → Nat → Nat → Prop} {Named' : μ → Nat → Nat → Prop}

/-- A question stands where one stands whose name changes to its name. -/
theorem Question.writtenAt_iff_exists_mapName
    (hnamed : ∀ name start used,
      Named' name start used ↔ ∃ origin, Named origin start used ∧ change origin = .ok name)
    (question : Question μ) (start stop : Nat) :
    WrittenAt raw Named' question start stop ↔
      ∃ origin, WrittenAt raw Named origin start stop ∧ origin.mapName change = .ok question := by
  refine ⟨fun h => ?_, fun h => ?_⟩
  · obtain ⟨used, hname, hrest⟩ := h
    obtain ⟨origin, horigin, hchange⟩ := (hnamed _ _ _).mp hname
    exact ⟨⟨origin, question.rrType, question.rrClass⟩, ⟨used, horigin, hrest⟩,
      mapName_eq_ok_iff.mpr ⟨hchange, rfl, rfl⟩⟩
  · obtain ⟨origin, ⟨used, horigin, htype, hclass, hstop⟩, hchange⟩ := h
    obtain ⟨hname, htype', hclass'⟩ := mapName_eq_ok_iff.mp hchange
    rw [← htype'] at htype
    rw [← hclass'] at hclass
    exact ⟨used, (hnamed _ _ _).mpr ⟨_, horigin, hname⟩, htype, hclass, hstop⟩

/-- A record stands where one stands whose name changes to its name. -/
theorem Record.writtenAt_iff_exists_mapName
    (hnamed : ∀ name start used,
      Named' name start used ↔ ∃ origin, Named origin start used ∧ change origin = .ok name)
    (record : Record μ) (start stop : Nat) :
    WrittenAt raw Named' record start stop ↔
      ∃ origin, WrittenAt raw Named origin start stop ∧ origin.mapName change = .ok record := by
  refine ⟨fun h => ?_, fun h => ?_⟩
  · obtain ⟨used, rdlength, hname, hrest⟩ := h
    obtain ⟨origin, horigin, hchange⟩ := (hnamed _ _ _).mp hname
    exact ⟨⟨origin, record.rrType, record.rrClass, record.ttl, record.rdata, record.rdataOffset⟩,
      ⟨used, rdlength, horigin, hrest⟩,
      mapName_eq_ok_iff.mpr ⟨hchange, rfl, rfl, rfl, rfl, rfl⟩⟩
  · obtain ⟨origin, ⟨used, rdlength, horigin, hrest⟩, hchange⟩ := h
    obtain ⟨hname, htype, hclass, httl, hrdata, hoffset⟩ := mapName_eq_ok_iff.mp hchange
    rw [← htype, ← hclass, ← httl, ← hrdata, ← hoffset] at hrest
    exact ⟨used, rdlength, (hnamed _ _ _).mpr ⟨_, horigin, hname⟩, hrest⟩

/-- A body is tiled where one is tiled whose names change to its names. -/
theorem Body.writtenAt_iff_exists_mapNames
    (hnamed : ∀ name start used,
      Named' name start used ↔ ∃ origin, Named origin start used ∧ change origin = .ok name)
    (body : Body μ) (start stop : Nat) :
    WrittenAt raw Named' body start stop ↔
      ∃ origin, WrittenAt raw Named origin start stop ∧ origin.mapNames change = .ok body := by
  have hquestions (start stop : Nat) (questions : List (Question μ)) :
      Tiled (Question.WrittenAt raw Named') start questions stop ↔ _ :=
    Tiled.iff_exists_forall₂ (Question.writtenAt_iff_exists_mapName hnamed) start stop questions
  have hrecords (start stop : Nat) (records : List (Record μ)) :
      Tiled (Record.WrittenAt raw Named') start records stop ↔ _ :=
    Tiled.iff_exists_forall₂ (Record.writtenAt_iff_exists_mapName hnamed) start stop records
  refine ⟨fun h => ?_, fun h => ?_⟩
  · obtain ⟨_, _, _, tiled₁, tiled₂, tiled₃, tiled₄⟩ := h
    obtain ⟨questions, tiled₁, forall₁⟩ := (hquestions _ _ _).mp tiled₁
    obtain ⟨answers, tiled₂, forall₂⟩ := (hrecords _ _ _).mp tiled₂
    obtain ⟨authority, tiled₃, forall₃⟩ := (hrecords _ _ _).mp tiled₃
    obtain ⟨additional, tiled₄, forall₄⟩ := (hrecords _ _ _).mp tiled₄
    refine ⟨⟨questions, answers, authority, additional⟩,
      ⟨_, _, _, tiled₁, tiled₂, tiled₃, tiled₄⟩, ?_⟩
    simp only [mapNames, mapM_eq_ok_iff.mpr forall₁, mapM_eq_ok_iff.mpr forall₂,
      mapM_eq_ok_iff.mpr forall₃, mapM_eq_ok_iff.mpr forall₄]
    rfl
  · obtain ⟨origin, ⟨_, _, _, tiled₁, tiled₂, tiled₃, tiled₄⟩, hchange⟩ := h
    simp only [mapNames, bind_eq_ok_iff, mapM_eq_ok_iff] at hchange
    obtain ⟨questions, forall₁, answers, forall₂, authority, forall₃, additional, forall₄, hpure⟩ :=
      hchange
    cases hpure
    exact ⟨_, _, _, (hquestions _ _ _).mpr ⟨_, tiled₁, forall₁⟩,
      (hrecords _ _ _).mpr ⟨_, tiled₂, forall₂⟩, (hrecords _ _ _).mpr ⟨_, tiled₃, forall₃⟩,
      (hrecords _ _ _).mpr ⟨_, tiled₄, forall₄⟩⟩

/-- Changing names changes no number of items. -/
theorem Body.hasSizes_mapNames {body : Body ν} {renamed : Body μ}
    (h : body.mapNames change = .ok renamed) (sizes : SectionSizes) :
    renamed.HasSizes sizes ↔ body.HasSizes sizes := by
  simp only [mapNames, bind_eq_ok_iff, mapM_eq_ok_iff] at h
  obtain ⟨questions, forall₁, answers, forall₂, authority, forall₃, additional, forall₄, hpure⟩ := h
  cases hpure
  simp only [HasSizes, forall₁.length_eq, forall₂.length_eq, forall₃.length_eq, forall₄.length_eq]

end Renaming

namespace Message

/-- The text that is read at `start`, with the whole message for its window. -/
def NamedAt (message : Message) (text : String) (start used : Nat) : Prop :=
  message.nameAt start message.raw.length = .ok (text, used)

/-- Reading a name at an offset and resolving the run that is framed there are the same. -/
theorem namedAt_iff (message : Message) (text : String) (start used : Nat) :
    message.NamedAt text start used ↔
      ∃ run : Run, run.StandsAt message.raw start used ∧
        (run.resolve message.raw).map DomainName.text = .ok text := by
  rw [NamedAt, nameAt_eq_ok_iff, Nat.min_self, Octets.between, List.take_length]
  refine ⟨fun h => ?_, fun h => ?_⟩
  · obtain ⟨run, name, hstands, hresolve, rfl, rfl⟩ := h
    exact ⟨run, ⟨hstands, rfl⟩, by rw [hresolve]; rfl⟩
  · obtain ⟨run, ⟨hstands, rfl⟩, hmap⟩ := h
    obtain ⟨name, hresolve, rfl⟩ := map_eq_ok_iff.mp hmap
    exact ⟨run, name, hstands, hresolve, rfl, rfl⟩

/-- A message is read exactly when its header is written at the front and its items, with the
names read at their own offsets, tile what follows. -/
theorem parse_eq_ok_iff_writtenAt {raw : Octets} {message : Message} :
    parse raw = .ok message ↔
      message.raw = raw ∧ ∃ sizes bodyAt stop,
        Header.WrittenAt raw message.header sizes 0 bodyAt ∧ message.body.HasSizes sizes ∧
        Body.WrittenAt raw message.NamedAt message.body bodyAt stop := by
  rw [parse, Cursor.start_eq_within]
  simp only [bind_eq_ok_iff]
  refine ⟨fun h => ?_, fun h => ?_⟩
  · obtain ⟨⟨envelope, next⟩, henvelope, body, hbody, hpure⟩ := h
    cases hpure
    obtain ⟨stop, ⟨sizes, bodyAt, hheader, hsizes, hwritten⟩, -⟩ :=
      (Envelope.reads raw _ _ _).mp henvelope
    refine ⟨rfl, sizes, bodyAt, stop, hheader, (Body.hasSizes_mapNames hbody sizes).mpr hsizes, ?_⟩
    exact (Body.writtenAt_iff_exists_mapNames (namedAt_iff _) _ _ _).mpr ⟨_, hwritten, hbody⟩
  · obtain ⟨rfl, sizes, bodyAt, stop, hheader, hsizes, hwritten⟩ := h
    obtain ⟨body, hwritten, hbody⟩ :=
      (Body.writtenAt_iff_exists_mapNames message.namedAt_iff _ _ _).mp hwritten
    have hsizes := (Body.hasSizes_mapNames hbody sizes).mp hsizes
    have henvelope := (Envelope.reads message.raw 0 ⟨message.header, body⟩ _).mpr
      ⟨stop, ⟨sizes, bodyAt, hheader, hsizes, hwritten⟩, rfl⟩
    exact ⟨_, henvelope, message.body, hbody, rfl⟩

/-- What is read is a tiling of the octets, and every tiling is read. The header fields are the
bits of the first four octets, the sections hold as many items as the four numbers behind them
announce, and from the twelfth octet on the items lie end to end in wire order. Each item
begins with the name that is read at its own offset, and the last ends inside the octets. -/
theorem parse_eq_ok_iff_tiled (raw : Octets) (message : Message) :
    parse raw = .ok message ↔
      message.raw = raw ∧
      message.header.id.toNat = raw.number 0 2 ∧
      OpCode.codes.HasCode message.header.opcode (raw.number 2 2 / 2 ^ 11 % 2 ^ 4) ∧
      ResponseCode.codes.HasCode message.header.rcode (raw.number 2 2 % 2 ^ 4) ∧
      message.header.flags =
        { qr := (raw.number 2 2).testBit 15
          aa := (raw.number 2 2).testBit 10
          tc := (raw.number 2 2).testBit 9
          rd := (raw.number 2 2).testBit 8
          ra := (raw.number 2 2).testBit 7
          z := (raw.number 2 2).testBit 6
          ad := (raw.number 2 2).testBit 5
          cd := (raw.number 2 2).testBit 4 } ∧
      message.body.questions.length = raw.number 4 2 ∧
      message.body.answers.length = raw.number 6 2 ∧
      message.body.authority.length = raw.number 8 2 ∧
      message.body.additional.length = raw.number 10 2 ∧
      ∃ answersAt authorityAt additionalAt stop,
        Tiled (Question.WrittenAt raw message.NamedAt) 12 message.body.questions answersAt ∧
        Tiled (Record.WrittenAt raw message.NamedAt) answersAt message.body.answers authorityAt ∧
        Tiled (Record.WrittenAt raw message.NamedAt) authorityAt message.body.authority
          additionalAt ∧
        Tiled (Record.WrittenAt raw message.NamedAt) additionalAt message.body.additional stop ∧
        12 ≤ stop ∧ stop ≤ raw.length := by
  rw [parse_eq_ok_iff_writtenAt]
  refine ⟨fun h => ?_, fun h => ?_⟩
  · obtain ⟨hraw, sizes, bodyAt, stop, hheader, hsizes, hwritten⟩ := h
    obtain ⟨sizes₁, sizes₂, sizes₃, sizes₄⟩ := (hheader.hasSizes_iff _).mp hsizes
    obtain ⟨hword, -, -, -, -, rfl, hend⟩ := hheader
    obtain ⟨hstart, hstop⟩ := hwritten.le hend
    obtain ⟨hid, hopcode, hrcode, hflags⟩ := Header.eq_ofWord_iff.mp hword
    obtain ⟨_, _, _, tiled₁, tiled₂, tiled₃, tiled₄⟩ := hwritten
    have hid : message.header.id.toNat = raw.number 0 2 := by
      rw [hid]
      exact Octets.toNat_ofNat_number_two raw 0
    exact ⟨hraw, hid, hopcode, hrcode, hflags, sizes₁, sizes₂, sizes₃, sizes₄,
      _, _, _, _, tiled₁, tiled₂, tiled₃, tiled₄, hstart, hstop⟩
  · obtain ⟨hraw, hid, hopcode, hrcode, hflags, sizes₁, sizes₂, sizes₃, sizes₄, h⟩ := h
    obtain ⟨_, _, _, stop, tiled₁, tiled₂, tiled₃, tiled₄, hstart, hstop⟩ := h
    have hid : message.header.id = .ofNat (raw.number 0 2) :=
      UInt16.toNat_inj.mp (hid.trans (Octets.toNat_ofNat_number_two raw 0).symm)
    have hword := Header.eq_ofWord_iff.mpr ⟨hid, hopcode, hrcode, hflags⟩
    let sizes : SectionSizes := ⟨.ofNat (raw.number 4 2), .ofNat (raw.number 6 2),
      .ofNat (raw.number 8 2), .ofNat (raw.number 10 2)⟩
    have hheader : message.header.WrittenAt raw sizes 0 12 :=
      ⟨hword, rfl, rfl, rfl, rfl, rfl, by omega⟩
    have hsizes : message.body.HasSizes sizes :=
      (hheader.hasSizes_iff _).mpr ⟨sizes₁, sizes₂, sizes₃, sizes₄⟩
    exact ⟨hraw, sizes, 12, stop, hheader, hsizes, _, _, _, tiled₁, tiled₂, tiled₃, tiled₄⟩

end Message

end DnsTrace
