import DnsTrace.Message.Trace
import DnsTrace.Proofs.RecordData.Grammar
import DnsTrace.Proofs.Text.Address

/-!
# What the trace of a record tells

A record is shown by its owner, three fixed fields and its data, with commas between them. Names
escape what master files give a meaning, and a comma has none there, so a name can have commas
that look like those between the fields. A record whose owner begins like another record, and
whose data ends like it, is shown as that other record.

The fixed fields and the numbers have no comma. So the fields are found as soon as it is known how
many commas belong to the owner: then two records with one text are the same record, and in a zone
this is true as soon as it is also known how many commas belong to the first name.
-/

namespace DnsTrace

/-- How many commas a text has. -/
def commas (text : String) : Nat :=
  text.toList.count ','

/-- Texts with the same number of commas have the same number of fields. -/
theorem length_fields_eq {text text' : String} (h : commas text = commas text') :
    (fields ',' text).length = (fields ',' text').length := by
  rw [length_fields, length_fields]
  exact congrArg Nat.succ h

namespace RecordData

/-- The types whose data has this form. -/
def types : RecordData → List RRType
  | a _ => [.a]
  | aaaa _ => [.aaaa]
  | name _ => [.ns, .ptr, .cname]
  | mx _ _ => [.mx]
  | soa _ => [.soa]
  | opt _ => [.opt]
  | undecoded _ => []

/-- The data is an address. -/
def IsAddress : RecordData → Prop
  | a _ | aaaa _ => True
  | _ => False

/-- An address is one field. -/
theorem fields_text_of_isAddress {data : RecordData} (h : data.IsAddress) :
    fields ',' data.text = [data.text.toList] := by
  cases data with
  | a address => exact fields_of_not_mem (IPv4.not_mem_dotted rfl (by decide) _)
  | aaaa address => exact fields_of_not_mem (address.not_mem_text rfl (by decide) (by decide))
  | _ => exact h.elim

/-- The fields of a zone are those of its two names and five numbers. -/
theorem fields_text_soa (authority : StartOfAuthority) :
    fields ',' (RecordData.soa authority).text =
      fields ',' authority.primary ++ (fields ',' authority.mailbox ++
        [(decimal authority.serial.toNat).toList, (decimal authority.refresh.toNat).toList,
          (decimal authority.retry.toNat).toList, (decimal authority.expire.toNat).toList,
          (decimal authority.minimum.toNat).toList]) := by
  have hnumber (n : Nat) : fields ',' (decimal n) = [(decimal n).toList] :=
    (alphanumeric_decimal n).fields_eq (by decide)
  rw [text, fields_intercalate rfl (by simp)]
  simp only [List.flatMap_cons, List.flatMap_nil, hnumber, List.append_nil, List.singleton_append]

/-- The first field of a mail exchange is its preference; the others are the name. -/
theorem fields_text_mx (preference : UInt16) (exchange : String) :
    fields ',' (RecordData.mx preference exchange).text =
      (decimal preference.toNat).toList :: fields ',' exchange := by
  rw [text, fields_append rfl, (alphanumeric_decimal _).fields_eq rfl]
  rfl

/-- The text of a zone tells the zone, when it is known how many commas belong to the first
name. -/
theorem soa_eq_of_text_eq {authority authority' : StartOfAuthority}
    (hprimary : commas authority.primary = commas authority'.primary)
    (h : (RecordData.soa authority).text = (RecordData.soa authority').text) :
    authority = authority' := by
  have hfields := congrArg (fields ',') h
  rw [fields_text_soa, fields_text_soa] at hfields
  obtain ⟨hprimary, hrest⟩ := List.append_inj hfields (length_fields_eq hprimary)
  obtain ⟨hmailbox, hnumbers⟩ := List.append_inj' hrest (by simp)
  have hnumber {n n' : UInt32} (h : decimal n.toNat = decimal n'.toNat) : n = n' :=
    UInt32.toNat_inj.mp (decimal_injective h)
  simp only [List.cons.injEq, String.toList_inj, and_true] at hnumbers
  obtain ⟨hserial, hrefresh, hretry, hexpire, hminimum⟩ := hnumbers
  obtain ⟨primary, mailbox, serial, refresh, retry, expire, minimum⟩ := authority
  rw [StartOfAuthority.mk.injEq]
  exact ⟨fields_injective ',' hprimary, fields_injective ',' hmailbox, hnumber hserial,
    hnumber hrefresh, hnumber hretry, hnumber hexpire, hnumber hminimum⟩

/-- The text tells the data of records of one type. For zones it must be known how many commas
belong to the first name. -/
theorem eq_of_text_eq {data data' : RecordData} {type : RRType} (htype : type ∈ data.types)
    (htype' : type ∈ data'.types) (hopt : type ≠ .opt)
    (hsoa : ∀ authority authority', data = .soa authority → data' = .soa authority' →
      commas authority.primary = commas authority'.primary)
    (h : data.text = data'.text) : data = data' := by
  cases data <;> cases data'
  case a.a => rw [IPv4.text_injective h]
  case aaaa.aaaa => rw [IPv6.text_injective h]
  case name.name => exact congrArg RecordData.name h
  case mx.mx preference exchange preference' exchange' =>
    have hfields := congrArg (fields ',') h
    rw [fields_text_mx, fields_text_mx, List.cons.injEq, String.toList_inj] at hfields
    obtain ⟨hpreference, hexchange⟩ := hfields
    rw [UInt16.toNat_inj.mp (decimal_injective hpreference), fields_injective ',' hexchange]
  case soa.soa authority authority' =>
    rw [soa_eq_of_text_eq (hsoa authority authority' rfl rfl) h]
  -- No other two forms belong to one type, apart from EDNS.
  all_goals simp_all [types]

end RecordData

namespace Record

variable {record record' : Record String} {message message' : Message} {data data' : RecordData}

/-- What is decoded has the form of the record's type. -/
theorem rrType_mem_types (hdecode : record.decode message = .ok data)
    (htype : record.rrType ∈ RRType.decoded) : record.rrType ∈ data.types := by
  obtain ⟨size, hsaid⟩ | ⟨hundecoded, -⟩ := decode_eq_ok_iff.mp hdecode
  · cases hsaid <;> simp_all [RecordData.types]
  · exact absurd htype hundecoded

/-- The last three fields in front of the data are the class, the type and the time to live;
those in front of them are the owner. -/
theorem fields_text (record : Record String) :
    fields ',' record.text =
      fields ',' record.name ++ [record.rrClass.text.toList, record.rrType.text.toList,
        (decimal record.ttl.toNat).toList] := by
  rw [text, fields_append rfl, fields_append rfl, fields_append rfl,
    (RRClass.mnemonics.alphanumeric_text _).fields_eq rfl,
    (RRType.mnemonics.alphanumeric_text _).fields_eq rfl,
    (alphanumeric_decimal _).fields_eq rfl, List.append_assoc, List.append_assoc]
  rfl

/-- Behind its fixed fields a record other than an EDNS record shows its data. -/
theorem render_trace (hdecode : record.decode message = .ok data)
    (htype : record.rrType ∈ RRType.decoded) (hopt : record.rrType ≠ .opt) (token : String) :
    (record.trace message).render token = record.text ++ "," ++ data.text := by
  have hmem := rrType_mem_types hdecode htype
  have hdata : record.data message = data := by
    rw [Record.data, hdecode]
  rw [trace, hdata]
  cases data with
  | opt edns => exact absurd (List.mem_singleton.mp hmem) hopt
  | _ =>
    simp only [Trace.render_cons, Trace.render_nil, Fragment.render, String.append_empty,
      String.append_assoc]

/-- The trace of a decoded record tells the record, when it is known how many commas belong to
its names. Two records that are shown alike have the same owner, class, type, time to live and
data, if their owners have equally many commas, in particular none, and the first names of two
zones do. Of addresses nothing has to be known, since they have no comma themselves. -/
theorem eq_of_render_trace_eq (record record' : Record String) (message message' : Message)
    (data data' : RecordData)
    (htype : record.rrType ∈ RRType.decoded) (htype' : record'.rrType ∈ RRType.decoded)
    (hopt : record.rrType ≠ .opt) (hopt' : record'.rrType ≠ .opt)
    (hdecode : record.decode message = .ok data) (hdecode' : record'.decode message' = .ok data')
    (token : String)
    (h : (record.trace message).render token = (record'.trace message').render token)
    (howner : data.IsAddress ∧ data'.IsAddress ∨ commas record.name = commas record'.name)
    (hprimary : ∀ authority authority', data = .soa authority → data' = .soa authority' →
      commas authority.primary = commas authority'.primary) :
    record.name = record'.name ∧ record.rrClass.code = record'.rrClass.code ∧
      record.rrType.code = record'.rrType.code ∧ record.ttl = record'.ttl ∧ data = data' := by
  rw [render_trace hdecode htype hopt, render_trace hdecode' htype' hopt'] at h
  have hfields := congrArg (fields ',') h
  rw [fields_append rfl, fields_append rfl, fields_text, fields_text] at hfields
  have hlength : (fields ',' record.name).length = (fields ',' record'.name).length := by
    obtain ⟨haddress, haddress'⟩ | hcommas := howner
    · have hlengths := congrArg List.length hfields
      rw [RecordData.fields_text_of_isAddress haddress,
        RecordData.fields_text_of_isAddress haddress'] at hlengths
      simpa using hlengths
    · exact length_fields_eq hcommas
  obtain ⟨hfixed, hdata⟩ := List.append_inj hfields (by simp [hlength])
  obtain ⟨hname, hfixed⟩ := List.append_inj hfixed hlength
  simp only [List.cons.injEq, String.toList_inj, and_true] at hfixed
  obtain ⟨hclass, hrrType, httl⟩ := hfixed
  have hrrType : record.rrType = record'.rrType := RRType.mnemonics.text_injective hrrType
  have hmem' : record.rrType ∈ data'.types := by
    rw [hrrType]
    exact rrType_mem_types hdecode' htype'
  refine ⟨fields_injective ',' hname, ?_, congrArg RRType.code hrrType, ?_, ?_⟩
  · rw [RRClass.mnemonics.text_injective hclass]
  · exact UInt32.toNat_inj.mp (decimal_injective httl)
  · exact RecordData.eq_of_text_eq (rrType_mem_types hdecode htype) hmem' hopt hprimary
      (fields_injective ',' hdata)

/-- Two name servers for a label with a comma. The first record has its names in full, the second
points to them. -/
def pointedWire : Octets :=
  [0, 1, 0x80, 0, 0, 0, 0, 2, 0, 0, 0, 0,
    3, 97, 44, 98, 0, 0, 2, 0, 1, 0, 0, 0, 0, 0, 5, 3, 120, 44, 121, 0,
    0xc0, 12, 0, 2, 0, 1, 0, 0, 0, 0, 0, 2, 0xc0, 27]

/-- The first record in `pointedWire`. -/
def fullRecord : Record String := ⟨"a,b", .ns, .internet, 0, [3, 120, 44, 121, 0], 27⟩

/-- The second record in `pointedWire`. -/
def pointingRecord : Record String := ⟨"a,b", .ns, .internet, 0, [0xc0, 27], 44⟩

/-- The message in `pointedWire`. -/
def pointedMessage : Message where
  header := ⟨1, .query, .noError, ⟨true, false, false, false, false, false, false, false⟩⟩
  body := ⟨[], [fullRecord, pointingRecord], [], []⟩
  raw := pointedWire

/-- Both records are shown alike, and they are the same but for the octets of their data. -/
theorem render_trace_pointedMessage :
    Message.parse pointedWire = .ok pointedMessage ∧
      pointedMessage.records .answer = [fullRecord, pointingRecord] ∧
      fullRecord.decode pointedMessage = .ok (.name "x,y") ∧
      pointingRecord.decode pointedMessage = .ok (.name "x,y") ∧
      (fullRecord.trace pointedMessage).render "" =
        (pointingRecord.trace pointedMessage).render "" ∧
      fullRecord.name = pointingRecord.name ∧
      fullRecord.rrClass.code = pointingRecord.rrClass.code ∧
      fullRecord.rrType.code = pointingRecord.rrType.code ∧
      fullRecord.ttl = pointingRecord.ttl ∧ RecordData.name "x,y" = .name "x,y" := by
  have hfull : fullRecord.decode pointedMessage = .ok (.name "x,y") := by with_unfolding_all rfl
  have hpointing : pointingRecord.decode pointedMessage = .ok (.name "x,y") := by
    with_unfolding_all rfl
  have htrace : (fullRecord.trace pointedMessage).render "" =
      (pointingRecord.trace pointedMessage).render "" := by
    rw [render_trace hfull (by decide) (by decide), render_trace hpointing (by decide) (by decide)]
    rfl
  exact ⟨by with_unfolding_all rfl, rfl, hfull, hpointing, htrace,
    eq_of_render_trace_eq fullRecord pointingRecord pointedMessage pointedMessage _ _ (by decide)
      (by decide) (by decide) (by decide) hfull hpointing "" htrace (.inr rfl) nofun⟩

/-- Two name servers and two zones. In each pair a name ends with what looks like the fields behind
it, and the other names are what is left. -/
def forgedWire : Octets :=
  [0, 1, 0x80, 0, 0, 0, 0, 4, 0, 0, 0, 0,
    1, 97, 0, 0, 2, 0, 1, 0, 0, 0, 0, 0, 13,
      11, 98, 44, 73, 78, 44, 78, 83, 44, 48, 44, 99, 0,
    11, 97, 44, 73, 78, 44, 78, 83, 44, 48, 44, 98, 0, 0, 2, 0, 1, 0, 0, 0, 0, 0, 3, 1, 99, 0,
    1, 122, 0, 0, 6, 0, 1, 0, 0, 0, 0, 0, 28, 3, 97, 44, 98, 0, 1, 99, 0,
      0, 0, 0, 0, 0, 0, 0, 0, 0, 0, 0, 0, 0, 0, 0, 0, 0, 0, 0, 0,
    1, 122, 0, 0, 6, 0, 1, 0, 0, 0, 0, 0, 28, 1, 97, 0, 3, 98, 44, 99, 0,
      0, 0, 0, 0, 0, 0, 0, 0, 0, 0, 0, 0, 0, 0, 0, 0, 0, 0, 0, 0]

/-- The name server of `a`. -/
def shortServer : Record String :=
  ⟨"a", .ns, .internet, 0, [11, 98, 44, 73, 78, 44, 78, 83, 44, 48, 44, 99, 0], 25⟩

/-- The name server of a label that looks like the fields of a record. -/
def longServer : Record String := ⟨"a,IN,NS,0,b", .ns, .internet, 0, [1, 99, 0], 61⟩

/-- A zone whose first name has a comma. -/
def primaryZone : Record String :=
  ⟨"z", .soa, .internet, 0, [3, 97, 44, 98, 0, 1, 99, 0] ++ List.replicate 20 0, 77⟩

/-- A zone whose second name has a comma. -/
def mailboxZone : Record String :=
  ⟨"z", .soa, .internet, 0, [1, 97, 0, 3, 98, 44, 99, 0] ++ List.replicate 20 0, 118⟩

/-- The message in `forgedWire`. -/
def forgedMessage : Message where
  header := ⟨1, .query, .noError, ⟨true, false, false, false, false, false, false, false⟩⟩
  body := ⟨[], [shortServer, longServer, primaryZone, mailboxZone], [], []⟩
  raw := forgedWire

set_option maxRecDepth 1000 in
/-- Records with different names can be shown alike: two name servers with different owners and
targets, and two zones of one owner with different names. -/
theorem render_trace_forgedMessage :
    Message.parse forgedWire = .ok forgedMessage ∧
      forgedMessage.records .answer = [shortServer, longServer, primaryZone, mailboxZone] ∧
      shortServer.decode forgedMessage = .ok (.name "b,IN,NS,0,c") ∧
      longServer.decode forgedMessage = .ok (.name "c") ∧
      primaryZone.decode forgedMessage = .ok (.soa ⟨"a,b", "c", 0, 0, 0, 0, 0⟩) ∧
      mailboxZone.decode forgedMessage = .ok (.soa ⟨"a", "b,c", 0, 0, 0, 0, 0⟩) ∧
      (shortServer.trace forgedMessage).render "" = (longServer.trace forgedMessage).render "" ∧
      (primaryZone.trace forgedMessage).render "" = (mailboxZone.trace forgedMessage).render "" ∧
      shortServer.name ≠ longServer.name ∧
      RecordData.name "b,IN,NS,0,c" ≠ .name "c" ∧
      RecordData.soa ⟨"a,b", "c", 0, 0, 0, 0, 0⟩ ≠ .soa ⟨"a", "b,c", 0, 0, 0, 0, 0⟩ := by
  refine ⟨?_, rfl, ?_, ?_, ?_, ?_, ?_, ?_, by decide, by decide, by decide⟩ <;>
    with_unfolding_all rfl

end Record

end DnsTrace
