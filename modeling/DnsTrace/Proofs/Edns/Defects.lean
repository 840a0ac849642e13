import DnsTrace.Message.Trace
import DnsTrace.Proofs.Edns.Options

/-!
# Options that fail their record

An EDNS record is refused for its first defective option. There are two defects: a header that
declares more octets than are left, and a client subnet whose payload is there but lacks some of
the four fixed octets. A subnet that is too short and also passes the end of the data is refused
for passing the end, because its payload is never looked at.

What stands behind the first defect does not matter, and neither do the options in front of it:
in the trace such a record is shown by its length alone.
-/

namespace DnsTrace

namespace OptionField

/-- An option stands at the front of the octets that fails its record for this fault. -/
inductive Defective : Octets → Fault → Prop
  /-- More octets are declared than are left behind the header. -/
  | overrun {code length : UInt16} {behind : Octets} (passes : behind.length < length.toNat) :
      Defective (.ofNumber 2 code.toNat ++ (.ofNumber 2 length.toNat ++ behind))
        (.optionOverrun code length behind.length)
  /-- The payload of a client subnet is there, with less than four octets. -/
  | shortSubnet {field : OptionField} {back : Octets} (code_eq : field.code = 8)
      (short : field.payload.length < 4) :
      Defective (field.wire ++ back) (.shortClientSubnet field.payload.length)

/-- The first defective option stands behind these options, which are complete. -/
structure FailsBehind (fields : List OptionField) (rdata rest : Octets) (fault : Fault) : Prop where
  rdata_eq : rdata = fields.flatMap wire ++ rest
  complete : ∀ field ∈ fields, field.Complete
  defective : Defective rest fault

section Reading

variable {field : OptionField} {fields : List OptionField} {rdata rest : Octets} {fault : Fault}

/-- A defective option begins with a header. -/
theorem Defective.four_le (h : Defective rest fault) : 4 ≤ rest.length := by
  cases h <;>
  · simp only [wire, List.length_append, Octets.length_ofNumber]
    omega

/-- A client subnet is refused for missing octets only, by the number of those that are there. -/
theorem clientSubnet_parse_eq_error_iff (payload : Octets) :
    ClientSubnet.parse payload = .error fault ↔
      payload.length < 4 ∧ fault = .shortClientSubnet payload.length := by
  match payload with
  | [] | [_] | [_, _] | [_, _, _] => simp [ClientSubnet.parse, eq_comm]
  | _ :: _ :: _ :: _ :: _ => simp [ClientSubnet.parse]

/-- A payload is refused exactly when it is that of a client subnet with less than four octets. -/
theorem parse_eq_error_iff (code : UInt16) (payload : Octets) :
    EdnsOption.parse code payload = .error fault ↔
      code = 8 ∧ payload.length < 4 ∧ fault = .shortClientSubnet payload.length := by
  unfold EdnsOption.parse ClientSubnet.optionCode
  by_cases hcode : code = 8
  · rw [if_pos hcode, ← clientSubnet_parse_eq_error_iff]
    cases ClientSubnet.parse payload <;> simp [hcode, bind, Except.bind, pure, Except.pure]
  · rw [if_neg hcode]
    simp [hcode]

/-- Reading stops at a defective option. -/
theorem Defective.readAll_eq (h : Defective rest fault) :
    EdnsOption.readAll rest = .error fault := by
  cases h with
  | @overrun code length behind passes =>
    rw [readAll_declared, Octets.split?_eq_none_iff.mpr passes]
  | @shortSubnet field back code_eq short =>
    rw [readAll_wire, (parse_eq_error_iff _ _).mpr ⟨code_eq, short, rfl⟩]
    rfl

/-- Reading passes the complete options and stops at the first that is defective. -/
theorem FailsBehind.readAll_eq (h : FailsBehind fields rdata rest fault) :
    EdnsOption.readAll rdata = .error fault := by
  obtain ⟨rfl, hcomplete, hdefective⟩ := h
  induction fields with
  | nil => exact hdefective.readAll_eq
  | cons field fields ih =>
    obtain ⟨hfield, hfields⟩ := List.forall_mem_cons.mp hcomplete
    have hparse := (parse_eq_ok_iff field field.content).mpr ⟨hfield, rfl⟩
    rw [List.flatMap_cons, List.append_assoc, readAll_wire, hparse]
    simp only [Except.bind, ih hfields, Except.map]

/-- With an option more in front, the first defect is the same. -/
theorem FailsBehind.cons (hfield : field.Complete) (h : FailsBehind fields rdata rest fault) :
    FailsBehind (field :: fields) (field.wire ++ rdata) rest fault := by
  obtain ⟨rfl, hcomplete, hdefective⟩ := h
  refine ⟨?_, List.forall_mem_cons.mpr ⟨hfield, hcomplete⟩, hdefective⟩
  rw [List.flatMap_cons, List.append_assoc]

/-- Whatever is refused has a first defective option. -/
theorem exists_failsBehind_of_readAll (h : EdnsOption.readAll rdata = .error fault) :
    ∃ fields rest, FailsBehind fields rdata rest fault := by
  fun_induction EdnsOption.readAll rdata with
  | case1 codeHigh codeLow lengthHigh lengthLow behind code length hsplit =>
    cases h
    have hheader : codeHigh :: codeLow :: lengthHigh :: lengthLow :: behind =
        Octets.ofNumber 2 code.toNat ++ (Octets.ofNumber 2 length.toNat ++ behind) := by
      simp only [code, length, Octets.toNat_ofNat_value_pair, Octets.ofNumber_value_pair]
      rfl
    refine ⟨[], _, rfl, by simp, ?_⟩
    rw [hheader]
    exact .overrun (Octets.split?_eq_none_iff.mp hsplit)
  | case2 codeHigh codeLow lengthHigh lengthLow behind code length payload back hsplit first
      hparse =>
    cases h
    obtain ⟨field, hcode, hpayload, hwire⟩ := wire_of_split codeHigh codeLow hsplit
    obtain ⟨hsubnet, hshort, rfl⟩ := (parse_eq_error_iff _ _).mp hparse
    refine ⟨[], _, rfl, by simp, ?_⟩
    rw [hwire, ← hpayload]
    exact .shortSubnet (hcode.trans hsubnet) (hpayload ▸ hshort)
  | case3 codeHigh codeLow lengthHigh lengthLow behind code length payload back hsplit option =>
    rename_i hparse ih
    obtain ⟨field, hcode, hpayload, hwire⟩ := wire_of_split codeHigh codeLow hsplit
    have hfield : EdnsOption.parse field.code field.payload = .ok option := by
      rw [hcode, hpayload]
      exact hparse
    obtain ⟨fields, rest, hfails⟩ := ih (map_eq_error_iff.mp h)
    rw [hwire]
    exact ⟨field :: fields, rest, hfails.cons ((parse_eq_ok_iff field option).mp hfield).1⟩
  | case4 => cases h

/-- The code, the length and what stands behind them are told from the octets. -/
theorem declared_inj {code code' length length' : UInt16} {behind behind' : Octets}
    (h : Octets.ofNumber 2 code.toNat ++ (Octets.ofNumber 2 length.toNat ++ behind) =
      Octets.ofNumber 2 code'.toNat ++ (Octets.ofNumber 2 length'.toNat ++ behind')) :
    code = code' ∧ length = length' ∧ behind = behind' := by
  have hsame {word word' : UInt16}
      (h : Octets.ofNumber 2 word.toNat = Octets.ofNumber 2 word'.toNat) : word = word' := by
    have hvalue := congrArg Octets.value h
    have hword : word.toNat < 256 ^ 2 := word.toNat_lt
    have hword' : word'.toNat < 256 ^ 2 := word'.toNat_lt
    rw [Octets.value_ofNumber, Octets.value_ofNumber, Nat.mod_eq_of_lt hword,
      Nat.mod_eq_of_lt hword'] at hvalue
    exact UInt16.toNat_inj.mp hvalue
  obtain ⟨hcode, hrest⟩ := List.append_inj h (by simp only [Octets.length_ofNumber])
  obtain ⟨hlength, hbehind⟩ := List.append_inj hrest (by simp only [Octets.length_ofNumber])
  exact ⟨hsame hcode, hsame hlength, hbehind⟩

/-- An option and what stands behind it are told from the octets. -/
theorem wire_append_inj {other : OptionField} {rest' : Octets}
    (h : field.wire ++ rest = other.wire ++ rest') : field = other ∧ rest = rest' := by
  rw [wire_append, wire_append] at h
  obtain ⟨hcode, hlength, hbehind⟩ := declared_inj h
  rw [← UInt16.toNat_inj, toNat_ofNat_length, toNat_ofNat_length] at hlength
  obtain ⟨hpayload, hrest⟩ := List.append_inj hbehind hlength
  cases field
  cases other
  cases hcode
  cases hpayload
  exact ⟨rfl, hrest⟩

/-- No complete option stands where a defective one does. -/
theorem Defective.ne_wire_append (h : Defective rest fault) (hfield : field.Complete)
    (back : Octets) : rest ≠ field.wire ++ back := by
  intro hwire
  cases h with
  | @overrun code length behind passes =>
    rw [wire_append] at hwire
    obtain ⟨-, rfl, rfl⟩ := declared_inj hwire
    rw [toNat_ofNat_length, List.length_append] at passes
    omega
  | @shortSubnet other others code_eq short =>
    obtain ⟨rfl, -⟩ := wire_append_inj hwire
    have hlength := hfield code_eq
    omega

/-- There is one first defect, with one row of options in front of it. -/
theorem FailsBehind.unique (h : FailsBehind fields rdata rest fault) {fields' : List OptionField}
    {rest' : Octets} {fault' : Fault} (h' : FailsBehind fields' rdata rest' fault') :
    fields = fields' ∧ rest = rest' ∧ fault = fault' := by
  have hfault := Except.error.inj (h.readAll_eq.symm.trans h'.readAll_eq)
  obtain ⟨rfl, hcomplete, hdefective⟩ := h
  obtain ⟨hrdata, hcomplete', hdefective'⟩ := h'
  induction fields generalizing fields' with
  | nil =>
    cases fields' with
    | nil => exact ⟨rfl, hrdata, hfault⟩
    | cons other others =>
      rw [List.flatMap_cons, List.append_assoc] at hrdata
      exact absurd hrdata (hdefective.ne_wire_append (hcomplete' other List.mem_cons_self) _)
  | cons field fields ih =>
    rw [List.flatMap_cons, List.append_assoc] at hrdata
    obtain ⟨hfield, hfields⟩ := List.forall_mem_cons.mp hcomplete
    cases fields' with
    | nil => exact absurd hrdata.symm (hdefective'.ne_wire_append hfield _)
    | cons other others =>
      rw [List.flatMap_cons, List.append_assoc] at hrdata
      obtain ⟨rfl, hothers⟩ := wire_append_inj hrdata
      obtain ⟨rfl, hrest, -⟩ := ih hfields hothers (List.forall_mem_cons.mp hcomplete').2
      exact ⟨rfl, hrest, hfault⟩

end Reading

end OptionField

namespace Trace

/-- What is written for one of some items is a part of what is written for all of them. -/
theorem infix_flatMap {α : Type} {item : α} {items : List α} (h : item ∈ items)
    (write : α → Trace) : write item <:+: items.flatMap write := by
  obtain ⟨earlier, later, rfl⟩ := List.append_of_mem h
  refine ⟨earlier.flatMap write, later.flatMap write, ?_⟩
  rw [List.flatMap_append, List.flatMap_cons, List.append_assoc]

/-- An item of a section is a part of the section. -/
theorem infix_ofItems {item : Trace} {items : List Trace} (h : item ∈ items) :
    item <:+: ofItems items := by
  cases items with
  | nil => cases h
  | cons first others =>
    obtain rfl | hothers := List.mem_cons.mp h
    · exact (List.suffix_append _ _).isInfix.trans (List.prefix_append _ _).isInfix
    · have hfolded := infix_flatMap hothers fun other => [.text " ", .fold] ++ other
      exact (List.suffix_append _ _).isInfix.trans
        (hfolded.trans (List.suffix_append _ _).isInfix)

end Trace

/-- A record of a message is a part of the message's trace. -/
theorem Message.infix_trace_of_mem {message : Message} {part : Section} {record : Record String}
    (h : record ∈ message.records part) : record.trace message <:+: message.trace := by
  have hpart : Trace.ofItems (message.itemTraces part) <:+: message.trace := by
    have hmem : part ∈ Section.all := by cases part <;> decide
    have hparts := Trace.infix_flatMap hmem fun part => Trace.ofItems (message.itemTraces part)
    exact hparts.trans (List.suffix_append _ _).isInfix
  have hitem : record.trace message ∈ message.itemTraces part := by
    cases part with
    | question => cases h
    | answer | authority | additional => exact List.mem_map_of_mem h
  exact (Trace.infix_ofItems hitem).trans hpart

namespace Record

/-- An EDNS record that is refused is shown by its fixed fields and its length. -/
theorem trace_of_ofRecord_eq_error {record : Record String} (htype : record.rrType = .opt)
    {fault : Fault} (h : Edns.ofRecord record = .error fault) (message : Message) :
    record.trace message =
      [.text (record.name ++ "," ++ record.rrClass.text ++ ",OPT," ++ decimal record.ttl.toNat),
        .text (",[" ++ decimal record.rdata.length ++ "]")] := by
  have hdata : record.data message = .undecoded record.rdata.length := by
    rw [data, decode, htype, h]
    rfl
  have htext : record.text =
      record.name ++ "," ++ record.rrClass.text ++ ",OPT," ++ decimal record.ttl.toNat := by
    rw [text, htype]
    simp only [RRType.text, String.append_assoc]
    rfl
  have hlength : "," ++ (RecordData.undecoded record.rdata.length).text =
      ",[" ++ decimal record.rdata.length ++ "]" := by
    rw [RecordData.text, ← String.append_assoc, ← String.append_assoc]
    rfl
  rw [trace, hdata, htext]
  simp only [hlength]

end Record

namespace Edns

/-- An EDNS record is refused exactly for its first defective option: a header with too few octets
behind it, or a client subnet of less than four octets. All options in front of it are complete,
so there is one such option, and the fault is that of this option alone, whatever stands behind
it. In the trace of any message that holds the record, the record is its fixed fields and the
length of its data, with no option. -/
theorem ofRecord_eq_error_iff_first (record : Record String) :
    (∀ fault, ofRecord record = .error fault ↔
      ∃ fields rest, OptionField.FailsBehind fields record.rdata rest fault) ∧
    (∀ fields rest fault, OptionField.FailsBehind fields record.rdata rest fault →
      4 ≤ rest.length ∧ ∀ fields' rest' fault',
        OptionField.FailsBehind fields' record.rdata rest' fault' →
          fields = fields' ∧ rest = rest' ∧ fault = fault') ∧
    (∀ fields : List OptionField, (∀ field ∈ fields, field.Complete) →
      (∀ (code length : UInt16) (behind : Octets), behind.length < length.toNat →
        record.rdata = fields.flatMap OptionField.wire ++
          (Octets.ofNumber 2 code.toNat ++ (Octets.ofNumber 2 length.toNat ++ behind)) →
        ofRecord record = .error (.optionOverrun code length behind.length)) ∧
      ∀ (field : OptionField) (back : Octets), field.code = 8 → field.payload.length < 4 →
        record.rdata = fields.flatMap OptionField.wire ++ (field.wire ++ back) →
        ofRecord record = .error (.shortClientSubnet field.payload.length)) ∧
    (record.rrType = .opt → ∀ fault, ofRecord record = .error fault → ∀ message part,
      record ∈ message.records part →
        record.trace message <:+: message.trace ∧
        ∀ token, (record.trace message).render token =
          record.name ++ "," ++ record.rrClass.text ++ ",OPT," ++ decimal record.ttl.toNat ++
            ",[" ++ decimal record.rdata.length ++ "]") := by
  have hrefuses (fault : Fault) :
      ofRecord record = .error fault ↔ EdnsOption.readAll record.rdata = .error fault := by
    rw [ofRecord, bind_eq_error_iff]
    simp [pure, Except.pure]
  simp only [hrefuses]
  refine ⟨fun fault => ⟨OptionField.exists_failsBehind_of_readAll, ?_⟩, ?_, ?_, ?_⟩
  · rintro ⟨fields, rest, hfails⟩
    exact hfails.readAll_eq
  · intro fields rest fault hfails
    exact ⟨hfails.defective.four_le, fun fields' rest' fault' hfails' => hfails.unique hfails'⟩
  · intro fields hcomplete
    refine ⟨fun code length behind passes hrdata => ?_, fun field back hcode hshort hrdata => ?_⟩
    · exact OptionField.FailsBehind.readAll_eq ⟨hrdata, hcomplete, .overrun passes⟩
    · exact OptionField.FailsBehind.readAll_eq ⟨hrdata, hcomplete, .shortSubnet hcode hshort⟩
  · intro htype fault hfault message part hrecord
    refine ⟨message.infix_trace_of_mem hrecord, fun token => ?_⟩
    rw [record.trace_of_ofRecord_eq_error htype ((hrefuses fault).mpr hfault) message]
    simp only [Trace.render_cons, Trace.render_nil, Fragment.render, String.append_empty,
      String.append_assoc]

/-- A record whose second option is a client subnet of three octets, of which two are there. -/
def overrunRecord : Record String :=
  ⟨".", .opt, .internet, 0, [0, 3, 0, 1, 5, 0, 8, 0, 3, 0, 1], 23⟩

/-- A record whose first option is a client subnet of three octets, and whose second passes the
end. -/
def shortRecord : Record String :=
  ⟨".", .opt, .internet, 0, [0, 8, 0, 3, 0, 1, 16, 0, 3, 0, 9], 23⟩

/-- A message with both records. -/
def refusedMessage : Message where
  header := ⟨0, .query, .noError, ⟨false, false, false, false, false, false, false, false⟩⟩
  body := ⟨[], [], [], [overrunRecord, shortRecord]⟩
  raw := []

/-- The subnet that passes the end is not refused for being short, and the one in front of an
option that passes the end is. The option that is complete is not shown. -/
theorem ofRecord_overrunRecord :
    ofRecord overrunRecord = .error (.optionOverrun 8 3 2) ∧
      ofRecord shortRecord = .error (.shortClientSubnet 3) ∧
      (∃ fields rest,
        OptionField.FailsBehind fields overrunRecord.rdata rest (.optionOverrun 8 3 2)) ∧
      (overrunRecord.trace refusedMessage).render "" = ".,IN,OPT,0,[11]" := by
  obtain ⟨hiff, -, hfirst, htrace⟩ := ofRecord_eq_error_iff_first overrunRecord
  obtain ⟨-, -, hfirst', -⟩ := ofRecord_eq_error_iff_first shortRecord
  have hoverrun : ofRecord overrunRecord = .error (.optionOverrun 8 3 2) :=
    (hfirst [⟨3, [5], by decide⟩] (by decide)).1 8 3 [0, 1] (by decide) (by decide)
  have hshort : ofRecord shortRecord = .error (.shortClientSubnet 3) :=
    (hfirst' [] (by decide)).2 ⟨8, [0, 1, 16], by decide⟩ [0, 3, 0, 9] (by decide) (by decide)
      (by decide)
  have hshown := htrace rfl _ hoverrun refusedMessage .additional List.mem_cons_self
  exact ⟨hoverrun, hshort, (hiff _).mp hoverrun, hshown.2 ""⟩

end Edns

end DnsTrace
