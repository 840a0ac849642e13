import DnsTrace.Message.Trace
import DnsTrace.Proofs.InPlace.Options
import DnsTrace.Proofs.RecordData.Grammar

/-!
# Traces read in place

The trace of a payload reads all of it in place: the message, and the data of every record by its
type. It shows the length of an option as a word of sixteen bits.

Every payload is read in place to the end, with the result that reading by positions gives. So no
payload makes a slice bound pass the last octet, a difference of lengths negative, a copy longer
or shorter than its field, or a shown length other than the one that was declared.
-/

namespace DnsTrace

namespace InPlace

/-- Decode the data of a record by its type. -/
def decode (record : Record String) (message : Message) : Attempt Fault RecordData :=
  match record.rrType with
  | .soa => readData (startOfAuthority record message) record.rdata
  | .a => readData ipv4 record.rdata
  | .aaaa => readData ipv6 record.rdata
  | .mx => readData (mailExchange record message) record.rdata
  | .ns => readData (target record message) record.rdata
  | .ptr => readData (target record message) record.rdata
  | .cname => readData (target record message) record.rdata
  | .opt => return .opt (← edns record)
  | _ => return .undecoded record.rdlength

/-- The length that is shown of an option. -/
def shownLength? : EdnsOption → Option UInt16
  | .clientSubnet length _ => some length
  | .other _ payload => narrow? payload.length

/-- An option as it appears in a trace. -/
def optionText? (option : EdnsOption) : Option String := do
  let length ← shownLength? option
  return "edns0[code=" ++ decimal option.code.toNat ++ ",codelen=" ++ decimal length.toNat ++
    "] " ++
    match option with
    | .clientSubnet _ subnet => subnet.text
    | .other _ _ => ""

/-- A record in a trace. -/
def recordTrace? (record : Record String) (message : Message) : Option Trace := do
  match ← (decode record message).run with
  | .ok (.opt edns) =>
      let options ← edns.options.mapM optionText?
      return .text record.text ::
        ([.text ("," ++ edns.text ++ " "), .fold] ++ options.map .text)
  | .ok data => return [.text record.text, .text ("," ++ data.text)]
  | .error _ =>
      return [.text record.text, .text ("," ++ (RecordData.undecoded record.rdlength).text)]

/-- The items of a section in a trace. -/
def itemTraces? (message : Message) : Section → Option (List Trace)
  | .question => some (message.body.questions.map Question.trace)
  | part => (message.records part).mapM (recordTrace? · message)

/-- The trace of a message. -/
def messageTrace? (message : Message) : Option Trace := do
  let parts ← Section.all.mapM fun part => return Trace.ofItems (← itemTraces? message part)
  return message.header.trace ++ parts.flatten

/-- The trace of a captured payload. -/
def trace? (payload : Octets) : Option Trace := do
  match ← (parse payload).run with
  | .ok message => messageTrace? message
  | .error fault => return fault.trace

/-- Record data of every type is read in place. -/
theorem decode_eq (record : Record String) (message : Message) :
    decode record message = settled (record.decode message) := by
  rw [decode, Record.decode]
  cases record.rrType with
  | soa => exact startOfAuthority_eq record message
  | a => exact ipv4_eq record
  | aaaa => exact ipv6_eq record
  | mx => exact mailExchange_eq record message
  | ns | ptr | cname => exact target_eq record message
  | opt =>
    rw [edns_eq]
    cases Edns.ofRecord record <;> rfl
  | _ => rfl

/-- The length of a payload is kept when it is shown. -/
theorem optionText?_content (field : OptionField) :
    optionText? field.content = some field.content.text := by
  have hshown : shownLength? field.content = some field.content.length := by
    have hpayload := field.payload_length
    rw [OptionField.content]
    by_cases hcode : field.code = 8
    · rw [if_pos hcode]
      rfl
    · rw [if_neg hcode]
      exact narrow?_of_lt (by omega)
  rw [optionText?.eq_def, hshown]
  rfl

/-- The options of an EDNS record are the contents of the options that fill its data. -/
theorem exists_fill_of_ofRecord {record : Record String} {edns : Edns}
    (h : Edns.ofRecord record = .ok edns) :
    ∃ fields, OptionField.Fill fields record.rdata ∧
      edns.options = fields.map OptionField.content := by
  have hread := ((Edns.ofRecord_eq_ok_iff_readAll record edns).mp h).1
  obtain ⟨fields, hfill⟩ := OptionField.exists_fill_of_readAll hread
  rw [OptionField.readAll_of_fill hfill, Except.ok.injEq] at hread
  exact ⟨fields, hfill, hread.symm⟩

/-- The options of an EDNS record are shown with the lengths that they declare. -/
theorem mapM_optionText?_of_ofRecord {record : Record String} {edns : Edns}
    (h : Edns.ofRecord record = .ok edns) :
    edns.options.mapM optionText? = some (edns.options.map EdnsOption.text) := by
  obtain ⟨fields, -, hoptions⟩ := exists_fill_of_ofRecord h
  rw [hoptions, List.mapM_map, List.map_map]
  simp only [Function.comp_def, optionText?_content]
  exact List.mapM_pure

/-- A record is traced in place. -/
theorem recordTrace?_eq (record : Record String) (message : Message) :
    recordTrace? record message = some (record.trace message) := by
  rw [recordTrace?, decode_eq, Record.trace, Record.data]
  cases hdecode : record.decode message with
  | error fault => rfl
  | ok data =>
    cases data with
    | opt edns =>
      have hedns : Edns.ofRecord record = .ok edns := by
        obtain ⟨_, hsays⟩ | ⟨-, hdata⟩ := Record.decode_eq_ok_iff.mp hdecode
        · cases hsays with
          | opt _ read => exact read
        · cases hdata
      show (edns.options.mapM optionText? >>= fun options => some _) = some _
      rw [mapM_optionText?_of_ofRecord hedns]
      simp only [Option.bind_eq_bind, Option.bind_some, List.map_map, Function.comp_def]
    | _ => rfl

/-- A message is traced in place. -/
theorem messageTrace?_eq (message : Message) : messageTrace? message = some message.trace := by
  have hrecord : (recordTrace? · message) = fun record => pure (record.trace message) :=
    funext fun record => recordTrace?_eq record message
  have hitems : ∀ part, itemTraces? message part = some (message.itemTraces part) := by
    intro part
    cases part with
    | question => rfl
    | _ =>
      show List.mapM (recordTrace? · message) _ = _
      rw [hrecord]
      exact List.mapM_pure
  have hparts : (Section.all.mapM fun part => do
      let items ← itemTraces? message part
      return Trace.ofItems items) =
        some (Section.all.map fun part => Trace.ofItems (message.itemTraces part)) := by
    simp only [hitems]
    exact List.mapM_pure
  rw [messageTrace?, hparts]
  show some (message.header.trace ++ (Section.all.map _).flatten) = some message.trace
  rw [← List.flatMap_def, Message.trace]

/-- A captured payload is traced in place. -/
theorem trace?_eq (payload : Octets) : trace? payload = some (Trace.ofPayload payload) := by
  rw [trace?, parse_eq, Trace.ofPayload]
  cases Message.parse payload with
  | ok message => exact messageTrace?_eq message
  | error fault => rfl

/-- Every payload is read and traced in place to the end, as it is read and traced by positions;
so is the data of every record, and every name at any offset and limit. The lengths that are
shown of the options of an EDNS record are the lengths that were written. -/
theorem reads_every_payload (payload : Octets) :
    parse payload = some (Message.parse payload) ∧
      askedName payload = some (Message.readAskedName payload) ∧
      trace? payload = some (Trace.ofPayload payload) ∧
      ∀ message : Message,
        (∀ offset limit, nameAt message offset limit = some (message.nameAt offset limit)) ∧
        ∀ record : Record String, decode record message = some (record.decode message) ∧
          ∀ edns, Edns.ofRecord record = .ok edns →
            ∃ fields, OptionField.Fill fields record.rdata ∧
              edns.options.map (fun option => (option.code, option.length.toNat)) =
                fields.map fun field => (field.code, field.payload.length) := by
  refine ⟨parse_eq payload, askedName_eq payload, trace?_eq payload, fun message =>
    ⟨nameAt_eq message, fun record => ⟨decode_eq record message, fun edns hedns => ?_⟩⟩⟩
  obtain ⟨fields, hfill, hoptions⟩ := exists_fill_of_ofRecord hedns
  refine ⟨fields, hfill, ?_⟩
  rw [hoptions, List.map_map]
  exact List.map_congr_left fun field _ => congrArg₂ Prod.mk field.code_content field.length_content

/-- A message whose only record is `Edns.stepRecord`. -/
def stepMessage : Message where
  header := .ofWire 1 0 0
  body := ⟨[], [], [], [{ Edns.stepRecord with rdataOffset := 23 }]⟩
  raw := [0, 1, 0, 0, 0, 0, 0, 0, 0, 0, 0, 1, 0, 0, 41, 0, 1, 1, 2, 0xff, 0xff, 0, 38] ++
    Edns.stepRecord.rdata

/-- The record of `stepMessage` is read in place, and the three lengths that are shown of its
options are those that its data declares. -/
theorem reads_stepMessage :
    parse stepMessage.raw = some (.ok stepMessage) ∧
      ∃ record edns fields, stepMessage.records .additional = [record] ∧
        decode record stepMessage = some (.ok (.opt edns)) ∧
        OptionField.Fill fields record.rdata ∧
        fields.map (fun field => (field.code, field.payload.length)) =
          [(3, 1), (8, 21), (10, 2)] := by
  obtain ⟨hread, -, -, hmessages⟩ := reads_every_payload stepMessage.raw
  have hparse : Message.parse stepMessage.raw = .ok stepMessage := by with_unfolding_all rfl
  rw [hparse] at hread
  let record : Record String := { Edns.stepRecord with rdataOffset := 23 }
  let options : List EdnsOption := [.other 3 [5],
    .clientSubnet 21 ⟨1, 16, 0, #v[10, 1, 0, 0, 1, 2, 3, 4, 5, 6, 7, 8, 9, 10, 11, 12]⟩,
    .other 10 [0xab, 0xcd]]
  have hall : EdnsOption.readAll record.rdata = .ok options := by with_unfolding_all rfl
  obtain ⟨edns, hedns, hshown⟩ : ∃ edns, Edns.ofRecord record = .ok edns ∧
      edns.options = options := by
    rw [Edns.ofRecord, hall]
    exact ⟨_, rfl, rfl⟩
  obtain ⟨-, hrecords⟩ := hmessages stepMessage
  obtain ⟨hdecode, hoptions⟩ := hrecords record
  obtain ⟨fields, hfill, hlengths⟩ := hoptions edns hedns
  have hdata : record.decode stepMessage = .ok (.opt edns) := by
    show (Edns.ofRecord record).map RecordData.opt = .ok (.opt edns)
    rw [hedns]
    rfl
  rw [hdata] at hdecode
  rw [hshown] at hlengths
  exact ⟨hread, record, edns, fields, rfl, hdecode, hfill, hlengths.symm⟩

end InPlace

end DnsTrace
