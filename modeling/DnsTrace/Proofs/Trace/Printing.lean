import DnsTrace.Effect
import DnsTrace.Message.Trace

/-!
# Printing a trace piece by piece

A trace can also be printed while it is put together: each part of a message prints its own pieces
in turn, the parts of a part among them, and loops carry the separator that comes next. Any of
these pieces may be refused, and then nothing more is printed. `Outlet` is what refuses them: it is
offered one character after another, and may refuse any of them for any reason.

The result is that of putting the whole text of the trace at once. Each part prints its text, for
every outlet, because two texts in a row are put like one (`put_append`).
-/

namespace DnsTrace

/-- What characters are printed on: it takes or refuses a character that it is offered. -/
class Outlet (σ : Type) where
  offer : Char → σ → Bool × σ

/-- Steps that print on an outlet, and give up with the first character that is refused. -/
abbrev Printing (σ α : Type) := Effect σ Unit α

section Pieces

variable {σ : Type} [Outlet σ]

/-- Print characters up to the first that is refused. -/
def putChars : List Char → Printing σ Unit
  | [] => pure ()
  | char :: chars => fun outlet =>
      match Outlet.offer char outlet with
      | (true, next) => putChars chars next
      | (false, next) => (.error (), next)

/-- Print a text. -/
@[irreducible] def put (text : String) : Printing σ Unit := putChars text.toList

/-- Characters in a row are printed like those in front and then those behind. -/
theorem putChars_append (front back : List Char) :
    (putChars (front ++ back) : Printing σ Unit) =
      putChars front >>= fun _ => putChars back := by
  induction front with
  | nil => rfl
  | cons char front ih =>
    funext outlet
    rw [Effect.bind_apply, List.cons_append, putChars, putChars]
    dsimp only
    cases Outlet.offer char outlet with
    | mk taken next =>
      cases taken with
      | true => exact (congrFun ih next).trans (Effect.bind_apply _ _ next)
      | false => rfl

/-- Texts in a row are printed like the first and then the second. -/
theorem put_append (first second : String) :
    (put (first ++ second) : Printing σ Unit) = put first >>= fun _ => put second := by
  simp only [put, String.toList_append, putChars_append]

/-- Nothing is printed for no text. -/
theorem put_empty : (put "" : Printing σ Unit) = pure () := by
  rw [put]
  rfl

end Pieces

section Parts

variable {σ : Type} [Outlet σ]

/-- Print an operation by its mnemonic, or by its number. -/
def OpCode.print : OpCode → Printing σ Unit
  | unknown code => do
      put "OPCODE"
      put (decimal code.toNat)
  | opcode => put opcode.text

/-- Print an outcome by its mnemonic, or by its number. -/
def ResponseCode.print : ResponseCode → Printing σ Unit
  | unknown code => do
      put "RCODE"
      put (decimal code.toNat)
  | rcode => put rcode.text

/-- Print a class by its mnemonic, or by its number. -/
def RRClass.print : RRClass → Printing σ Unit
  | unknown code => do
      put "CLASS"
      put (decimal code.toNat)
  | cls => put cls.text

/-- Print a type by its mnemonic, or by its number. -/
def RRType.print : RRType → Printing σ Unit
  | unknown code => do
      put "TYPE"
      put (decimal code.toNat)
  | type => put type.text

/-- Print the flags that are set, with a separator in front of each; behind the first it is a
bar. -/
def Flags.printFrom (separator : String) : List (String × Bool) → Printing σ Unit
  | [] => pure ()
  | (name, set) :: others =>
      if set then do
        put separator
        put name
        printFrom "|" others
      else printFrom separator others

/-- Print a question. -/
def Question.print (question : Question String) : Printing σ Unit := do
  put question.name
  put ","
  question.rrClass.print
  put ","
  question.rrType.print

/-- Print the fixed fields of a record. -/
def Record.printFields (record : Record String) : Printing σ Unit := do
  put record.name
  put ","
  record.rrClass.print
  put ","
  record.rrType.print
  put ","
  put (decimal record.ttl.toNat)

/-- Print a client subnet in three parts. -/
def ClientSubnet.print (subnet : ClientSubnet) : Printing σ Unit := do
  put "edns0_client_subnet="
  match subnet.address? with
  | some address => put address.text
  | none => put "<unknown>"
  put "/"
  put (decimal subnet.source.toNat)
  put " (scope "
  put (decimal subnet.scope.toNat)
  put ")"

/-- Print an option, and behind it what it carries if that is understood. -/
def EdnsOption.print (option : EdnsOption) : Printing σ Unit := do
  put "edns0[code="
  put (decimal option.code.toNat)
  put ",codelen="
  put (decimal option.length.toNat)
  put "] "
  match option with
  | clientSubnet _ subnet => subnet.print
  | other _ _ => pure ()

/-- Print the fixed part of an EDNS record. -/
def Edns.print (edns : Edns) : Printing σ Unit := do
  put "edns0[len="
  put (decimal edns.rdlength)
  put ",UDP="
  put (decimal edns.payloadSize.toNat)
  put ",ver="
  put (decimal edns.version.toNat)
  put ",rcode="
  put (decimal edns.extendedCode.toNat)
  put ",DO="
  put (if edns.dnssecOk then "1" else "0")
  put ",z="
  put (decimal edns.z.toNat)
  put "]"

/-- Print the data of a record. -/
def RecordData.print : RecordData → Printing σ Unit
  | a address => put address.text
  | aaaa address => put address.text
  | name target => put target
  | mx preference exchange => do
      put (decimal preference.toNat)
      put ","
      put exchange
  | soa authority => do
      put authority.primary
      put ","
      put authority.mailbox
      put ","
      put (decimal authority.serial.toNat)
      put ","
      put (decimal authority.refresh.toNat)
      put ","
      put (decimal authority.retry.toNat)
      put ","
      put (decimal authority.expire.toNat)
      put ","
      put (decimal authority.minimum.toNat)
  | opt edns => edns.print
  | undecoded length => do
      put "["
      put (decimal length)
      put "]"

/-- Print a record and its data; an EDNS record is followed by its options. -/
def Record.print (message : Message) (token : String) (record : Record String) :
    Printing σ Unit := do
  record.printFields
  match record.data message with
  | .opt edns =>
      put ","
      edns.print
      put " "
      put token
      forM edns.options EdnsOption.print
  | data =>
      put ","
      data.print

/-- Print the items of a section, with a blank and a separator in front of each; behind the first
item it is the continuation token. -/
def printItems {α : Type} (token : String) (print : α → Printing σ Unit) :
    String → List α → Printing σ Unit
  | _, [] => pure ()
  | separator, item :: items => do
      put " "
      put separator
      print item
      printItems token print token items

namespace Message

/-- Print a section: its size and its items, or a zero. -/
def printSection (message : Message) (token : String) (part : Section) : Printing σ Unit := do
  if message.count part = 0 then put " 0"
  else
    put " "
    put token
    put (decimal (message.count part))
    match part with
    | .question => printItems token Question.print "" message.body.questions
    | part => printItems token (Record.print message token) "" (message.records part)

/-- Print a message. -/
def print (message : Message) (token : String) : Printing σ Unit := do
  put " "
  put token
  put "dns "
  message.header.opcode.print
  put ","
  message.header.rcode.print
  put ","
  put (decimal message.header.id.toNat)
  Flags.printFrom "," message.header.flags.named
  forM Section.all (message.printSection token)

end Message

/-- Print the reason for which a message is refused. -/
def Fault.print : Fault → Printing σ Unit
  | malformed offset defect => do
      put "malformed message at offset "
      put (decimal offset)
      put " ("
      put defect.text
      put ")"
  | truncated needed remaining => do
      put "truncated: needed "
      put (decimal needed)
      put " bytes, "
      put (decimal remaining)
      put " remaining"
  | pointerOutside target => do
      put "name pointer "
      put (decimal target)
      put " is outside the message"
  -- This text is put together where the loop is met, and printed in one piece.
  | pointerLoop target =>
      put ("Circular reference - detected a pointer we have seen already: " ++ decimal target)
  | pointerChain limit => do
      put "name follows more than "
      put (decimal limit)
      put " compression pointers"
  | nameTooLong octets => do
      put "name of "
      put (decimal octets)
      put " octets exceeds 255"
  | optionOverrun code length remaining => do
      put "edns0 option "
      put (decimal code.toNat)
      put " declares "
      put (decimal length.toNat)
      put " bytes, "
      put (decimal remaining)
      put " remaining"
  | shortClientSubnet octets => do
      put "edns0 client subnet option of "
      put (decimal octets)
      put " bytes is too short"

/-- Print a captured payload, or the reason why it is no message. -/
def printPayload (token : String) (payload : Octets) : Printing σ Unit :=
  match Message.parse payload with
  | .ok message => message.print token
  | .error fault => do
      put " "
      put token
      put "dns "
      fault.print

end Parts

section Texts

variable {σ : Type} [Outlet σ]

/-- An operation prints its text. -/
theorem OpCode.print_eq (opcode : OpCode) : (opcode.print : Printing σ Unit) = put opcode.text := by
  cases opcode with
  | unknown code => exact (put_append _ _).symm
  | _ => rfl

/-- An outcome prints its text. -/
theorem ResponseCode.print_eq (rcode : ResponseCode) :
    (rcode.print : Printing σ Unit) = put rcode.text := by
  cases rcode with
  | unknown code => exact (put_append _ _).symm
  | _ => rfl

/-- A class prints its text. -/
theorem RRClass.print_eq (cls : RRClass) : (cls.print : Printing σ Unit) = put cls.text := by
  cases cls with
  | unknown code => exact (put_append _ _).symm
  | _ => rfl

/-- A type prints its text. -/
theorem RRType.print_eq (type : RRType) : (type.print : Printing σ Unit) = put type.text := by
  cases type with
  | unknown code => exact (put_append _ _).symm
  | _ => rfl

/-- A question prints its text. -/
theorem Question.print_eq (question : Question String) :
    (question.print : Printing σ Unit) = put question.text := by
  unfold print text
  simp only [RRClass.print_eq, RRType.print_eq, String.append_assoc, put_append]

/-- A record prints the text of its fixed fields. -/
theorem Record.printFields_eq (record : Record String) :
    (record.printFields : Printing σ Unit) = put record.text := by
  unfold printFields text
  simp only [RRClass.print_eq, RRType.print_eq, String.append_assoc, put_append]

/-- A client subnet prints its text. -/
theorem ClientSubnet.print_eq (subnet : ClientSubnet) :
    (subnet.print : Printing σ Unit) = put subnet.text := by
  unfold print text
  cases subnet.address? <;>
  · simp only [Option.map, Option.getD, String.append_assoc, put_append]

/-- An option prints its text. -/
theorem EdnsOption.print_eq (option : EdnsOption) :
    (option.print : Printing σ Unit) = put option.text := by
  unfold print text
  cases option with
  | clientSubnet length subnet =>
    simp only [ClientSubnet.print_eq, String.append_assoc, put_append]
  | other code payload => simp only [String.append_assoc, put_append, put_empty]

/-- The fixed part of an EDNS record prints its text. -/
theorem Edns.print_eq (edns : Edns) : (edns.print : Printing σ Unit) = put edns.text := by
  unfold print text
  simp only [String.append_assoc, put_append]

/-- The data of a record prints its text. -/
theorem RecordData.print_eq (data : RecordData) :
    (data.print : Printing σ Unit) = put data.text := by
  unfold print text
  cases data with
  | a address => rfl
  | aaaa address => rfl
  | name target => rfl
  | mx preference exchange => simp only [String.append_assoc, put_append]
  | soa authority =>
    simp only [String.intercalate_cons_cons, String.intercalate_singleton, String.append_assoc,
      put_append]
  | opt edns => exact edns.print_eq
  | undecoded length => simp only [String.append_assoc, put_append]

/-- A fault prints its message. -/
theorem Fault.print_eq (fault : Fault) : (fault.print : Printing σ Unit) = put fault.message := by
  unfold print message
  cases fault <;> simp only [String.append_assoc, put_append]

/-- Flags print those that are set, with bars between them, behind the first separator. -/
theorem Flags.printFrom_eq (separator : String) (flags : List (String × Bool)) :
    (printFrom separator flags : Printing σ Unit) =
      put (if (flags.filter (·.2)).map (·.1) = [] then ""
        else separator ++ "|".intercalate ((flags.filter (·.2)).map (·.1))) := by
  induction flags generalizing separator with
  | nil => exact put_empty.symm
  | cons flag flags ih =>
    obtain ⟨name, set⟩ := flag
    rw [printFrom]
    cases set with
    | false => exact ih separator
    | true =>
      simp only [if_true, ih, List.filter_cons_of_pos, List.map_cons, if_neg (List.cons_ne_nil _ _)]
      cases (flags.filter (·.2)).map (·.1) with
      | nil =>
        simp only [if_true, String.intercalate_singleton, put_append, put_empty, bind_pure_unit]
      | cons next names =>
        simp only [if_neg (List.cons_ne_nil _ _), String.intercalate_cons_cons,
          String.append_assoc, put_append]

/-- The flags of a header print their text. -/
theorem Flags.print_eq (flags : Flags) :
    (printFrom "," flags.named : Printing σ Unit) = put flags.text := by
  rw [printFrom_eq, ← set, text]
  cases flags.set with
  | nil => rfl
  | cons name names => rw [if_neg (List.cons_ne_nil _ _)]

/-- Behind the first item of a section, the others print the folds in front of them and their
texts. -/
theorem printItems_eq {α : Type} {token : String} {print : α → Printing σ Unit}
    {trace : α → Trace} (h : ∀ item, print item = put ((trace item).render token))
    (items : List α) :
    printItems token print token items =
      put (Trace.render token (items.flatMap fun item => [.text " ", .fold] ++ trace item)) := by
  induction items with
  | nil => exact put_empty.symm
  | cons item items ih =>
    rw [printItems, ih, h]
    simp only [List.flatMap_cons, Trace.render_append, Trace.render_cons, Trace.render_nil,
      Fragment.render, String.append_empty, String.append_assoc, put_append]

/-- Items that print their texts print them one after the other. -/
theorem forM_eq_put {α : Type} {token : String} {print : α → Printing σ Unit} {trace : α → Trace}
    (h : ∀ item, print item = put ((trace item).render token)) (items : List α) :
    forM items print = put (Trace.render token (items.flatMap trace)) := by
  induction items with
  | nil => exact put_empty.symm
  | cons item items ih =>
    rw [List.forM_cons, ih, h, List.flatMap_cons, Trace.render_append, put_append]

/-- A record prints the text of its trace. -/
theorem Record.print_eq (message : Message) (token : String) (record : Record String) :
    (record.print message token : Printing σ Unit) =
      put ((record.trace message).render token) := by
  have hoption (option : EdnsOption) :
      (option.print : Printing σ Unit) = put (Trace.render token [.text option.text]) := by
    rw [option.print_eq, Trace.render_cons, Trace.render_nil, String.append_empty]
    rfl
  unfold print trace
  rw [record.printFields_eq]
  cases record.data message with
  | opt edns =>
    simp only [forM_eq_put hoption, edns.print_eq, List.map_eq_flatMap, List.cons_append,
      List.nil_append, Trace.render_cons, Fragment.render, String.append_assoc, put_append]
  | _ =>
    simp only [RecordData.print_eq, Trace.render_cons, Trace.render_nil, Fragment.render,
      String.append_empty, put_append]

namespace Message

/-- A section prints the text of its trace. -/
theorem printSection_eq (message : Message) (token : String) (part : Section) :
    (message.printSection token part : Printing σ Unit) =
      put ((Trace.ofItems (message.itemTraces part)).render token) := by
  have hitems {α : Type} {print : α → Printing σ Unit} {trace : α → Trace}
      (h : ∀ item, print item = put ((trace item).render token)) (items : List α) :
      (if items.length = 0 then put " 0"
        else do
          put " "
          put token
          put (decimal items.length)
          printItems token print "" items) =
        put ((Trace.ofItems (items.map trace)).render token) := by
    cases items with
    | nil => rfl
    | cons first others =>
      rw [if_neg (by simp), printItems, printItems_eq h, h, put_empty]
      simp only [List.map_cons, Trace.ofItems, List.length_cons, List.length_map, List.flatMap_map,
        List.cons_append, List.nil_append, Trace.render_cons, Trace.render_append, Fragment.render,
        put_append, pure_bind]
  have hquestion (question : Question String) :
      (question.print : Printing σ Unit) = put (question.trace.render token) := by
    rw [question.print_eq, Question.trace, Trace.render_cons, Trace.render_nil,
      String.append_empty]
    rfl
  cases part with
  | question => exact hitems hquestion message.body.questions
  | answer => exact hitems (Record.print_eq message token) message.body.answers
  | authority => exact hitems (Record.print_eq message token) message.body.authority
  | additional => exact hitems (Record.print_eq message token) message.body.additional

/-- A message prints the text of its trace. -/
theorem print_eq (message : Message) (token : String) :
    (message.print token : Printing σ Unit) = put (message.traceText token) := by
  unfold print traceText trace Header.trace
  rw [Flags.print_eq, forM_eq_put (message.printSection_eq token)]
  simp only [OpCode.print_eq, ResponseCode.print_eq, List.cons_append, List.nil_append,
    Trace.render_cons, Fragment.render, String.append_assoc, put_append]

end Message

/-- A payload prints the text of its trace. -/
theorem printPayload_eq (token : String) (payload : Octets) :
    (printPayload token payload : Printing σ Unit) =
      put ((Trace.ofPayload payload).render token) := by
  unfold printPayload Trace.ofPayload
  cases Message.parse payload with
  | ok message => exact message.print_eq token
  | error fault =>
    simp only [Fault.print_eq, Fault.trace, Trace.render_cons, Trace.render_nil, Fragment.render,
      String.append_empty, put_append]

end Texts

end DnsTrace
