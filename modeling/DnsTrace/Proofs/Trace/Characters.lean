import DnsTrace.Format
import DnsTrace.Proofs.Message.Names
import DnsTrace.Proofs.RecordData.Grammar
import DnsTrace.Proofs.Text.Digits

/-!
# The characters of a trace

A payload comes from the network, so its octets may hold anything. What is written of it does
not: names are escaped to visible characters, numbers are digits, and every other text is one
of the texts of this library. So the pieces of a payload's trace have no control characters,
and in particular no newline of their own.

This is said with a lower bound, since names have no blank either while the other texts have.
-/

namespace DnsTrace

/-- The characters of the text lie between `low` and the last visible one of ASCII. -/
def VisibleFrom (low : Nat) (text : String) : Prop :=
  ∀ char ∈ text.toList, low ≤ char.toNat ∧ char.toNat ≤ 0x7e

instance (low : Nat) (text : String) : Decidable (VisibleFrom low text) :=
  List.decidableBAll (fun char : Char => low ≤ char.toNat ∧ char.toNat ≤ 0x7e) text.toList

/-- The text has visible characters of ASCII and blanks only. -/
abbrev Printable (text : String) : Prop := VisibleFrom 0x20 text

namespace VisibleFrom

variable {low : Nat}

/-- A bound can be lowered. -/
theorem of_le {text : String} (h : VisibleFrom low text) {low' : Nat} (hlow : low' ≤ low) :
    VisibleFrom low' text := by
  intro char hchar
  have hvisible := h char hchar
  omega

/-- Two texts in a row are visible if both are. -/
@[simp] theorem append_iff {first second : String} :
    VisibleFrom low (first ++ second) ↔ VisibleFrom low first ∧ VisibleFrom low second := by
  simp only [VisibleFrom, String.toList_append, List.forall_mem_append]

/-- Joined texts are visible if they and the separator are. -/
theorem intercalate {separator : String} (hseparator : VisibleFrom low separator)
    {texts : List String} (h : ∀ text ∈ texts, VisibleFrom low text) :
    VisibleFrom low (separator.intercalate texts) := by
  induction texts with
  | nil => simp [VisibleFrom]
  | cons text texts ih =>
    have hfirst := h text List.mem_cons_self
    have hrest := ih fun other hother => h other (List.mem_cons_of_mem _ hother)
    cases texts with
    | nil => rwa [String.intercalate_singleton]
    | cons next texts =>
      rw [String.intercalate_cons_cons, append_iff, append_iff]
      exact ⟨⟨hfirst, hseparator⟩, hrest⟩

end VisibleFrom

section Numbers

/-- Digits of every base are visible characters. -/
theorem digitChar_visible (n : Nat) :
    0x21 ≤ n.digitChar.toNat ∧ n.digitChar.toNat ≤ 0x7e := by
  by_cases hn : n < 16
  · have hdigits : ∀ digit < 16, 0x21 ≤ digit.digitChar.toNat ∧ digit.digitChar.toNat ≤ 0x7e := by
      decide
    exact hdigits n hn
  · rw [Nat.digitChar_eq_star.mpr (by omega)]
    decide

/-- The digits of a number are visible characters. -/
theorem toDigits_visible {base : Nat} (hbase : 1 < base) (n : Nat) :
    ∀ char ∈ Nat.toDigits base n, 0x21 ≤ char.toNat ∧ char.toNat ≤ 0x7e :=
  forall_mem_toDigits hbase (fun digit _ => digitChar_visible digit) n

/-- A number in base ten is visible. -/
@[simp] theorem printable_decimal (n : Nat) : Printable (decimal n) := by
  have hvisible : VisibleFrom 0x21 (decimal n) := by
    rw [VisibleFrom, toList_decimal]
    exact toDigits_visible (by decide) n
  exact hvisible.of_le (by decide)

/-- A number in base sixteen is visible. -/
@[simp] theorem printable_hexadecimal (n : Nat) : Printable (hexadecimal n) := by
  have hvisible : VisibleFrom 0x21 (hexadecimal n) := by
    rw [VisibleFrom, toList_hexadecimal]
    exact toDigits_visible (by decide) n
  exact hvisible.of_le (by decide)

end Numbers

section Names

/-- Every octet is shown by visible characters. -/
theorem Label.OctetShownAs.visible {octet : UInt8} {chars : List Char}
    (h : OctetShownAs octet chars) : ∀ char ∈ chars, 0x21 ≤ char.toNat ∧ char.toNat ≤ 0x7e := by
  cases h with
  | quoted _ hmeaning =>
    simp only [List.forall_mem_cons]
    exact ⟨by decide, visible_of_mem_meaningful _ hmeaning, List.forall_mem_nil _⟩
  | plain hstands _ hvisible =>
    rw [List.forall_mem_singleton, hstands]
    exact hvisible
  | numbered =>
    simp only [List.forall_mem_cons]
    exact ⟨by decide, digitChar_visible _, digitChar_visible _, digitChar_visible _,
      List.forall_mem_nil _⟩

/-- Escaped labels and the dots between them are visible. -/
theorem DomainName.joined_visible (name : DomainName) :
    ∀ char ∈ joined name, 0x21 ≤ char.toNat ∧ char.toNat ≤ 0x7e := by
  have hlabel (label : Label) :
      ∀ char ∈ label.escape, 0x21 ≤ char.toNat ∧ char.toNat ≤ 0x7e := by
    intro char hchar
    obtain ⟨octet, -, hoctet⟩ := List.mem_flatMap.mp hchar
    exact (Label.octetShownAs_escapeOctet octet).visible char hoctet
  fun_induction joined name with
  | case1 => exact fun _ hchar => absurd hchar List.not_mem_nil
  | case2 label => exact hlabel label
  | case3 label labels _ ih =>
    intro char hchar
    rcases List.mem_append.mp hchar with hfirst | hrest
    · exact hlabel label char hfirst
    · rcases List.mem_cons.mp hrest with rfl | hrest
      · decide
      · exact ih char hrest

/-- A name has visible characters only, and no blank. -/
theorem DomainName.visible_text (name : DomainName) : VisibleFrom 0x21 name.text := by
  by_cases h : name = []
  · rw [h, text_root]
    decide
  · rw [VisibleFrom, toList_text_of_ne_root h]
    exact joined_visible name

/-- A name that is read in a message has visible characters only. -/
theorem Message.visible_of_nameAt {message : Message} {offset limit used : Nat} {text : String}
    (h : message.nameAt offset limit = .ok (text, used)) : VisibleFrom 0x21 text := by
  obtain ⟨run, name, -, -, rfl, -⟩ := nameAt_eq_ok_iff.mp h
  exact name.visible_text

/-- The names of the items of a message that was read have visible characters only. -/
theorem Message.visible_names_of_parse {raw : Octets} {message : Message}
    (h : parse raw = .ok message) : ∀ name ∈ message.body.names, VisibleFrom 0x21 name := by
  obtain ⟨-, _, _, _, -, -, hbody⟩ := parse_eq_ok_iff_writtenAt.mp h
  intro name hname
  obtain ⟨start, used, hnamed⟩ := hbody.exists_named hname
  exact visible_of_nameAt hnamed

end Names

section Fields

/-- A printable text stays printable with a number behind it. -/
theorem VisibleFrom.append_decimal {text : String} (h : Printable text) (n : Nat) :
    Printable (text ++ decimal n) :=
  append_iff.mpr ⟨h, printable_decimal n⟩

/-- The text of a class is printable. -/
@[simp] theorem RRClass.printable_text (cls : RRClass) : Printable cls.text := by
  cases cls with
  | unknown code => exact VisibleFrom.append_decimal (by decide) code.toNat
  | _ => decide

/-- The text of a type is printable. -/
@[simp] theorem RRType.printable_text (type : RRType) : Printable type.text := by
  cases type with
  | unknown code => exact VisibleFrom.append_decimal (by decide) code.toNat
  | _ => decide

/-- The text of an operation is printable. -/
@[simp] theorem OpCode.printable_text (opcode : OpCode) : Printable opcode.text := by
  cases opcode with
  | unknown code => exact VisibleFrom.append_decimal (by decide) code.toNat
  | _ => decide

/-- The text of an outcome is printable. -/
@[simp] theorem ResponseCode.printable_text (rcode : ResponseCode) : Printable rcode.text := by
  cases rcode with
  | unknown code => exact VisibleFrom.append_decimal (by decide) code.toNat
  | _ => decide

/-- The list of the flags that are set is printable. -/
@[simp] theorem Flags.printable_text (flags : Flags) : Printable flags.text := by
  have hset : ∀ name ∈ flags.set, Printable name := by
    intro name hname
    obtain ⟨flag, hflag, rfl⟩ := List.mem_map.mp hname
    have hmem : flag.1 ∈ flags.named.map (·.1) :=
      List.mem_map_of_mem (List.mem_filter.mp hflag).1
    have hnamed : ∀ name ∈ ["qr", "aa", "tc", "rd", "ra", "z", "ad", "cd"], Printable name := by
      decide
    exact hnamed flag.1 hmem
  unfold text
  split
  · decide
  · exact VisibleFrom.append_iff.mpr ⟨by decide, VisibleFrom.intercalate (by decide) hset⟩

/-- Octets in decimal, joined by dots, are printable. -/
theorem IPv4.printable_dotted (octets : Octets) : Printable (dotted octets) := by
  apply VisibleFrom.intercalate (by decide)
  intro text htext
  obtain ⟨octet, -, rfl⟩ := List.mem_map.mp htext
  exact printable_decimal _

/-- Groups in hexadecimal, joined by colons, are printable. -/
theorem IPv6.printable_colonned (groups : List Nat) : Printable (colonned groups) := by
  apply VisibleFrom.intercalate (by decide)
  intro text htext
  obtain ⟨group, -, rfl⟩ := List.mem_map.mp htext
  exact printable_hexadecimal _

/-- The text of an IPv6 address is printable. -/
theorem IPv6.printable_text (address : IPv6) : Printable address.text := by
  unfold text
  split
  · exact VisibleFrom.append_iff.mpr ⟨by decide, IPv4.printable_dotted _⟩
  · unfold compressed
    dsimp only
    split
    · simp only [VisibleFrom.append_iff, printable_colonned, and_true, true_and]
      decide
    · exact printable_colonned _

/-- The text of an address is printable. -/
theorem Address.printable_text (address : Address) : Printable address.text := by
  cases address with
  | v4 address => exact IPv4.printable_dotted _
  | v6 address => exact address.printable_text

end Fields

section Edns

/-- The text of a client subnet is printable. -/
theorem ClientSubnet.printable_text (subnet : ClientSubnet) : Printable subnet.text := by
  have haddress : Printable ((subnet.address?.map Address.text).getD "<unknown>") := by
    cases subnet.address? with
    | none => decide
    | some address => exact address.printable_text
  unfold text
  simp only [VisibleFrom.append_iff, printable_decimal, haddress, and_true]
  decide

/-- The text of an option is printable; its payload is not part of it. -/
theorem EdnsOption.printable_text (option : EdnsOption) : Printable option.text := by
  cases option with
  | clientSubnet length subnet =>
    unfold text
    simp only [VisibleFrom.append_iff, printable_decimal, subnet.printable_text, and_true]
    decide
  | other code payload =>
    unfold text
    simp only [VisibleFrom.append_iff, printable_decimal, and_true]
    decide

/-- The text of the fixed part of an EDNS record is printable. -/
theorem Edns.printable_text (edns : Edns) : Printable edns.text := by
  have hbit : Printable (if edns.dnssecOk then "1" else "0") := by
    split <;> decide
  unfold text
  simp only [VisibleFrom.append_iff, printable_decimal, hbit, and_true]
  decide

end Edns

/-- The data of a record is printable, whatever octets it holds. -/
theorem Record.printable_data (record : Record String) (message : Message) :
    Printable (record.data message).text := by
  have hlength : Printable (RecordData.undecoded record.rdlength).text := by
    simp only [RecordData.text, VisibleFrom.append_iff, printable_decimal, and_true]
    decide
  have hname {name : String} {position used : Nat}
      (h : record.Embeds message name position used) : Printable name :=
    (Message.visible_of_nameAt h).of_le (by decide)
  unfold data
  cases hdecode : record.decode message with
  | error fault => exact hlength
  | ok data =>
    rcases decode_eq_ok_iff.mp hdecode with ⟨size, hsaid⟩ | ⟨-, rfl⟩
    · cases hsaid with
      | a => exact IPv4.printable_dotted _
      | @aaaa address => exact address.printable_text
      | name _ named => exact hname named
      | mx _ _ _ named =>
        simp only [RecordData.text, VisibleFrom.append_iff, printable_decimal, hname named,
          and_true]
        decide
      | soa _ primary mailbox =>
        apply VisibleFrom.intercalate (by decide)
        simp only [List.forall_mem_cons, printable_decimal, hname primary, hname mailbox]
        simp
      | @opt edns => exact edns.printable_text
    · exact hlength

/-- The wording of a fault is printable. -/
theorem Fault.printable_message (fault : Fault) : Printable fault.message := by
  cases fault with
  | malformed offset defect =>
    have hdefect : Printable defect.text := by
      cases defect <;> decide
    unfold message
    simp only [VisibleFrom.append_iff, printable_decimal, hdefect, and_true]
    decide
  | _ =>
    unfold message
    simp only [VisibleFrom.append_iff, printable_decimal, and_true]
    decide

namespace Trace

/-- All pieces of text in the trace are printable. -/
def AllPrintable (trace : Trace) : Prop :=
  ∀ content, .text content ∈ trace → Printable content

/-- Of two traces in a row all pieces are printable if this holds of both. -/
@[simp] theorem allPrintable_append {first second : Trace} :
    AllPrintable (first ++ second) ↔ AllPrintable first ∧ AllPrintable second := by
  simp only [AllPrintable, List.mem_append, or_imp, forall_and]

/-- A piece of text in front is printable with the others. -/
@[simp] theorem allPrintable_text {content : String} {trace : Trace} :
    AllPrintable (.text content :: trace) ↔ Printable content ∧ AllPrintable trace := by
  simp only [AllPrintable, List.mem_cons, Fragment.text.injEq, or_imp, forall_and, forall_eq]

/-- A fold has no text. -/
@[simp] theorem allPrintable_fold {trace : Trace} :
    AllPrintable (.fold :: trace) ↔ AllPrintable trace := by
  simp only [AllPrintable, List.mem_cons, reduceCtorEq, false_or]

/-- An empty trace has no text. -/
@[simp] theorem allPrintable_nil : AllPrintable [] := by
  intro content hcontent
  cases hcontent

/-- Traces in a row are printable if each is. -/
theorem allPrintable_flatMap {α : Type} {items : List α} {trace : α → Trace}
    (h : ∀ item ∈ items, AllPrintable (trace item)) : AllPrintable (items.flatMap trace) := by
  intro content hcontent
  obtain ⟨item, hitem, hcontent⟩ := List.mem_flatMap.mp hcontent
  exact h item hitem content hcontent

/-- A section is printable if its items are. -/
theorem allPrintable_ofItems {items : List Trace} (h : ∀ item ∈ items, AllPrintable item) :
    AllPrintable (ofItems items) := by
  cases items with
  | nil =>
    simp only [ofItems, allPrintable_text, allPrintable_nil, and_true]
    decide
  | cons first others =>
    have hfirst := h first List.mem_cons_self
    have hothers : AllPrintable (others.flatMap fun item => [.text " ", .fold] ++ item) := by
      apply allPrintable_flatMap
      intro item hitem
      simp only [List.cons_append, List.nil_append, allPrintable_text, allPrintable_fold,
        h item (List.mem_cons_of_mem _ hitem), and_true]
      decide
    have hhead : AllPrintable
        [.text " ", .fold, .text (decimal (first :: others).length), .text " "] := by
      simp only [allPrintable_text, allPrintable_fold, allPrintable_nil, printable_decimal,
        true_and, and_true]
      decide
    rw [ofItems, allPrintable_append, allPrintable_append]
    exact ⟨⟨hhead, hfirst⟩, hothers⟩

end Trace

/-- The head of a trace is printable. -/
theorem Header.allPrintable_trace (header : Header) : header.trace.AllPrintable := by
  simp only [trace, Trace.allPrintable_text, Trace.allPrintable_fold, Trace.allPrintable_nil,
    VisibleFrom.append_iff, OpCode.printable_text, ResponseCode.printable_text,
    Flags.printable_text, printable_decimal, and_true]
  decide

/-- A question is printable if its name is. -/
theorem Question.allPrintable_trace {question : Question String} (h : Printable question.name) :
    question.trace.AllPrintable := by
  simp only [trace, text, Trace.allPrintable_text, Trace.allPrintable_nil, VisibleFrom.append_iff,
    RRClass.printable_text, RRType.printable_text, h, and_true]
  decide

/-- A record is printable if its own name is. -/
theorem Record.allPrintable_trace {record : Record String} (h : Printable record.name)
    (message : Message) : (record.trace message).AllPrintable := by
  have htext : Printable record.text := by
    simp only [text, VisibleFrom.append_iff, RRClass.printable_text, RRType.printable_text,
      printable_decimal, h, and_true]
    decide
  have hdata := record.printable_data message
  rw [trace, Trace.allPrintable_text]
  constructor
  · exact htext
  · split
    · rename_i edns heq
      have hoptions : Trace.AllPrintable (edns.options.map fun option => .text option.text) := by
        intro content hcontent
        obtain ⟨option, -, heq⟩ := List.mem_map.mp hcontent
        cases heq
        exact option.printable_text
      simp only [List.cons_append, List.nil_append, Trace.allPrintable_text,
        Trace.allPrintable_fold, VisibleFrom.append_iff, edns.printable_text, hoptions, and_true]
      decide
    · simp only [Trace.allPrintable_text, Trace.allPrintable_nil, VisibleFrom.append_iff, hdata,
        and_true]
      decide

/-- A message is printable if its names are. -/
theorem Message.allPrintable_trace {message : Message}
    (h : ∀ name ∈ message.body.names, Printable name) : message.trace.AllPrintable := by
  have hrecord {part : Section} {item : Trace}
      (hitem : item ∈ (message.records part).map (Record.trace · message)) :
      item.AllPrintable := by
    obtain ⟨record, hrecord, rfl⟩ := List.mem_map.mp hitem
    exact Record.allPrintable_trace (h record.name (Body.mem_names_of_record hrecord)) message
  rw [trace, Trace.allPrintable_append]
  constructor
  · exact message.header.allPrintable_trace
  · apply Trace.allPrintable_flatMap
    intro part _
    apply Trace.allPrintable_ofItems
    intro item hitem
    cases part with
    | question =>
      obtain ⟨question, hquestion, rfl⟩ := List.mem_map.mp hitem
      apply Question.allPrintable_trace
      exact h question.name (Body.mem_names_of_question hquestion)
    | answer | authority | additional => exact hrecord hitem

/-- The trace of a captured payload is printable, whatever octets were captured. -/
theorem Trace.allPrintable_ofPayload (payload : Octets) : (ofPayload payload).AllPrintable := by
  unfold ofPayload
  cases hparse : Message.parse payload with
  | error fault =>
    simp only [Fault.trace, allPrintable_text, allPrintable_fold, allPrintable_nil,
      VisibleFrom.append_iff, fault.printable_message, and_true]
    decide
  | ok message =>
    apply Message.allPrintable_trace
    intro name hname
    exact (Message.visible_names_of_parse hparse name hname).of_le (by decide)

end DnsTrace
