import DnsTrace.Proofs.Text.Fields
import DnsTrace.Proofs.Trace.Characters

/-!
# What a line tells of its message

On one line a trace is a row of words. Neither the head nor a question has a blank, whatever the
name that is asked about, so the words of the head and of the questions stand alone. The second
comma from the right ends the name of a question, also when the name has commas itself.

A line therefore tells the header and the questions. The word behind `dns` has a comma in a
message and none in the wording of a fault, so a line also tells whether there was a message.
-/

namespace DnsTrace

section Words

/-- Words with a blank in front of each. -/
def spaced (words : List String) : String :=
  String.join (words.map (" " ++ ·))

/-- Two rows of words are one row. -/
theorem spaced_append (first second : List String) :
    spaced (first ++ second) = spaced first ++ spaced second := by
  rw [spaced, List.map_append, String.join_append, spaced, spaced]

/-- Behind a text, a row has the words of each of its members, in order. -/
theorem fields_append_spaced (front : String) (words : List String) :
    fields ' ' (front ++ spaced words) = fields ' ' front ++ words.flatMap (fields ' ') := by
  induction words generalizing front with
  | nil => simp [spaced]
  | cons word words ih =>
    have hfront : front ++ spaced (word :: words) = front ++ " " ++ word ++ spaced words := by
      simp only [spaced, List.map_cons, String.join_cons, String.append_assoc]
    rw [hfront, ih, fields_append rfl, List.flatMap_cons, List.append_assoc]

/-- A row of words begins with an empty field. -/
theorem fields_spaced (words : List String) :
    fields ' ' (spaced words) = [] :: words.flatMap (fields ' ') := by
  have h := fields_append_spaced "" words
  rw [String.empty_append] at h
  exact h

/-- On one line a section is its size and its items. -/
theorem Trace.render_ofItems (items : List Trace) :
    (ofItems items).render "" = spaced (decimal items.length :: items.map (render "")) := by
  have hothers (others : List Trace) :
      render "" (others.flatMap fun item => [.text " ", .fold] ++ item) =
        spaced (others.map (render "")) := by
    induction others with
    | nil => rfl
    | cons item others ih =>
      simp only [List.flatMap_cons, render_append, ih, spaced, List.map_cons, String.join_cons,
        render_cons, render_nil, Fragment.render, String.append_empty]
  cases items with
  | nil => rfl
  | cons first others =>
    simp only [ofItems, render_append, hothers, spaced, List.map_cons, String.join_cons,
      render_cons, render_nil, Fragment.render, String.append_empty, String.empty_append,
      String.append_assoc]

end Words

section Heads

namespace Flags

/-- A flag is listed when it is set. -/
theorem mem_set_iff (flags : Flags) :
    ("qr" ∈ flags.set ↔ flags.qr) ∧ ("aa" ∈ flags.set ↔ flags.aa) ∧
      ("tc" ∈ flags.set ↔ flags.tc) ∧ ("rd" ∈ flags.set ↔ flags.rd) ∧
      ("ra" ∈ flags.set ↔ flags.ra) ∧ ("z" ∈ flags.set ↔ flags.z) ∧
      ("ad" ∈ flags.set ↔ flags.ad) ∧ ("cd" ∈ flags.set ↔ flags.cd) := by
  simp [set, named]

/-- The list of those that are set tells the flags. -/
theorem set_injective : Function.Injective set := by
  intro flags flags' h
  have hset := flags.mem_set_iff
  have hset' := flags'.mem_set_iff
  rw [h] at hset
  obtain ⟨qr, aa, tc, rd, ra, z, ad, cd⟩ := flags
  obtain ⟨qr', aa', tc', rd', ra', z', ad', cd'⟩ := flags'
  simp only [hset', Bool.coe_iff_coe] at hset
  simp only [hset]

/-- Every mnemonic of a flag has letters only. -/
theorem alphanumeric_of_mem_set {flags : Flags} {name : String} (h : name ∈ flags.set) :
    Alphanumeric name := by
  obtain ⟨flag, hflag, rfl⟩ := List.mem_map.mp h
  have hmem : flag.1 ∈ flags.named.map (·.1) :=
    List.mem_map_of_mem (List.mem_filter.mp hflag).1
  have hnamed : ∀ name ∈ ["qr", "aa", "tc", "rd", "ra", "z", "ad", "cd"], Alphanumeric name := by
    decide
  exact hnamed flag.1 hmem

/-- The field in which a head lists the flags; there is none if no flag is set. -/
def listed (flags : Flags) : List (List Char) :=
  match flags.set with
  | [] => []
  | names => [("|".intercalate names).toList]

/-- Only letters and bars are in the list of the flags that are set. -/
theorem not_mem_intercalate_set {char : Char} (hchar : char.isAlphanum = false) (hbar : char ≠ '|')
    (flags : Flags) : char ∉ ("|".intercalate flags.set).toList := by
  apply not_mem_intercalate
  · exact fun hmem => hbar (List.mem_singleton.mp hmem)
  · exact fun name hname => (alphanumeric_of_mem_set hname).not_mem hchar

/-- Behind a text, the flags are one more field or none. -/
theorem fields_append_text (front : String) (flags : Flags) :
    fields ',' (front ++ flags.text) = fields ',' front ++ flags.listed := by
  have hnames : ',' ∉ ("|".intercalate flags.set).toList :=
    flags.not_mem_intercalate_set rfl (by decide)
  unfold text listed
  cases hset : flags.set with
  | nil => rw [String.append_empty, List.append_nil]
  | cons name names =>
    rw [hset] at hnames
    rw [← String.append_assoc, fields_append rfl, fields_of_not_mem hnames]

/-- What is listed tells the flags. -/
theorem listed_injective : Function.Injective listed := by
  intro flags flags' h
  apply set_injective
  have hfields (flags : Flags) (hne : flags.set ≠ []) :
      fields '|' ("|".intercalate flags.set) = flags.set.map String.toList := by
    rw [fields_intercalate rfl hne]
    exact flatMap_fields fun _ hname => (alphanumeric_of_mem_set hname).not_mem rfl
  unfold listed at h
  split at h <;> split at h
  · rename_i hnone _ hnone'
    rw [hnone, hnone']
  · cases h
  · cases h
  · rename_i hsome _ hsome'
    have htext := String.toList_inj.mp (List.singleton_inj.mp h)
    have hlists := hfields flags hsome
    rw [htext, hfields flags' hsome'] at hlists
    exact (List.map_injective_iff.mpr (fun _ _ => String.toList_inj.mp) hlists).symm

end Flags

/-- The word of a trace that shows the header. -/
def Header.head (header : Header) : String :=
  header.opcode.text ++ "," ++ header.rcode.text ++ "," ++ decimal header.id.toNat ++
    header.flags.text

namespace Header

/-- The fields of a head are the two codes, the identifier and the flags. -/
theorem fields_head (header : Header) :
    fields ',' header.head =
      [header.opcode.text.toList, header.rcode.text.toList, (decimal header.id.toNat).toList] ++
        header.flags.listed := by
  rw [head, Flags.fields_append_text, fields_append rfl, fields_append rfl,
    (OpCode.mnemonics.alphanumeric_text _).fields_eq rfl,
    (ResponseCode.mnemonics.alphanumeric_text _).fields_eq rfl,
    (alphanumeric_decimal _).fields_eq rfl]
  rfl

/-- The head tells the header. -/
theorem head_injective : Function.Injective head := by
  intro header header' h
  have hfields := congrArg (fields ',') h
  rw [fields_head, fields_head] at hfields
  obtain ⟨hfixed, hflags⟩ := List.append_inj hfields (by simp)
  simp only [List.cons.injEq, String.toList_inj, and_true] at hfixed
  obtain ⟨hopcode, hrcode, hid⟩ := hfixed
  obtain ⟨id, opcode, rcode, flags⟩ := header
  obtain ⟨id', opcode', rcode', flags'⟩ := header'
  rw [Header.mk.injEq]
  exact ⟨UInt16.toNat_inj.mp (decimal_injective hid), OpCode.mnemonics.text_injective hopcode,
    ResponseCode.mnemonics.text_injective hrcode, Flags.listed_injective hflags⟩

/-- A head has no blank. -/
theorem blank_not_mem_head (header : Header) : ' ' ∉ header.head.toList := by
  have hopcode : ' ' ∉ header.opcode.text.toList :=
    (OpCode.mnemonics.alphanumeric_text _).not_mem rfl
  have hrcode : ' ' ∉ header.rcode.text.toList :=
    (ResponseCode.mnemonics.alphanumeric_text _).not_mem rfl
  have hid : ' ' ∉ (decimal header.id.toNat).toList := (alphanumeric_decimal _).not_mem rfl
  have hflags : ' ' ∉ header.flags.text.toList := by
    have hnames : ' ' ∉ ("|".intercalate header.flags.set).toList :=
      header.flags.not_mem_intercalate_set rfl (by decide)
    unfold Flags.text
    split
    · exact List.not_mem_nil
    · rw [String.toList_append, List.mem_append]
      exact not_or_intro (by decide) hnames
  simp only [head, String.toList_append, List.mem_append, hopcode, hrcode, hid, hflags]
  decide

end Header

end Heads

section Questions

variable {question : Question String}

/-- The last two fields of a question are its class and its type; those in front of them are the
name. -/
theorem Question.fields_text (question : Question String) :
    fields ',' question.text =
      fields ',' question.name ++ [question.rrClass.text.toList, question.rrType.text.toList] := by
  rw [text, fields_append rfl, fields_append rfl,
    (RRClass.mnemonics.alphanumeric_text _).fields_eq rfl,
    (RRType.mnemonics.alphanumeric_text _).fields_eq rfl, List.append_assoc]
  rfl

/-- The text of a question tells its name, its class and its type. -/
theorem Question.text_injective : Function.Injective Question.text := by
  intro question question' h
  have hfields := congrArg (fields ',') h
  rw [fields_text, fields_text] at hfields
  obtain ⟨hname, hcodes⟩ := List.append_inj' hfields (by simp)
  simp only [List.cons.injEq, String.toList_inj, and_true] at hcodes
  obtain ⟨hclass, htype⟩ := hcodes
  obtain ⟨name, rrType, rrClass⟩ := question
  obtain ⟨name', rrType', rrClass'⟩ := question'
  rw [Question.mk.injEq]
  exact ⟨fields_injective ',' hname, RRType.mnemonics.text_injective htype,
    RRClass.mnemonics.text_injective hclass⟩

/-- A question has no blank if its name has none. -/
theorem Question.blank_not_mem_text (h : VisibleFrom 0x21 question.name) :
    ' ' ∉ question.text.toList := by
  have hname : ' ' ∉ question.name.toList := fun hmem => absurd (h ' ' hmem).1 (by decide)
  have hclass : ' ' ∉ question.rrClass.text.toList :=
    (RRClass.mnemonics.alphanumeric_text _).not_mem rfl
  have htype : ' ' ∉ question.rrType.text.toList :=
    (RRType.mnemonics.alphanumeric_text _).not_mem rfl
  simp only [text, String.toList_append, List.mem_append, hname, hclass, htype]
  decide

end Questions

namespace Message

/-- The size and the items of a section, on one line. -/
def sectionTexts (message : Message) (part : Section) : List String :=
  decimal (message.itemTraces part).length :: (message.itemTraces part).map (Trace.render "")

/-- On one line a trace is the head and the sections, with a blank in front of each item. -/
theorem render_trace (message : Message) :
    message.trace.render "" =
      spaced ("dns" :: message.header.head :: Section.all.flatMap message.sectionTexts) := by
  have hsections (parts : List Section) :
      Trace.render "" (parts.flatMap fun part => Trace.ofItems (message.itemTraces part)) =
        spaced (parts.flatMap message.sectionTexts) := by
    induction parts with
    | nil => rfl
    | cons part parts ih =>
      rw [List.flatMap_cons, List.flatMap_cons, Trace.render_append, spaced_append, ih,
        Trace.render_ofItems]
      rfl
  have hheader : message.header.trace.render "" = spaced ["dns", message.header.head] := by
    have hdns : "dns " = "dns" ++ " " := rfl
    simp only [Header.trace, Trace.render_cons, Trace.render_nil, Fragment.render, hdns, spaced,
      List.map_cons, List.map_nil, String.join_cons, String.join_nil, String.append_assoc,
      String.empty_append, String.append_empty, Header.head]
  rw [trace, Trace.render_append, hheader, hsections, ← spaced_append]
  rfl

/-- The words of a line begin with the head, the number of questions and the questions. -/
theorem fields_render_trace {message : Message}
    (h : ∀ question ∈ message.body.questions, VisibleFrom 0x21 question.name) :
    ∃ later, fields ' ' (message.trace.render "") =
      [] :: "dns".toList :: message.header.head.toList ::
        (decimal message.body.questions.length).toList ::
          ((message.body.questions.map Question.text).map String.toList ++ later) := by
  obtain ⟨later, hlater⟩ : ∃ later, Section.all.flatMap message.sectionTexts =
      decimal message.body.questions.length ::
        (message.body.questions.map Question.text ++ later) := by
    refine ⟨[Section.answer, .authority, .additional].flatMap message.sectionTexts, ?_⟩
    have hrender : Trace.render "" ∘ Question.trace = Question.text := by
      funext question
      exact (Trace.render_cons _ _ _).trans String.append_empty
    rw [← hrender, ← List.map_map, ← List.length_map (f := Question.trace)]
    rfl
  have htexts : ∀ text ∈ message.body.questions.map Question.text, ' ' ∉ text.toList := by
    rw [List.forall_mem_map]
    exact fun question hquestion => Question.blank_not_mem_text (h question hquestion)
  have hdns : fields ' ' "dns" = ["dns".toList] := rfl
  have hcount : fields ' ' (decimal message.body.questions.length) =
      [(decimal message.body.questions.length).toList] :=
    (alphanumeric_decimal _).fields_eq (by decide)
  refine ⟨later.flatMap (fields ' '), ?_⟩
  rw [render_trace, hlater, fields_spaced]
  simp only [List.flatMap_cons, List.flatMap_append, hdns, flatMap_fields htexts,
    fields_of_not_mem message.header.blank_not_mem_head, hcount, List.singleton_append]

end Message

/-- The wording of a fault begins with one of these words. -/
theorem Fault.exists_word (fault : Fault) :
    ∃ word ∈ ["malformed", "truncated:", "name", "Circular", "edns0"],
      ∃ rest, fault.message = word ++ " " ++ rest := by
  have hfront {word front : String} (rest behind : String) (h : front = word ++ " " ++ rest) :
      ∃ rest, front ++ behind = word ++ (" " ++ rest) :=
    ⟨rest ++ behind, by rw [h, String.append_assoc, String.append_assoc]⟩
  unfold message
  cases fault <;> simp only [String.append_assoc]
  · exact ⟨"malformed", by decide, hfront "message at offset " _ rfl⟩
  · exact ⟨"truncated:", by decide, hfront "needed " _ rfl⟩
  · exact ⟨"name", by decide, hfront "pointer " _ rfl⟩
  · exact ⟨"Circular", by decide,
      hfront "reference - detected a pointer we have seen already: " _ rfl⟩
  · exact ⟨"name", by decide, hfront "follows more than " _ rfl⟩
  · exact ⟨"name", by decide, hfront "of " _ rfl⟩
  · exact ⟨"edns0", by decide, hfront "option " _ rfl⟩
  · exact ⟨"edns0", by decide, hfront "client subnet option of " _ rfl⟩

/-- The word behind the first of a fault's line has no comma. -/
theorem Fault.fields_render_trace (fault : Fault) :
    ∃ word later, fields ' ' (fault.trace.render "") = [] :: "dns".toList :: word :: later ∧
      ',' ∉ word := by
  obtain ⟨word, hword, rest, hmessage⟩ := fault.exists_word
  have hplain : ∀ word ∈ ["malformed", "truncated:", "name", "Circular", "edns0"],
      ' ' ∉ word.toList ∧ ',' ∉ word.toList := by decide
  obtain ⟨hblank, hcomma⟩ := hplain word hword
  have hline : fault.trace.render "" = spaced ["dns", fault.message] := by
    have hdns : "dns " = "dns" ++ " " := rfl
    simp only [Fault.trace, Trace.render_cons, Trace.render_nil, Fragment.render, hdns, spaced,
      List.map_cons, List.map_nil, String.join_cons, String.join_nil, String.append_assoc,
      String.empty_append, String.append_empty]
  have hfields : fields ' ' fault.message = word.toList :: fields ' ' rest := by
    rw [hmessage, fields_append rfl, fields_of_not_mem hblank, List.singleton_append]
  refine ⟨word.toList, fields ' ' rest, ?_, hcomma⟩
  rw [hline, fields_spaced, List.flatMap_cons, List.flatMap_singleton, hfields]
  rfl

namespace Message

/-- A line identifies the header and the questions of its message. If a payload is a message, and
another payload is written as the same line, then it is a message too, with the same header and
with the same questions, whatever octets the names that they ask about are made of. In particular
no message is written as the line of a payload that is none. -/
theorem exists_parse_eq_of_line_eq (payload payload' : Octets) (message : Message)
    (h : parse payload = .ok message)
    (hline : Format.line.render payload = Format.line.render payload') :
    ∃ message', parse payload' = .ok message' ∧ message'.header = message.header ∧
      message'.body.questions = message.body.questions := by
  have hvisible {payload : Octets} {message : Message} (h : parse payload = .ok message) :
      ∀ question ∈ message.body.questions, VisibleFrom 0x21 question.name :=
    fun question hquestion =>
      visible_names_of_parse h question.name (Body.mem_names_of_question hquestion)
  obtain ⟨later, hfields⟩ := fields_render_trace (hvisible h)
  simp only [Format.render, Trace.ofPayload, h] at hline
  rw [hline] at hfields
  cases h' : parse payload' with
  | error fault =>
    obtain ⟨word, _, hword, hcomma⟩ := fault.fields_render_trace
    simp only [h', hword, List.cons.injEq, true_and] at hfields
    rw [hfields.1, Header.head] at hcomma
    simp only [String.toList_append, List.mem_append, not_or] at hcomma
    exact absurd (by decide) hcomma.1.1.1.1.2
  | ok message' =>
    obtain ⟨later', hfields'⟩ := fields_render_trace (hvisible h')
    simp only [h', hfields', List.cons.injEq, true_and] at hfields
    obtain ⟨hhead, hcount, hrest⟩ := hfields
    have hlength : message'.body.questions.length = message.body.questions.length :=
      decimal_injective (String.toList_inj.mp hcount)
    have hlists := (List.append_inj hrest (by simp only [List.length_map, hlength])).1
    refine ⟨message', rfl, Header.head_injective (String.toList_inj.mp hhead), ?_⟩
    exact List.map_injective_iff.mpr Question.text_injective
      (List.map_injective_iff.mpr (fun _ _ => String.toList_inj.mp) hlists)

/-- A question for a label with commas, which looks like the end of a question itself. -/
def commaWire : Octets :=
  [0, 1, 1, 0, 0, 1, 0, 0, 0, 0, 0, 0, 6, 97, 44, 73, 78, 44, 65, 0, 0, 1, 0, 1]

/-- The message in `commaWire`. -/
def commaMessage : Message where
  header := ⟨1, .query, .noError, ⟨false, false, false, true, false, false, false, false⟩⟩
  body := ⟨[⟨"a,IN,A", .a, .internet⟩], [], [], []⟩
  raw := commaWire

/-- With an octet behind it the query is written as the same line, and so it is the same query. -/
theorem line_commaWire :
    parse commaWire = .ok commaMessage ∧
      Format.line.render commaWire = " dns QUERY,NOERROR,1,rd 1 a,IN,A,IN,A 0 0 0" ∧
      Format.line.render commaWire = Format.line.render (commaWire ++ [0]) ∧
      ∃ message', parse (commaWire ++ [0]) = .ok message' ∧
        message'.header = commaMessage.header ∧
        message'.body.questions = commaMessage.body.questions := by
  have hparse : parse commaWire = .ok commaMessage := by with_unfolding_all rfl
  have hline : Format.line.render commaWire = Format.line.render (commaWire ++ [0]) := by
    with_unfolding_all rfl
  exact ⟨hparse, by with_unfolding_all rfl, hline, exists_parse_eq_of_line_eq _ _ _ hparse hline⟩

end Message

end DnsTrace
