import DnsTrace.Proofs.Output.Agreement
import DnsTrace.Proofs.Trace.Folding

/-!
# The lines that are printed

A reader of the output takes it apart at its newlines. This gives back what was printed for each
payload, whatever the payloads hold: a line has printable characters only, apart from the
continuation tokens of the multiline format, and a name has no blank either.

An empty line says that there is no name to print. Every name that is resolved has a text, that
of the root included, so no payload with a question is mistaken for one without.
-/

namespace DnsTrace

/-- Labels with something in them have a text. -/
theorem DomainName.text_ne_empty {name : DomainName} (h : ∀ label ∈ name, label ≠ []) :
    name.text ≠ "" := by
  intro hempty
  have hread := ofText_text h
  rw [hempty] at hread
  have hname : [[]] = name := hread
  rw [← hname] at h
  exact h [] List.mem_cons_self rfl

/-- The pieces of a printable trace are printable. -/
theorem Trace.printable_pieces {trace : Trace} (h : trace.AllPrintable) :
    ∀ piece ∈ trace.pieces, Printable piece := by
  induction trace with
  | nil =>
    intro piece hpiece
    obtain rfl := List.mem_singleton.mp hpiece
    decide
  | cons fragment trace ih =>
    cases fragment with
    | text content =>
      rw [allPrintable_text] at h
      have hrest := ih h.2
      rw [pieces]
      cases hpieces : pieces trace with
      | nil => exact fun piece hpiece => absurd hpiece List.not_mem_nil
      | cons first others =>
        rw [hpieces, List.forall_mem_cons] at hrest
        rw [List.modifyHead_cons, List.forall_mem_cons]
        exact ⟨VisibleFrom.append_iff.mpr ⟨h.1, hrest.1⟩, hrest.2⟩
    | fold =>
      rw [allPrintable_fold] at h
      rw [pieces, List.forall_mem_cons]
      exact ⟨by decide, ih h⟩

namespace Octets

/-- A printable text is written without the octet that ends lines. -/
theorem newline_not_mem_ofText {text : String} (h : Printable text) : 0x0a ∉ ofText text := by
  rw [ofText_eq]
  intro hmem
  obtain ⟨char, hchar, hoctet⟩ := List.mem_flatMap.mp hmem
  obtain ⟨hlow, hhigh⟩ := h char hchar
  have hsize : char.utf8Size = 1 := by
    rw [Char.utf8Size_eq_one_iff, UInt32.le_iff_toNat_le]
    change char.toNat ≤ 127
    omega
  rw [String.utf8EncodeChar_eq_singleton hsize, List.mem_singleton] at hoctet
  have hnewline := congrArg UInt8.toNat hoctet
  rw [UInt32.toNat_toUInt8] at hnewline
  change 10 = char.toNat % 256 at hnewline
  omega

/-- The octets hold these lines: an end behind each line is all that ends a line, and between
these ends stand the lines. -/
structure HoldsLines (octets : Octets) (lines : List String) : Prop where
  ends : octets.count 0x0a = lines.length
  split : octets.splitOn 0x0a = lines.map ofText ++ [[]]

/-- Printable lines that are written in a row are held. -/
theorem holdsLines_of_printable {lines : List String} (h : ∀ line ∈ lines, Printable line) :
    HoldsLines (ofText (String.join (lines.map fun line => line ++ "\n"))) lines := by
  induction lines with
  | nil => exact ⟨rfl, rfl⟩
  | cons line lines ih =>
    obtain ⟨hline, hlines⟩ := List.forall_mem_cons.mp h
    have hnewline := newline_not_mem_ofText hline
    have hwritten : ofText (String.join ((line :: lines).map fun line => line ++ "\n")) =
        ofText line ++ 0x0a :: ofText (String.join (lines.map fun line => line ++ "\n")) := by
      rw [List.map_cons, String.join_cons, ofText_append, ofText_append, ofText_newline,
        List.append_assoc, List.singleton_append]
    constructor
    · rw [hwritten, List.count_append, List.count_eq_zero.mpr hnewline, List.count_cons_self,
        (ih hlines).ends, List.length_cons, Nat.zero_add]
    · rw [hwritten, List.splitOn_append_cons_self, List.splitOn_eq_singleton hnewline,
        (ih hlines).split]
      rfl

end Octets

namespace Format

/-- The lines that a format may have. -/
def Allows : Format → String → Prop
  | line, text => Printable text
  | multiline, text => ∃ pieces : List String,
      (∀ piece ∈ pieces, Printable piece) ∧ text = continuation.intercalate pieces
  | domain, text => VisibleFrom 0x21 text

variable {payload : Octets} {message : Message}

/-- Nothing is printed for a payload that is no message. -/
theorem render_domain_of_error {fault : Fault} (h : Message.parse payload = .error fault) :
    domain.render payload = "" := by
  rw [render, Message.readAskedName, h]
  rfl

/-- What a message asks about is printed for it. -/
theorem render_domain_of_parse (h : Message.parse payload = .ok message) :
    domain.render payload = message.askedName?.getD "" := by
  rw [render, Message.readAskedName, h]
  rfl

/-- The name that is printed for a message with a question is the first of its names. -/
theorem names_of_questions_ne_nil (hparse : Message.parse payload = .ok message)
    (hasked : message.body.questions ≠ []) :
    message.body.names[0]? = some (domain.render payload) := by
  obtain ⟨question, questions, hquestions⟩ := List.exists_cons_of_ne_nil hasked
  rw [render_domain_of_parse hparse, Message.askedName?, Body.names, hquestions]
  rfl

/-- The name that is printed for a message with a question comes from labels with something in
them. -/
theorem exists_resolvesItem_render (hparse : Message.parse payload = .ok message)
    (hasked : message.body.questions ≠ []) :
    ∃ labels, Message.ResolvesItem payload 0 labels (domain.render payload) :=
  Message.exists_resolvesItem hparse (names_of_questions_ne_nil hparse hasked)

/-- A question for the root is printed as a dot. -/
theorem render_domain_of_root (hparse : Message.parse payload = .ok message)
    (hasked : message.body.questions ≠ []) {text : String}
    (hroot : Message.ResolvesItem payload 0 [] text) : domain.render payload = "." := by
  have hdot : text = "." := (Resolved.ofItem hroot).text_eq.1
  obtain ⟨envelope, next, message', run, pointers, hframed, hparse', hrun, htext, hwalk⟩ := hroot
  rw [hparse] at hparse'
  cases hparse'
  rw [names_of_questions_ne_nil hparse hasked, Option.some_inj] at htext
  exact htext.trans hdot

/-- Nothing is printed just when there is no message or no question. -/
theorem render_domain_eq_empty_iff :
    domain.render payload = "" ↔
      (∃ fault, Message.parse payload = .error fault) ∨
        ∃ message, Message.parse payload = .ok message ∧ message.body.questions = [] := by
  cases hparse : Message.parse payload with
  | error fault => exact iff_of_true (render_domain_of_error hparse) (.inl ⟨fault, rfl⟩)
  | ok message =>
    by_cases hasked : message.body.questions = []
    · have hrender : domain.render payload = "" := by
        rw [render_domain_of_parse hparse, Message.askedName?, hasked]
        rfl
      exact iff_of_true hrender (.inr ⟨message, rfl, hasked⟩)
    · obtain ⟨labels, hresolves⟩ := exists_resolvesItem_render hparse hasked
      obtain ⟨htext, hlabels⟩ := (Resolved.ofItem hresolves).text_eq
      refine iff_of_false ?_ ?_
      · rw [htext]
        exact DomainName.text_ne_empty hlabels
      · rintro (⟨fault, hfault⟩ | ⟨message', hmessage, hnone⟩)
        · cases hfault
        · cases hmessage
          exact hasked hnone

/-- Every payload is rendered as a line that the format allows. -/
theorem allows_render (format : Format) (payload : Octets) :
    format.Allows (format.render payload) := by
  have hprintable := Trace.allPrintable_ofPayload payload
  cases format with
  | line =>
    change Printable ((Trace.ofPayload payload).render "")
    rw [Trace.render_eq_intercalate]
    exact VisibleFrom.intercalate (by decide) (Trace.printable_pieces hprintable)
  | multiline =>
    exact ⟨(Trace.ofPayload payload).pieces, Trace.printable_pieces hprintable,
      (Trace.ofPayload payload).render_eq_intercalate continuation⟩
  | domain =>
    change VisibleFrom 0x21 (domain.render payload)
    by_cases hempty : domain.render payload = ""
    · rw [hempty]
      decide
    · rw [render_domain_eq_empty_iff, not_or] at hempty
      cases hparse : Message.parse payload with
      | error fault => exact absurd ⟨fault, hparse⟩ hempty.1
      | ok message =>
        have hasked : message.body.questions ≠ [] := fun hnone =>
          hempty.2 ⟨message, hparse, hnone⟩
        obtain ⟨labels, hresolves⟩ := exists_resolvesItem_render hparse hasked
        rw [(Resolved.ofItem hresolves).text_eq.1]
        exact labels.visible_text

/-- Apart from the multiline format, what is rendered is printable. -/
theorem printable_render {format : Format} (h : format ≠ multiline) (payload : Octets) :
    Printable (format.render payload) := by
  have hallows := allows_render format payload
  cases format with
  | line => exact hallows
  | multiline => exact absurd rfl h
  | domain => exact VisibleFrom.of_le hallows (by decide)

/-- Apart from the multiline format, the output for payloads holds what is rendered for each. -/
theorem holdsLines_output {format : Format} (h : format ≠ multiline) (payloads : List Octets) :
    (Octets.ofText (format.output payloads)).HoldsLines (payloads.map format.render) := by
  have hprintable : ∀ line ∈ payloads.map format.render, Printable line := by
    intro line hline
    obtain ⟨payload, -, rfl⟩ := List.mem_map.mp hline
    exact printable_render h payload
  have hholds := Octets.holdsLines_of_printable hprintable
  rwa [List.map_map] at hholds

/-- No octet of a payload reaches the output but as a printable character. Both programs render
every payload as a line that its format allows; a name has no blank, is empty just when there is
no message or no question, and is a dot for the root. So what either program writes in the line
and the domain format has one newline for each payload, and taken apart at its newlines it gives
back what was rendered. -/
theorem output_holdsLines :
    (∀ (format : Format) (payload : Octets), format.Allows (format.render payload)) ∧
    (∀ (choices : Choices) (payload : Octets),
      (Tap.format choices).Allows (Dump.render choices payload) ∧
        Dump.render choices payload = (Tap.format choices).render payload) ∧
    (∀ payload,
      (domain.render payload = "" ↔
        (∃ fault, Message.parse payload = .error fault) ∨
          ∃ message, Message.parse payload = .ok message ∧ message.body.questions = []) ∧
      ∀ message, Message.parse payload = .ok message → message.body.questions ≠ [] →
        (∃ labels, Message.ResolvesItem payload 0 labels (domain.render payload)) ∧
          ∀ text, Message.ResolvesItem payload 0 [] text → domain.render payload = ".") ∧
    (∀ choices, Tap.format choices ≠ multiline →
      (∀ (read : String → Option Octets) (paths : List String) (payloads : List Octets),
        paths.map read = payloads.map some →
        (Octets.ofText (Dump.printFiles read choices paths).output).HoldsLines
          (payloads.map (Dump.render choices))) ∧
      ∀ (read : String → Option Octets) (input : Octets), choices.operands = [] →
        (Octets.ofText (Dump.print read input choices).output).HoldsLines
          [Dump.render choices input]) ∧
    ∀ format, format ≠ multiline → ∀ arrivals,
      (Relay.run format (.empty none) arrivals).writer.accepted.HoldsLines
        ((Relay.payloads arrivals).map format.render) := by
  refine ⟨allows_render, ?_, ?_, ?_, ?_⟩
  · intro choices payload
    rw [Dump.render_eq]
    exact ⟨allows_render _ payload, rfl⟩
  · intro payload
    refine ⟨render_domain_eq_empty_iff, ?_⟩
    intro message hparse hasked
    exact ⟨exists_resolvesItem_render hparse hasked,
      fun text hroot => render_domain_of_root hparse hasked hroot⟩
  · intro choices h
    rw [Dump.render_eq]
    constructor
    · intro read paths payloads hread
      rw [Dump.printFiles_of_readable read choices hread]
      exact holdsLines_output h payloads
    · intro read input hnone
      rw [Dump.print_of_operands_eq_nil read hnone]
      exact holdsLines_output h [input]
  · intro format h arrivals
    rw [Relay.accepted_eq_ofText_output]
    exact holdsLines_output h _

/-- A query whose only label is a newline. -/
def newlineWire : Octets := [0, 1, 0, 0, 0, 1, 0, 0, 0, 0, 0, 0, 1, 10, 0, 0, 1, 0, 1]

/-- A query for the root. -/
def rootWire : Octets := [0, 1, 0, 0, 0, 1, 0, 0, 0, 0, 0, 0, 0, 0, 1, 0, 1]

/-- The message that asks for the root. -/
def rootMessage : Message where
  header := ⟨1, .query, .noError, ⟨false, false, false, false, false, false, false, false⟩⟩
  body := ⟨[⟨".", .a, .internet⟩], [], [], []⟩
  raw := rootWire

/-- The newline is escaped, and the root is told from a payload that is no message. -/
theorem output_holdsLines_newlineWire :
    (Relay.run domain (.empty none)
        [.datagram newlineWire, .datagram [], .failure "gone",
          .datagram rootWire]).writer.accepted.HoldsLines ["\\010", "", "."] ∧
      (Octets.ofText (Dump.print (fun _ => none) [] .empty).output).HoldsLines
        [" dns malformed message at offset 0 (Eof)"] ∧
      (Octets.ofText (Dump.printFiles Dump.someFiles (.given [.domain] [])
        ["query", "empty"]).output).HoldsLines ["a", ""] ∧
      Message.ResolvesItem rootWire 0 [] "." ∧ domain.render rootWire = "." := by
  have hparse : Message.parse rootWire = .ok rootMessage := by with_unfolding_all rfl
  have hresolves : Message.ResolvesItem rootWire 0 [] "." :=
    ⟨⟨rootMessage.header, ⟨[⟨⟨[], none⟩, .a, .internet⟩], [], [], []⟩⟩, _, rootMessage,
      ⟨[], none⟩, [], by with_unfolding_all rfl, hparse, rfl, rfl, .ends []⟩
  have hlines : [newlineWire, [], rootWire].map domain.render = ["\\010", "", "."] := by
    decide +kernel
  have hnames : [Relay.queryWire, []].map (Dump.render (.given [.domain] [])) = ["a", ""] := by
    decide +kernel
  obtain ⟨-, -, hasked, hdump, hrelay⟩ := output_holdsLines
  obtain ⟨-, hmessage⟩ := hasked rootWire
  obtain ⟨-, hroot⟩ := hmessage rootMessage hparse (by decide)
  obtain ⟨-, hinput⟩ := hdump .empty (by decide)
  obtain ⟨hfiles, -⟩ := hdump (.given [.domain] []) (by decide)
  rw [← hlines, ← hnames]
  refine ⟨hrelay domain (by decide) _, ?_, ?_, hresolves, hroot "." hresolves⟩
  · exact hinput (fun _ => none) [] rfl
  · exact hfiles Dump.someFiles ["query", "empty"] [Relay.queryWire, []] (by decide)

end Format

end DnsTrace
