import DnsTrace.Proofs.Arguments.Words
import DnsTrace.Proofs.Output.Relay

/-!
# Both programs print the same

`dnsdump` looks at two switches for every payload, `dnsdump-tap` chooses one of three formats
beforehand, and each has a loop of its own. What they make of a payload is the same, so what the
first prints for files is what the second relays for datagrams with the payloads of these files.

A file that cannot be read ends the run. `Dump.printFiles_append` splits a run behind files that
can be read, and both ends of a run follow from it.
-/

namespace DnsTrace

/-- Texts in a row are written in a row. -/
theorem Octets.ofText_join (texts : List String) :
    ofText (String.join texts) = (texts.map ofText).flatten := by
  induction texts with
  | nil => rfl
  | cons text texts ih =>
    rw [String.join_cons, ofText_append, ih, List.map_cons, List.flatten_cons]

/-- Output in front of output in front of a report is put in front of it at once. -/
theorem Report.prepend_prepend (first second : String) (report : Report) :
    (report.prepend second).prepend first = report.prepend (first ++ second) := by
  rw [prepend, prepend, prepend, String.append_assoc]

namespace Format

/-- The lines of payloads, in a row. -/
def output (format : Format) (payloads : List Octets) : String :=
  String.join (payloads.map format.renderLine)

/-- The line of the first payload comes first. -/
theorem output_cons (format : Format) (payload : Octets) (payloads : List Octets) :
    format.output (payload :: payloads) =
      format.render payload ++ "\n" ++ format.output payloads := by
  rw [output, List.map_cons, String.join_cons, renderLine, output]

end Format

/-- A relay to a writer without a limit writes the lines of its datagrams. -/
theorem Relay.accepted_eq_ofText_output (format : Format) (arrivals : List Arrival) :
    (run format (.empty none) arrivals).writer.accepted =
      Octets.ofText (format.output (payloads arrivals)) := by
  rw [Writer.empty, Writer.opened, run_unbounded, List.nil_append, lines, Format.output,
    Octets.ofText_join, List.map_map]
  rfl

/-- The format depends on nothing but the switches that are given. -/
theorem Tap.format_given (switches : List Switch) (operands : List String) :
    format (.given switches operands) =
      .ofSwitches (decide (Switch.multiline ∈ switches)) (decide (Switch.domain ∈ switches)) := by
  rw [← Choices.has_given switches operands, ← Choices.has_given switches operands]
  rfl

namespace Dump

/-- A payload is rendered in the format that the other program chooses from the same switches. -/
theorem render_eq (choices : Choices) : render choices = (Tap.format choices).render := by
  funext payload
  unfold render Tap.format Format.ofSwitches token
  cases choices.has OptionSpec.domain.name with
  | true =>
    simp only [if_true, Format.render]
    cases Message.readAskedName payload with
    | error fault => rfl
    | ok name => cases name <;> rfl
  | false => cases choices.has OptionSpec.multiline.name <;> rfl

variable (read : String → Option Octets) (choices : Choices)

/-- The lines of files that can be read are printed in front of what is printed for the files
behind them. -/
theorem printFiles_append {front : List String} {payloads : List Octets}
    (h : front.map read = payloads.map some) (rest : List String) :
    printFiles read choices (front ++ rest) =
      (printFiles read choices rest).prepend ((Tap.format choices).output payloads) := by
  induction front generalizing payloads with
  | nil =>
    obtain rfl := List.map_eq_nil_iff.mp h.symm
    simp [Format.output, Report.prepend]
  | cons path front ih =>
    obtain ⟨payload, payloads, rfl, hread, hfront⟩ := List.map_eq_cons_iff.mp h.symm
    rw [List.cons_append, printFiles, ← hread]
    simp only
    rw [ih hfront.symm, Report.prepend_prepend, Format.output_cons, render_eq]

/-- Files that can be read are printed in full. -/
theorem printFiles_of_readable {paths : List String} {payloads : List Octets}
    (h : paths.map read = payloads.map some) :
    printFiles read choices paths = .success ((Tap.format choices).output payloads) := by
  have hprint := printFiles_append read choices h []
  rw [List.append_nil] at hprint
  simpa [printFiles, Report.prepend, Report.success] using hprint

/-- The first file that cannot be read ends the run behind the lines of the files before it. -/
theorem printFiles_of_unreadable {front : List String} {payloads : List Octets}
    (h : front.map read = payloads.map some) {path : String} (hpath : read path = none)
    (rest : List String) :
    printFiles read choices (front ++ path :: rest) =
      ⟨1, (Tap.format choices).output payloads, some ("Error: reading " ++ path)⟩ := by
  rw [printFiles_append read choices h, printFiles, hpath]
  simp [Report.prepend]

/-- The standard input is printed as one line. -/
theorem print_of_operands_eq_nil {choices : Choices} (h : choices.operands = [])
    (input : Octets) :
    print read input choices = .success ((Tap.format choices).output [input]) := by
  rw [print, h, Format.output_cons, render_eq]
  simp [Format.output]

/-- Files on a command line are printed as the same payloads are relayed by the other program
with the same switches, whatever the order of the arguments. Where all files can be read the
output is that of the relay and the run succeeds. Where one cannot, the first of these ends the
run behind the output for the payloads before it. An empty argument names no file, and a command
line that has one is refused. -/
theorem run_eq_relay (read : String → Option Octets) (input : Octets) (line : CommandLine grammar)
    (hfiles : line.operands ≠ []) (tapLine : CommandLine Tap.grammar)
    (hsame : ∀ switch, switch ∈ tapLine.switches ↔ switch ∈ line.switches) :
    ∃ format, Tap.start tapLine.arguments = .listening Tap.defaultAddress format ∧
      ("" ∈ line.operands →
        run read input line.arguments = .refused (.missingValue "[FILE]...")) ∧
      ("" ∉ line.operands → ∀ (front : List String) (payloads : List Octets),
        front.map read = payloads.map some →
        ∀ arrivals, Relay.payloads arrivals = payloads →
        ∃ output,
          Octets.ofText output = (Relay.run format (.empty none) arrivals).writer.accepted ∧
          (line.operands = front → run read input line.arguments = ⟨0, output, none⟩) ∧
          ∀ path rest, line.operands = front ++ path :: rest → read path = none →
            run read input line.arguments =
              ⟨1, output, some ("Error: reading " ++ path)⟩) := by
  have htap : Tap.start tapLine.arguments =
      .listening Tap.defaultAddress (Tap.format (.given line.switches line.operands)) := by
    rw [Tap.start, Grammar.read_arguments Tap.hasSwitches, Tap.operands_eq_nil, Grammar.checked,
      if_neg List.not_mem_nil, Tap.format_given]
    simp only [← hsame, ← Tap.format_given tapLine.switches []]
    rfl
  refine ⟨_, htap, ?_, ?_⟩
  · intro hempty
    rw [run, Grammar.read_arguments hasSwitches, Grammar.checked, if_pos hempty]
    rfl
  · intro hnonempty front payloads hread arrivals harrivals
    have hrun : run read input line.arguments =
        printFiles read (.given line.switches line.operands) line.operands := by
      rw [run, Grammar.read_arguments hasSwitches, Grammar.checked, if_neg hnonempty]
      simp only [Except.map, print]
      split
      · next hnone => exact absurd hnone hfiles
      · rfl
    refine ⟨_, (Relay.accepted_eq_ofText_output _ arrivals).symm, ?_, ?_⟩
    · intro hall
      rw [hrun, hall, printFiles_of_readable read _ hread, harrivals]
      rfl
    · intro path rest hsplit hpath
      rw [hrun, hsplit, printFiles_of_unreadable read _ hread hpath, harrivals]

/-- Two files, of which the second is empty, beside one that cannot be read. -/
def someFiles (path : String) : Option Octets :=
  if path = "query" then some Relay.queryWire else if path = "empty" then some [] else none

/-- Four files with a switch among them. The third file cannot be read. -/
def namesLine : CommandLine grammar where
  words := [.operand "query", .long .domain, .operand "empty", .operand "gone", .operand "query"]
  fits := by decide
  nodup := by decide

/-- The same switch for the other program. -/
def namesTapLine : CommandLine Tap.grammar where
  words := [.cluster .domain []]
  fits := by decide
  nodup := by decide

/-- The lines of the first two files are printed, and the last file is left out. -/
theorem run_namesLine :
    namesLine.arguments = ["query", "--domain", "empty", "gone", "query"] ∧
      Tap.start ["-d"] = .listening "127.0.0.1:8053" .domain ∧
      ∃ output, Octets.ofText output = [97, 10, 10] ∧
        run someFiles [] namesLine.arguments = ⟨1, output, some "Error: reading gone"⟩ := by
  have hsame (switch : Switch) : switch ∈ namesTapLine.switches ↔ switch ∈ namesLine.switches := by
    cases switch <;> decide
  obtain ⟨format, hstart, -, hprint⟩ :=
    run_eq_relay someFiles [] namesLine (by decide) namesTapLine hsame
  have hdomain : Tap.start namesTapLine.arguments = .listening "127.0.0.1:8053" .domain := by
    decide +kernel
  rw [hdomain] at hstart
  cases hstart
  obtain ⟨output, houtput, -, hgone⟩ := hprint (by decide) ["query", "empty"]
    [Relay.queryWire, []] (by decide) [.datagram Relay.queryWire, .datagram []] rfl
  refine ⟨by decide, hdomain, output, ?_, hgone "gone" ["query"] (by decide) (by decide)⟩
  rw [houtput]
  decide +kernel

end Dump

end DnsTrace
