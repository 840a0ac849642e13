import DnsTrace.Program
import Mathlib.Data.List.Nodup

/-!
# Command lines made of words

A command line is put together from words: an operand, a switch by its long name, or a cluster of
switches by their letters. Where every switch is given at most once and no operand looks like an
option, reading the line finds these switches and these operands again, each in the order in which
they were given and wherever they stand among the others. The only such line that is refused is
one with an empty operand.

Operands are checked no earlier than at the next switch, so the invariant of the reading keeps
those that are checked apart from those that are pending.
-/

namespace DnsTrace

/-- The switches that both programs have. -/
inductive Switch where
  | multiline
  | domain
  deriving DecidableEq

/-- The option that a switch is. -/
def Switch.option : Switch → OptionSpec
  | multiline => .multiline
  | domain => .domain

/-- A word on a command line. -/
inductive Word where
  | operand (text : String)
  /-- A switch by its long name. -/
  | long (switch : Switch)
  /-- One or several switches by their letters. -/
  | cluster (first : Switch) (others : List Switch)
  deriving DecidableEq

namespace Word

/-- The argument that a word is. -/
def text : Word → String
  | operand text => text
  | long switch => String.ofList ('-' :: '-' :: switch.option.name.toList)
  | cluster first others =>
      String.ofList ('-' :: (first :: others).map fun switch => switch.option.letter)

/-- The switches that a word gives. -/
def switches : Word → List Switch
  | operand _ => []
  | long switch => [switch]
  | cluster first others => first :: others

/-- The operands that a word gives. -/
def operands : Word → List String
  | operand text => [text]
  | long _ => []
  | cluster _ _ => []

/-- An operand does not look like an option, and the grammar takes it. -/
def FitsIn (grammar : Grammar) : Word → Prop
  | operand text => grammar.operands.isSome ∧ text.toList.head? ≠ some '-'
  | long _ => True
  | cluster _ _ => True

instance (grammar : Grammar) : (word : Word) → Decidable (word.FitsIn grammar)
  | operand text => inferInstanceAs
      (Decidable (grammar.operands.isSome ∧ text.toList.head? ≠ some '-'))
  | long _ => inferInstanceAs (Decidable True)
  | cluster _ _ => inferInstanceAs (Decidable True)

end Word

/-- No word is read as the end of the options. -/
theorem Word.text_ne_end {grammar : Grammar} {word : Word} (h : word.FitsIn grammar) :
    word.text ≠ "--" := by
  intro heq
  cases word with
  | operand content =>
    rw [text] at heq
    rw [heq] at h
    exact h.2 rfl
  | long switch =>
    have hchars := congrArg String.toList heq
    rw [text, String.toList_ofList] at hchars
    cases switch <;> exact absurd hchars (by decide)
  | cluster first others =>
    have hchars := congrArg String.toList heq
    rw [text, String.toList_ofList, List.map_cons] at hchars
    have hsecond := List.head_eq_of_cons_eq (List.tail_eq_of_cons_eq hchars)
    cases first <;> exact absurd hsecond (by decide)

/-- A command line of words that fit, on which no switch is given twice. -/
structure CommandLine (grammar : Grammar) where
  words : List Word
  fits : ∀ word ∈ words, word.FitsIn grammar
  nodup : (words.flatMap Word.switches).Nodup

namespace CommandLine

variable {grammar : Grammar} (line : CommandLine grammar)

/-- The arguments of a command line. -/
def arguments : List String := line.words.map Word.text

/-- The switches that a command line gives. -/
def switches : List Switch := line.words.flatMap Word.switches

/-- The operands that a command line gives. -/
def operands : List String := line.words.flatMap Word.operands

end CommandLine

/-- The grammar has both switches. -/
structure Grammar.HasSwitches (grammar : Grammar) : Prop where
  named (switch : Switch) : grammar.named? switch.option.name = some switch.option
  lettered (switch : Switch) : grammar.lettered? switch.option.letter = some switch.option

/-- An option that is a switch acts as one. -/
theorem Switch.role_option (switch : Switch) : switch.option.role = .switch := by
  cases switch <;> rfl

/-- The long names of the switches differ. -/
theorem Switch.name_injective : Function.Injective fun switch : Switch => switch.option.name := by
  intro switch other h
  cases switch <;> cases other <;> first | rfl | exact absurd h (by decide)

namespace Choices

/-- These switches and operands, and no settings. -/
def given (switches : List Switch) (operands : List String) : Choices :=
  ⟨switches.map fun switch => switch.option.name, [], operands⟩

/-- A switch was given just when it is among those that were given. -/
theorem has_given (switches : List Switch) (operands : List String) (switch : Switch) :
    (given switches operands).has switch.option.name = decide (switch ∈ switches) := by
  rw [has, given, List.contains_eq_mem, decide_eq_decide]
  exact List.mem_map_of_injective Switch.name_injective

/-- A switch that is new is added behind the others. -/
theorem addSwitch_given {switches : List Switch} {switch : Switch} (hnew : switch ∉ switches)
    (operands : List String) :
    (given switches operands).addSwitch switch.option =
      .ok (given (switches ++ [switch]) operands) := by
  rw [addSwitch, has_given, decide_eq_false hnew, if_neg Bool.false_ne_true, given, given,
    List.map_append]
  rfl

end Choices

/-- The fault of an empty operand. -/
def Grammar.emptyOperand (grammar : Grammar) : ArgumentFault :=
  .missingValue ((grammar.operands.map OperandSpec.label).getD "")

/-- What the grammar makes of switches and operands when all of them are checked. -/
def Grammar.checked (grammar : Grammar) (switches : List Switch) (operands : List String) :
    Except ArgumentFault Choices :=
  if "" ∈ operands then .error grammar.emptyOperand else .ok (.given switches operands)

/-- Where nothing is given twice, what is given next is new. -/
theorem not_mem_of_nodup {α : Type} {front rest : List α} {next : α}
    (h : (front ++ next :: rest).Nodup) : next ∉ front := fun hmem =>
  (List.nodup_cons.mp (List.nodup_middle.mp h)).1 (List.mem_append_left rest hmem)

namespace Reading

/-- The reading has met these switches and operands. All operands are checked, or the last of
them are pending. -/
inductive Met (grammar : Grammar) : Reading → List Switch → List String → Prop
  | settled {switches : List Switch} {operands : List String} (checked : "" ∉ operands) :
      Met grammar ⟨.given switches operands, .nothing⟩ switches operands
  | pending {switches : List Switch} {operands : List String} {spec : OperandSpec}
      (checked : "" ∉ operands) (takes : grammar.operands = some spec) (values : List String) :
      Met grammar ⟨.given switches operands, .operands spec values⟩ switches (operands ++ values)

namespace Met

variable {grammar : Grammar} {reading : Reading} {switches : List Switch} {operands : List String}

/-- Settling checks the operands that were met. -/
theorem settle_eq (h : Met grammar reading switches operands) :
    reading.settle = grammar.checked switches operands := by
  cases h with
  | settled checked =>
    rw [Grammar.checked, if_neg checked]
    rfl
  | @pending _ operands spec checked takes values =>
    have hmem : "" ∈ operands ++ values ↔ "" ∈ values := by
      rw [List.mem_append, or_iff_right checked]
    simp only [settle, Choices.addOperands, Grammar.checked, Grammar.emptyOperand,
      List.contains_eq_mem, decide_eq_true_eq, hmem, takes, Option.map_some, Option.getD_some]
    rfl

/-- An operand is met behind the others. -/
theorem readPlain (h : Met grammar reading switches operands)
    (htakes : grammar.operands.isSome) (text : String) :
    ∃ next, reading.readPlain grammar text = .ok next ∧
      Met grammar next switches (operands ++ [text]) := by
  obtain ⟨spec, hspec⟩ := Option.isSome_iff_exists.mp htakes
  cases h with
  | settled checked =>
    refine ⟨_, ?_, .pending checked hspec [text]⟩
    simp only [Reading.readPlain, readOperand, hspec]
    rfl
  | pending checked takes values =>
    rw [List.append_assoc]
    refine ⟨_, ?_, .pending checked hspec (values ++ [text])⟩
    simp only [Reading.readPlain, readOperand, hspec]

/-- A switch that is new is met behind the others, when the operands in front of it pass. -/
theorem readOption (h : Met grammar reading switches operands) {switch : Switch}
    (hnew : switch ∉ switches) :
    reading.readOption switch.option none =
      (grammar.checked (switches ++ [switch]) operands).map fun choices =>
        .continue ⟨choices, .nothing⟩ := by
  simp only [Reading.readOption, switch.role_option, h.settle_eq, Grammar.checked]
  split
  · rfl
  · simp only [bind, Except.bind, Choices.addSwitch_given hnew, Except.map]
    rfl

/-- The switches of a cluster are met in turn, when all operands in front of it are checked. -/
theorem readCluster_of_checked (hgrammar : grammar.HasSwitches) (hchecked : "" ∉ operands)
    {letters : List Switch} (hnodup : (switches ++ letters).Nodup) :
    Reading.readCluster grammar ⟨.given switches operands, .nothing⟩
        (letters.map fun switch => switch.option.letter) =
      .ok (.continue ⟨.given (switches ++ letters) operands, .nothing⟩) := by
  induction letters generalizing switches with
  | nil =>
    rw [List.append_nil]
    rfl
  | cons switch letters ih =>
    have hnew := not_mem_of_nodup hnodup
    have hmet : Met grammar ⟨.given switches operands, .nothing⟩ switches operands :=
      .settled hchecked
    have hread := hmet.readOption hnew
    rw [Grammar.checked, if_neg hchecked] at hread
    rw [← List.singleton_append, ← List.append_assoc] at hnodup ⊢
    rw [List.singleton_append, List.map_cons, Reading.readCluster, hgrammar.lettered]
    simp only [switch.role_option, hread, Except.map]
    exact ih hnodup

/-- The switches of a cluster are met in turn, when the operands in front of it pass. -/
theorem readCluster (hgrammar : grammar.HasSwitches) (h : Met grammar reading switches operands)
    {first : Switch} {others : List Switch} (hnodup : (switches ++ first :: others).Nodup) :
    reading.readCluster grammar ((first :: others).map fun switch => switch.option.letter) =
      (grammar.checked (switches ++ first :: others) operands).map fun choices =>
        .continue ⟨choices, .nothing⟩ := by
  have hnew := not_mem_of_nodup hnodup
  rw [List.map_cons, Reading.readCluster, hgrammar.lettered]
  simp only [first.role_option, h.readOption hnew, Grammar.checked]
  by_cases hempty : "" ∈ operands
  · simp only [if_pos hempty, Except.map]
  · have happend : switches ++ first :: others = switches ++ [first] ++ others := by simp
    simp only [if_neg hempty, Except.map]
    rw [happend] at hnodup ⊢
    exact readCluster_of_checked hgrammar hempty hnodup

/-- A switch by its long name is met behind the others, when the operands in front of it pass. -/
theorem readLong (hgrammar : grammar.HasSwitches) (h : Met grammar reading switches operands)
    {switch : Switch} (hnew : switch ∉ switches) :
    reading.readLong grammar switch.option.name.toList =
      (grammar.checked (switches ++ [switch]) operands).map fun choices =>
        .continue ⟨choices, .nothing⟩ := by
  have hname : String.ofList (switch.option.name.toList.takeWhile (· ≠ '=')) =
      switch.option.name := by
    cases switch <;> rfl
  have hrest : switch.option.name.toList.dropWhile (· ≠ '=') = [] := by
    cases switch <;> rfl
  rw [Reading.readLong, hname, hgrammar.named, hrest]
  exact h.readOption hnew

/-- Reading that goes as the check of the operands ends with switches met and all operands
checked, or at an empty operand. -/
theorem exists_of_checked {result : Except ArgumentFault Step}
    (hresult : result = (grammar.checked switches operands).map fun choices =>
      .continue ⟨choices, .nothing⟩) :
    (∃ next, result = .ok (.continue next) ∧ Met grammar next switches operands) ∨
      ("" ∈ operands ∧ result = .error grammar.emptyOperand) := by
  rw [hresult, Grammar.checked]
  by_cases hempty : "" ∈ operands
  · rw [if_pos hempty]
    exact .inr ⟨hempty, rfl⟩
  · rw [if_neg hempty]
    exact .inl ⟨_, rfl, .settled hempty⟩

/-- A word is met behind the others: an operand is left to be checked, and a switch is taken when
the operands in front of it pass. -/
theorem readArgument (hgrammar : grammar.HasSwitches) (h : Met grammar reading switches operands)
    {word : Word} (hfits : word.FitsIn grammar) (hnodup : (switches ++ word.switches).Nodup) :
    (∃ next, reading.readArgument grammar word.text = .ok (.continue next) ∧
      Met grammar next (switches ++ word.switches) (operands ++ word.operands)) ∨
    ("" ∈ operands ∧ reading.readArgument grammar word.text = .error grammar.emptyOperand) := by
  cases word with
  | operand text =>
    obtain ⟨htakes, hhead⟩ := hfits
    obtain ⟨next, hread, hmet⟩ := h.readPlain htakes text
    refine .inl ⟨next, ?_, ?_⟩
    · have hplain : reading.readArgument grammar text =
          (reading.readPlain grammar text).map Step.continue := by
        unfold Reading.readArgument
        split
        · next hchars => exact absurd (by rw [hchars]; rfl) hhead
        · next hchars => exact absurd (by rw [hchars]; rfl) hhead
        · rfl
      rw [Word.text, hplain, hread]
      rfl
    · rwa [Word.switches, List.append_nil]
  | long switch =>
    rw [Word.operands, List.append_nil]
    apply exists_of_checked
    rw [Word.text, Reading.readArgument, String.toList_ofList]
    exact h.readLong hgrammar (not_mem_of_nodup hnodup)
  | cluster first others =>
    rw [Word.operands, List.append_nil]
    apply exists_of_checked
    have hcluster : reading.readArgument grammar (Word.cluster first others).text =
        reading.readCluster grammar ((first :: others).map fun switch => switch.option.letter) := by
      rw [Word.text, Reading.readArgument, String.toList_ofList, List.map_cons]
      cases first <;> rfl
    rw [hcluster]
    exact h.readCluster hgrammar hnodup

/-- A line of words is read as the switches and operands that they give. -/
theorem readAll (hgrammar : grammar.HasSwitches) (h : Met grammar reading switches operands)
    {words : List Word} (hfits : ∀ word ∈ words, word.FitsIn grammar)
    (hnodup : (switches ++ words.flatMap Word.switches).Nodup) :
    reading.readAll grammar (words.map Word.text) =
      (grammar.checked (switches ++ words.flatMap Word.switches)
        (operands ++ words.flatMap Word.operands)).map Command.run := by
  induction words generalizing reading switches operands with
  | nil =>
    rw [List.map_nil, Reading.readAll, h.settle_eq, List.flatMap_nil, List.flatMap_nil,
      List.append_nil, List.append_nil]
  | cons word words ih =>
    obtain ⟨hword, hwords⟩ := List.forall_mem_cons.mp hfits
    rw [List.flatMap_cons, ← List.append_assoc] at hnodup
    rw [List.map_cons, Reading.readAll, if_neg (Word.text_ne_end hword), List.flatMap_cons,
      List.flatMap_cons, ← List.append_assoc, ← List.append_assoc]
    obtain ⟨next, hread, hmet⟩ | ⟨hempty, hread⟩ :=
      h.readArgument hgrammar hword hnodup.of_append_left
    · rw [hread]
      exact ih hmet hwords hnodup
    · rw [hread, Grammar.checked, if_pos (by simp [hempty])]
      rfl

end Met

end Reading

/-- A command line is read as a run with its switches and operands, when the operands pass. -/
theorem Grammar.read_arguments {grammar : Grammar} (hgrammar : grammar.HasSwitches)
    (line : CommandLine grammar) :
    grammar.read line.arguments =
      (grammar.checked line.switches line.operands).map Command.run := by
  have hstart : Reading.Met grammar ⟨.given [] [], .nothing⟩ [] [] := .settled List.not_mem_nil
  exact hstart.readAll hgrammar line.fits line.nodup

/-- Both switches are options of `dnsdump`. -/
theorem Dump.hasSwitches : Dump.grammar.HasSwitches := by
  constructor <;> intro switch <;> cases switch <;> rfl

/-- Both switches are options of `dnsdump-tap`. -/
theorem Tap.hasSwitches : Tap.grammar.HasSwitches := by
  constructor <;> intro switch <;> cases switch <;> rfl

/-- `dnsdump-tap` takes no operands. -/
theorem Tap.operands_eq_nil (line : CommandLine Tap.grammar) : line.operands = [] := by
  rw [CommandLine.operands, List.flatMap_eq_nil_iff]
  intro word hword
  have hfits := line.fits word hword
  cases word with
  | operand text => exact absurd hfits.1 (by decide)
  | long switch => rfl
  | cluster first others => rfl

end DnsTrace
