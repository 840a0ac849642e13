import DnsTrace.Arguments.Grammar

/-!
# Help texts

The help text of a program says what it is for, how it is called, and what its operands
and options mean, one per row and aligned in two columns.
-/

namespace DnsTrace

namespace Grammar

/-- One row of a table whose first column is `width` characters wide. -/
def helpRow (width : Nat) (row : String × String) : String :=
  "  " ++ row.1 ++ String.ofList (List.replicate (width - row.1.length) ' ') ++ "  " ++
    row.2 ++ "\n"

/-- A titled table of aligned rows; a table without rows is left out. -/
def helpTable (title : String) (rows : List (String × String)) : String :=
  match rows with
  | [] => ""
  | rows =>
      let width := (rows.map (·.1.length)).foldl max 0
      "\n" ++ title ++ ":\n" ++ String.join (rows.map (helpRow width))

/-- The row of an option. -/
def optionRow (option : OptionSpec) : String × String :=
  ("-" ++ option.letter.toString ++ ", " ++ option.label,
    match option.role with
    | .setting setting => option.about ++ " [default: " ++ setting.fallback ++ "]"
    | _ => option.about)

/-- The row of the operands. -/
def operandRow (operands : OperandSpec) : String × String :=
  (operands.label, operands.about)

/-- The help text of a program. -/
def helpText (grammar : Grammar) : String :=
  grammar.about ++ "\n\nUsage: " ++ grammar.program ++ " [OPTIONS]" ++
    (grammar.operands.map fun operands => " " ++ operands.label).getD "" ++ "\n" ++
    helpTable "Arguments" (grammar.operands.toList.map operandRow) ++
    helpTable "Options" (grammar.allOptions.map optionRow)

/-- The version text of a program. -/
def versionText (grammar : Grammar) : String :=
  grammar.program ++ " " ++ grammar.version ++ "\n"

end Grammar

end DnsTrace
