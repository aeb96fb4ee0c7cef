import Entitlements.CommandLine.Parser

/-!
Help texts. The usage line lists the flags, those that need not be given in brackets, and is broken
between flags where it would grow too wide; its further lines start below the first flag. After the
purpose of the command each flag has a line of its own.
-/

namespace Entitlements.CommandLine

structure Command where
  name : String
  purpose : String
  flags : List Flag

/-- How a flag is written in help texts: with a place for its value, in capitals. -/
def Flag.form (f : Flag) : String :=
  let dashed := "--" ++ f.name
  if f.kind = .switch then dashed
  else dashed ++ " " ++ String.ofList (f.name.toList.map fun c =>
    if c = '-' then '_' else c.toUpper)

def Flag.usage (f : Flag) : String := if f.isRequired then f.form else "[" ++ f.form ++ "]"

namespace Help

def width : Nat := 78

/-- Fills lines with words up to the width, given how far each line is indented. -/
def fill (indent : Nat) (line : String) : List String → List String
  | [] => [line]
  | word :: words =>
    if line = "" then fill indent word words
    else if indent + line.length + 1 + word.length ≤ width then
      fill indent (line ++ " " ++ word) words
    else line :: fill indent word words

def usage (c : Command) : String :=
  let start := "usage: " ++ c.name ++ " "
  let lines := fill start.length "" ("[-h]" :: c.flags.map (·.usage))
  let margin := "\n" ++ String.ofList (List.replicate start.length ' ')
  start ++ margin.intercalate lines

def text (c : Command) : String :=
  let flags := c.flags.map fun f => "  " ++ f.form
  "\n".intercalate
    ([usage c, "", c.purpose, "", "options:",
      "  -h, --help            show this help message and exit"] ++ flags ++ [""])

end Help

end Entitlements.CommandLine
