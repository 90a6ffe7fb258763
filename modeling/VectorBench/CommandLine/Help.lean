import VectorBench.CommandLine.Options
import VectorBench.Text.Paragraph

/-!
# Help texts

The texts about the bench as a whole, about one suite, and about the command that asks for help.
Each has a title, a sentence, the form of the command line, and tables of what may stand in it.
-/

namespace VectorBench

def commandName : String := "rvvlite-emu"

def Suite.about : Suite → String
  | .fixed => "Run op0, op1 and op2 over a fixed operand sweep"
  | .compare => "Compare the selected binding against the software model"
  | .equivalence => "Check op0, op1 and op2 against scalar Rust arithmetic"
  | .interactive => "Read two operands and print every operation result"
  | .opvv => "Run vector-vector operations on seeded vector registers"
  | .add => "Vector add of two u16 vectors"
  | .mask => "Masked vector add driven by compare masks"
  | .mm => "Scalar and vector integer matrix multiply"
  | .all => "Run every suite except interactive"

namespace OptionName

def placeholder : OptionName → String
  | .mode => "MODE"
  | .hwOps => "MASK"
  | .fault => "FUNCT3"
  | .progress | .seed | .size => "N"

def about : OptionName → String
  | .mode => "Operation binding, hardware or software"
  | .hwOps => "funct3 mask of operations the datapath implements"
  | .fault => "Datapath flips the low result bit of this operation"
  | .progress => "Comparisons between progress lines"
  | .seed => "Random number generator seed"
  | .size => "Matrix dimension"

def valueNote : OptionName → String
  | .mode => " [default: hw] [possible values: hw, sw]"
  | .hwOps => " [default: 0x7]"
  | .fault => ""
  | .progress => " [default: 0x10000]"
  | .seed => " [default: 1]"
  | .size => " [default: 32]"

end OptionName

structure HelpEntry where
  name : String
  label : String
  note : String
deriving DecidableEq, Repr

namespace HelpEntry

def ofOption (option : OptionName) : HelpEntry where
  name := option.text
  label := "    --" ++ option.text ++ " <" ++ option.placeholder ++ ">"
  note := option.about ++ option.valueNote

def helpFlag : HelpEntry where
  name := "help"
  label := "-h, --help"
  note := "Print help information"

def ofSuite (suite : Suite) : HelpEntry where
  name := suite.name
  label := suite.name
  note := suite.about

def helpCommand : HelpEntry where
  name := "help"
  label := "help"
  note := "Print this message or the help of the given subcommand(s)"

def helpSubject : HelpEntry where
  name := "subcommand"
  label := "<SUBCOMMAND>..."
  note := "The subcommand whose help message to display"

end HelpEntry

def helpWidth : Nat := 100

def blanks (count : Nat) : String :=
  String.ofList (List.replicate count ' ')

/-- A table under a heading, ordered by name.  All notes start in the column four behind the longest
label, and go on there on the next line. -/
def helpTable (heading : String) (entries : List HelpEntry) : String :=
  let longest := (entries.map (·.label.length)).foldl max 0
  let column := longest + 8
  let line (entry : HelpEntry) : String :=
    blanks 4 ++ entry.label ++ blanks (longest + 4 - entry.label.length) ++
      String.intercalate ("\n" ++ blanks column) (Paragraph.lines (helpWidth - column) entry.note)
  heading ++ ":\n" ++
    String.intercalate "\n" ((entries.mergeSort fun a b => a.name ≤ b.name).map line)

namespace HelpTopic

def path : HelpTopic → List String
  | .program => [commandName]
  | .suite subject => [commandName, subject.name]
  | .helpCommand => [commandName, HelpEntry.helpCommand.name]

def about : HelpTopic → String
  | .program => "rvvLite validation harness"
  | .suite subject => subject.about
  | .helpCommand => HelpEntry.helpCommand.note

def operands : HelpTopic → String
  | .program => " [OPTIONS] <SUBCOMMAND>"
  | .suite _ => " [OPTIONS]"
  | .helpCommand => " [OPTIONS] [SUBCOMMAND]..."

/-- The tables of a topic.  The command that asks for help has no help option of its own. -/
def tables (topic : HelpTopic) : List String :=
  let options := OptionName.every.map HelpEntry.ofOption
  match topic with
  | .program =>
      [helpTable "OPTIONS" (HelpEntry.helpFlag :: options),
        helpTable "SUBCOMMANDS" (HelpEntry.helpCommand :: Suite.every.map HelpEntry.ofSuite)]
  | .suite _ => [helpTable "OPTIONS" (HelpEntry.helpFlag :: options)]
  | .helpCommand => [helpTable "ARGS" [HelpEntry.helpSubject], helpTable "OPTIONS" options]

def text (topic : HelpTopic) : String :=
  String.intercalate "-" topic.path ++ " \n" ++ topic.about ++ "\n\nUSAGE:\n    " ++
    String.intercalate " " topic.path ++ topic.operands ++ "\n\n" ++
    String.intercalate "\n\n" topic.tables ++ "\n"

end HelpTopic

end VectorBench
