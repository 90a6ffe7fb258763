import VectorBench.CommandLine.Options

/-!
# Command lines

A command line is a suite with options before and behind its name; those behind it win.  The words
before the suite form the outer level, the words behind it the inner one.

On each level an option takes its value from the same word, behind an equals sign, or from the next
word.  A value is checked when the next option starts or the level ends.  Words behind a double dash
are refused, and so is every word that is neither an option nor its value.  What is wrong with the
inner level is found before the last value of the outer one is checked.
-/

namespace VectorBench

structure OptionLevel where
  /-- The options whose values were checked, in the order given. -/
  stored : List (OptionName × Option String)
  /-- The last option, while it is not yet checked. -/
  pending : Option (OptionName × Option String)
deriving DecidableEq, Repr

namespace OptionLevel

def empty : OptionLevel where
  stored := []
  pending := none

def awaiting? (level : OptionLevel) : Option OptionName :=
  match level.pending with
  | some (name, none) => some name
  | _ => none

def store (level : OptionLevel) (name : OptionName) (value : Option String) :
    Except UsageError OptionLevel :=
  match value.bind name.objection? with
  | some error => .error error
  | none => .ok { level with stored := level.stored ++ [(name, value)] }

def settle (level : OptionLevel) : Except UsageError OptionLevel :=
  match level.pending with
  | some (name, value) => { level with pending := none }.store name value
  | none => .ok level

def start (level : OptionLevel) (name : OptionName) (value : Option String) :
    Except UsageError OptionLevel :=
  match level.settle with
  | .error error => .error error
  | .ok level =>
      match value with
      | some value => level.store name (some value)
      | none => .ok { level with pending := some (name, none) }

def supply (level : OptionLevel) (value : String) : Except UsageError OptionLevel :=
  match level.awaiting? with
  | some name => .ok { level with pending := some (name, some value) }
  | none => .error .unknownArgument

/-- The values of an option, in the order given; an occurrence without a value has none. -/
def occurrences (level : OptionLevel) (name : OptionName) : List (Option String) :=
  (level.stored.filter (·.1 = name)).map (·.2)

def lacksValue (level : OptionLevel) (name : OptionName) : Bool :=
  (level.occurrences name).all (·.isNone)

/-- What is wrong with the options of a level, the one given first before the others. -/
def objection? (level : OptionLevel) : Option UsageError :=
  level.stored.findSome? fun (name, _) =>
    if level.lacksValue name then some .missingValue
    else if 1 < (level.occurrences name).length then some .repeatedOption
    else none

def value? (level : OptionLevel) (name : OptionName) : Option String :=
  (level.occurrences name).findSome? id

end OptionLevel

inductive ArgumentForm where
  | terminator
  | long (name : String) (value : Option String)
  /-- One dash and letters, of which the first counts. -/
  | short (letter : Char)
  | plain
deriving DecidableEq, Repr

def ArgumentForm.of (argument : String) : ArgumentForm :=
  match argument.toList with
  | ['-', '-'] => .terminator
  | '-' :: '-' :: text =>
      let name := String.ofList (text.takeWhile (· ≠ '='))
      match text.dropWhile (· ≠ '=') with
      | _ :: value => .long name (some (String.ofList value))
      | [] => .long name none
  | '-' :: letter :: _ => .short letter
  | _ => .plain

/-- Help was asked for; the last value of the level is checked before that. -/
def askForHelp {α : Type} (topic : HelpTopic) (level : OptionLevel) : Except UsageError α :=
  match level.settle with
  | .error error => .error error
  | .ok _ => .error (.helpRequested topic)

/-- Takes one option, value or other word that starts no suite.  The topic is what help is about on
this level. -/
def OptionLevel.take (topic : HelpTopic) (level : OptionLevel) (argument : String) :
    Except UsageError OptionLevel :=
  match ArgumentForm.of argument with
  | .terminator => .error .unknownArgument
  | .long "help" none => askForHelp topic level
  | .long "help" (some _) => .error .unneededValue
  | .long name value =>
      match OptionName.ofText? name with
      | some name => level.start name value
      | none => .error .unknownArgument
  | .short letter => if letter = 'h' then askForHelp topic level else .error .unknownArgument
  | .plain => level.supply argument

def readOptions (suite : Suite) (level : OptionLevel) :
    List String → Except UsageError OptionLevel
  | [] => .ok level
  | argument :: arguments =>
      if ArgumentForm.of argument = .terminator ∧ arguments = [] then .ok level
      else
        match level.take (.suite suite) argument with
        | .error error => .error error
        | .ok level => readOptions suite level arguments

/-- What a help command asks about: nothing, or one suite or the help command itself. -/
def helpOutcome : List String → UsageError
  | [] => .helpRequested .program
  | [subject] =>
      match Suite.ofName? subject with
      | some suite => .helpRequested (.suite suite)
      | none => if subject = "help" then .helpRequested .helpCommand else .unknownSuite
  | _ => .unknownSuite

def readOuter (level : OptionLevel) :
    List String → Except UsageError (OptionLevel × Option (Suite × List String))
  | [] => .ok (level, none)
  | argument :: arguments =>
      match level.awaiting?, Suite.ofName? argument with
      | none, some suite => .ok (level, some (suite, arguments))
      | awaiting, _ =>
          if awaiting = none ∧ argument = "help" then .error (helpOutcome arguments)
          else if ArgumentForm.of argument = .terminator ∧ arguments = [] then .ok (level, none)
          else
            match level.take .program argument with
            | .error error => .error error
            | .ok level => readOuter level arguments

def OptionLevel.finish (level : OptionLevel) : Except UsageError OptionLevel :=
  match level.settle with
  | .error error => .error error
  | .ok settled =>
      match (level.awaiting?.filter settled.lacksValue), settled.objection? with
      | some _, _ => .error .missingValue
      | none, some error => .error error
      | none, none => .ok settled

def suiteMissing (level : OptionLevel) : UsageError :=
  match level.settle with
  | .error error => error
  | .ok settled =>
      if (level.awaiting?.filter settled.lacksValue).isSome then .missingValue
      else if settled.stored.isEmpty then .nothingGiven
      else .missingSuite

def selectOptions (suite : Suite) (outer inner : OptionLevel) : Except CommandError Options :=
  let value (name : OptionName) : Option String := (inner.value? name).or (outer.value? name)
  let number (name : OptionName) : Option Word := (value name).map Numeral.read
  let options : Options :=
    { suite
      mode := if value .mode = some "sw" then .software else .hardware
      hwOps := ((number .hwOps).getD 0x7).setWidth 8
      fault := number .fault
      progress := ((number .progress).getD 0x10000).toNat
      seed := ((value .seed).bind readSeed?).getD 1
      size := ((value .size).bind readSize?).getD 32 }
  match options.fault with
  | some operation => if 7 < operation then .error (.faultOutOfRange operation) else .ok options
  | none => .ok options

def parseCommandLine (arguments : List String) : Except CommandError Options :=
  match readOuter OptionLevel.empty arguments with
  | .error error => .error (.usage error)
  | .ok (outer, none) => .error (.usage (suiteMissing outer))
  | .ok (outer, some (suite, arguments)) =>
      match (readOptions suite OptionLevel.empty arguments).bind OptionLevel.finish with
      | .error error => .error (.usage error)
      | .ok inner =>
          match outer.finish with
          | .error error => .error (.usage error)
          | .ok outer => selectOptions suite outer inner

end VectorBench
