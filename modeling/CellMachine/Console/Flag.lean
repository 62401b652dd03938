import CellMachine.Text.Numeral

/-! # Flags

Arguments that start with a dash are flags. A long flag is `--name`, followed by its value after
`=` or in the next argument; a short flag is one letter after a single dash, several of which may
be joined as long as only the last takes a value. A switch takes a value only after `=`. Flags may
stand anywhere among the other arguments, and `--` ends them.
-/

namespace CellMachine.Console

open Text

/-- The value of a flag, which is also its kind. -/
inductive FlagValue where
  | switch (on : Bool)
  | number (value : Cell)
  /-- A list of numbers, which adds up when the flag is given several times. -/
  | numbers (values : List Cell)
  deriving DecidableEq, Repr

/-- A flag with its current value. -/
structure Flag where
  name : String
  short : Option Char := none
  value : FlagValue
  /-- Whether the flag was given. -/
  given : Bool := false
  deriving DecidableEq, Repr

namespace Flag

/-- The names of a flag as shown in messages. -/
def title (f : Flag) : String :=
  match f.short with
  | some c => "-" ++ c.toString ++ ", --" ++ f.name
  | none => "--" ++ f.name

/-- Whether a flag takes no value unless one is joined to it. -/
def isSwitch (f : Flag) : Bool :=
  match f.value with
  | .switch _ => true
  | _ => false

/-- The spellings of the two truth values. -/
def truth? (text : String) : Option Bool :=
  if text ∈ ["1", "t", "T", "TRUE", "true", "True"] then some true
  else if text ∈ ["0", "f", "F", "FALSE", "false", "False"] then some false
  else none

/-- Reads a number, or says why the text is none. -/
def readNumber (text : String) : Except String Cell :=
  let symbols := Symbol.ofString text
  (Numeral.literal symbols).mapError (·.report symbols)

/-- The pieces of a text between commas. -/
def pieces (text : String) : List String :=
  (text.toList.splitOn ',').map String.ofList

def update (f : Flag) (argument : String) : Except String FlagValue :=
  match f.value with
  | .switch _ =>
    match truth? argument with
    | some on => .ok (.switch on)
    | none =>
      .error ("strconv.ParseBool: parsing " ++ Quoted.text argument ++ ": invalid syntax")
  | .number _ => (readNumber argument).map .number
  | .numbers values =>
    ((pieces argument).mapM readNumber).map fun more =>
      .numbers (if f.given then values ++ more else more)

end Flag

inductive FlagError where
  | badSyntax (argument : String)
  | unknown (name : String)
  | unknownShort (letter : Char) (group : String)
  | needsArgument (name : String)
  | needsArgumentShort (letter : Char)
  | invalidArgument (argument title reason : String)
  deriving DecidableEq, Repr

namespace FlagError

def message : FlagError → String
  | badSyntax argument => "bad flag syntax: " ++ argument
  | unknown name => "unknown flag: --" ++ name
  | unknownShort letter group =>
    "unknown shorthand flag: " ++ Quoted.char letter ++ " in -" ++ group
  | needsArgument name => "flag needs an argument: --" ++ name
  | needsArgumentShort letter =>
    "flag needs an argument: " ++ Quoted.char letter ++ " in -" ++ letter.toString
  | invalidArgument argument title reason =>
    "invalid argument " ++ Quoted.text argument ++ " for " ++ Quoted.text title ++ " flag: " ++
      reason

end FlagError

abbrev Flags := List Flag

namespace Flags

def byName? (flags : Flags) (name : String) : Option Flag :=
  flags.find? (·.name = name)

def byLetter? (flags : Flags) (letter : Char) : Option Flag :=
  flags.find? (·.short = some letter)

def give (flags : Flags) (flag : Flag) (argument : String) : Except FlagError Flags :=
  match flag.update argument with
  | .error reason => .error (.invalidArgument argument flag.title reason)
  | .ok value =>
    .ok (flags.map fun f => if f.name = flag.name then { f with value, given := true } else f)

def isOn (flags : Flags) (name : String) : Bool :=
  match flags.byName? name with
  | some { value := .switch on, .. } => on
  | _ => false

def number (flags : Flags) (name : String) : Cell :=
  match flags.byName? name with
  | some { value := .number value, .. } => value
  | _ => 0

def numbers (flags : Flags) (name : String) : List Cell :=
  match flags.byName? name with
  | some { value := .numbers values, .. } => values
  | _ => []

def isGiven (flags : Flags) (name : String) : Bool :=
  match flags.byName? name with
  | some flag => flag.given
  | none => false

end Flags

structure Arguments where
  flags : Flags
  others : List String := []
  /-- The flag whose value is the next argument, with the error if there is none. -/
  waiting : Option (Flag × FlagError) := none
  /-- Whether the flags have been ended. -/
  ended : Bool := false

namespace Arguments

def addOther (a : Arguments) (argument : String) : Arguments :=
  { a with others := a.others ++ [argument] }

def give (a : Arguments) (flag : Flag) (argument : String) : Except FlagError Arguments := do
  return { a with flags := ← a.flags.give flag argument }

/-- Reads a long flag from what stands after the two dashes. -/
def readLong (a : Arguments) (text : List Char) : Except FlagError Arguments :=
  let name := String.ofList (text.takeWhile (· ≠ '='))
  match text.head? with
  | none | some '-' | some '=' => .error (.badSyntax ("--" ++ String.ofList text))
  | some _ =>
    match a.flags.byName? name with
    | none => .error (.unknown name)
    | some flag =>
      match text.dropWhile (· ≠ '=') with
      | _ :: value => a.give flag (String.ofList value)
      | [] =>
        if flag.isSwitch then a.give flag "true"
        else .ok { a with waiting := some (flag, .needsArgument name) }

/-- The letter shown for an unknown short flag: the first byte of its encoding. -/
def leadLetter (c : Char) : Char :=
  match Utf8.encodeChar c with
  | byte :: _ => Char.ofNat byte.toNat
  | [] => c

/-- Reads a group of short flags from what stands after the dash. Groups that start with `test.` are
reserved and have no effect. -/
def readShort (a : Arguments) : List Char → Except FlagError Arguments
  | [] => .ok a
  | c :: rest =>
    if "test.".toList.isPrefixOf (c :: rest) then .ok a
    else match a.flags.byLetter? c with
      | none => .error (.unknownShort (leadLetter c) (String.ofList (c :: rest)))
      | some flag =>
        match rest with
        | '=' :: next :: value => a.give flag (String.ofList (next :: value))
        | _ =>
          if flag.isSwitch then do (← a.give flag "true").readShort rest
          else if rest.isEmpty then
            .ok { a with waiting := some (flag, .needsArgumentShort c) }
          else a.give flag (String.ofList rest)

def read (a : Arguments) (argument : String) : Except FlagError Arguments :=
  if a.ended then .ok (a.addOther argument)
  else match a.waiting with
    | some (flag, _) => { a with waiting := none }.give flag argument
    | none =>
      match argument.toList with
      | ['-', '-'] => .ok { a with ended := true }
      | '-' :: '-' :: text => a.readLong text
      | '-' :: c :: rest => a.readShort (c :: rest)
      | _ => .ok (a.addOther argument)

def ofList (flags : Flags) (arguments : List String) : Except FlagError Arguments := do
  let a ← arguments.foldlM read { flags }
  match a.waiting with
  | some (_, e) => .error e
  | none => .ok a

end Arguments

end CellMachine.Console
