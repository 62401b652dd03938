/-! # Commands and their usage

The command line has a command for each job. Each command has a description and a usage text that
lists its flags.
-/

namespace CellMachine.Console

/-- The commands of the command line; the bare one only shows its usage or its version. -/
inductive Command where
  | bare
  | run
  | search
  | nounVerb
  deriving DecidableEq, Repr

namespace Command

def ofName? (name : String) : Option Command :=
  if name = "run" then some run
  else if name = "search" then some search
  else if name = "nounverb" then some nounVerb
  else none

def description : Command → String
  | bare => "Run intcode programs and amplifier chains."
  | run =>
    "Run an intcode program with the given input values and print its output\n" ++
    "values, one per line."
  | search =>
    "Run one amplifier per phase setting for every ordering of the phase settings\n" ++
    "and print the highest signal sent by the last amplifier."
  | nounVerb =>
    "Write the noun and verb at addresses 1 and 2, run the program and print the\n" ++
    "value left in cell 0. With --target, search for the noun and verb producing\n" ++
    "the target value and print 100*noun+verb."

def usage : Command → String
  | bare =>
    "Usage:\n" ++
    "  intcode [flags]\n" ++
    "  intcode [command]\n" ++
    "\n" ++
    "Available Commands:\n" ++
    "  completion  Generate the autocompletion script for the specified shell\n" ++
    "  help        Help about any command\n" ++
    "  nounverb    Run a program with patched noun and verb.\n" ++
    "  run         Run an intcode program.\n" ++
    "  search      Search for the best amplifier phase settings.\n" ++
    "\n" ++
    "Flags:\n" ++
    "  -h, --help      help for intcode\n" ++
    "  -v, --verbose   increase logging verbosity\n" ++
    "      --version   print version\n" ++
    "\n" ++
    "Use \"intcode [command] --help\" for more information about a command.\n"
  | run =>
    "Usage:\n" ++
    "  intcode run [flags] program\n" ++
    "\n" ++
    "Flags:\n" ++
    "      --dump          dump the program counter and memory image upon exit\n" ++
    "  -h, --help          help for run\n" ++
    "  -i, --input value   input value (can be specified multiple times or comma separated) (default [])\n" ++
    "      --size int      minimum memory size in cells\n" ++
    "\n" ++
    "Global Flags:\n" ++
    "  -v, --verbose   increase logging verbosity\n"
  | search =>
    "Usage:\n" ++
    "  intcode search [flags] program\n" ++
    "\n" ++
    "Flags:\n" ++
    "      --feedback            connect the last amplifier to the first one\n" ++
    "  -h, --help                help for search\n" ++
    "      --phases int64Slice   phase settings (default 0,1,2,3,4 or 5,6,7,8,9 with --feedback) (default [])\n" ++
    "      --seed int            input signal of the first amplifier\n" ++
    "\n" ++
    "Global Flags:\n" ++
    "  -v, --verbose   increase logging verbosity\n"
  | nounVerb =>
    "Usage:\n" ++
    "  intcode nounverb [flags] program\n" ++
    "\n" ++
    "Flags:\n" ++
    "  -h, --help         help for nounverb\n" ++
    "      --noun int     value written at address 1 (default 12)\n" ++
    "      --target int   search for the noun and verb producing this value\n" ++
    "      --verb int     value written at address 2 (default 2)\n" ++
    "\n" ++
    "Global Flags:\n" ++
    "  -v, --verbose   increase logging verbosity\n"

/-- The description of a command and its usage. -/
def help (command : Command) : String :=
  command.description ++ "\n\n" ++ command.usage

end Command

end CellMachine.Console
