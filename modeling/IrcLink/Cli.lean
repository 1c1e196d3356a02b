import IrcLink.Config.Reading

/-!
The command line: an optional path of a configuration file, and a flag that prints a configuration to start from.
-/

namespace IrcLink.Cli

inductive Request where
  | usageError
  | help
  | printConfig
  | run (path : Option String)
  deriving Repr, DecidableEq

structure Args where
  printConfig : Bool := false
  path : Option String := none

/-- Reads the arguments in order. Help and the first mistake end the reading; after `--` everything is a path. -/
def parse (seen : Args) (pathsOnly : Bool) : List String → Request
  | [] => if seen.printConfig then .printConfig else .run seen.path
  | arg :: rest =>
    if !pathsOnly && arg = "--" then parse seen true rest
    else if !pathsOnly && arg = "--print-config" then
      if seen.printConfig then .usageError else parse { seen with printConfig := true } pathsOnly rest
    else if !pathsOnly && (arg = "--help" || arg.startsWith "-h") then .help
    else if (!pathsOnly && arg.startsWith "-" && arg ≠ "-") || arg = "" || seen.path.isSome then .usageError
    else parse { seen with path := some arg } pathsOnly rest

def helpText : String := "\n".intercalate [
  "IRC bot that stays connected",
  "",
  "Usage: bot [OPTIONS] [CONFIG]",
  "",
  "Arguments:",
  "  [CONFIG]  Path to configuration file",
  "",
  "Options:",
  "      --print-config  Print default configuration and exit",
  "  -h, --help          Print help",
  ""]

/-- How the program ends without connecting. The text of a usage error is left to whoever shows it. -/
structure Exit where
  code : Nat
  stdout : String := ""
  stderr : Option String := some ""
  deriving Repr, DecidableEq

def loadFailure : Config.LoadError → String
  | .noFile => "IO error: No such file or directory (os error 2)\n"
  | .notText => "IO error: stream did not contain valid UTF-8\n"
  | .malformed => "Parse error"
  | .shape _ => "Parse error"
  | .invalid e => "Invalid configuration: " ++ e.message ++ "\n"

def run (args : List String) (open? : String → Config.File) : Except Exit Config :=
  match parse {} false args with
  | .usageError => .error { code := 2, stderr := none }
  | .help => .error { code := 0, stdout := helpText }
  | .printConfig => .error { code := 0, stdout := Config.sample }
  | .run none =>
    .error { code := 1, stderr := some "No config file specified. Pass a path or use --print-config\n" }
  | .run (some path) =>
    match Config.load (open? path) with
    | .ok config => .ok config
    | .error e => .error { code := 1, stderr := some ("Failed to load config: " ++ loadFailure e) }

end IrcLink.Cli
