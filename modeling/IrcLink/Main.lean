import IrcLink.Cli

/-!
The program. It reads its arguments and its configuration; whoever embeds the library brings a system to run the bot
on.
-/

open IrcLink

def readFile (path : String) : IO Config.File := do
  try
    return some (← IO.FS.readBinFile path).toList
  catch _ => return none

def usageText : String := "Usage: bot [OPTIONS] [CONFIG]\n\nFor more information, try '--help'.\n"

def main (args : List String) : IO UInt32 := do
  let file ← match Cli.parse {} false args with
    | .run (some path) => readFile path
    | _ => pure none
  match Cli.run args fun _ => file with
  | .error exit =>
    IO.print exit.stdout
    IO.eprint (exit.stderr.getD usageText)
    return exit.code.toUInt32
  | .ok _ =>
    IO.eprintln "This program was built without a network to connect to."
    return 1
