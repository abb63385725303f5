import Handset.Config.Document
import Handset.Demo

/-! The command line: runs the demonstration, under the configuration in a file if one is named. -/

namespace Handset

/-- What a file holds, if it can be read. -/
def readContents (name : String) : IO (Option ByteArray) := do
  try
    return some (← IO.FS.readBinFile name)
  catch _ =>
    return none

/-- The configuration in the file that the arguments name, or the default one. -/
def chooseConfig : List String → IO (Except Config.FileError Config)
  | [] => return .ok {}
  | name :: _ => return Config.ofFile name (← readContents name)

end Handset

open Handset in
/-- Exits with 1 where the configuration is refused or its canvas cannot be laid out. -/
def main (args : List String) : IO UInt32 := do
  match ← chooseConfig args with
  | .error error =>
    IO.eprintln error.report
    return 1
  | .ok config =>
    match Demo.run config with
    | .error fault =>
      IO.eprintln fault.report
      return 1
    | .ok report =>
      IO.println report.line
      return 0
