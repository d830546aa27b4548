import NarrowInt.Build.Generation

/-!
# The listing generator

Reads the setting and the output directory from the environment, prints the report, and writes the
listing, or fails with a message.
-/

open NarrowInt

/-- The program. -/
def main : IO UInt32 := do
  let setting := (← IO.getEnv (String.ofList Setting.name)).map String.toUTF8
  let run := generate setting
  for line in run.report do
    IO.println (String.ofList line)
  match run.result with
  | .failure message =>
    IO.eprintln (String.ofList message)
    return 101
  | .listing W =>
    match ← IO.getEnv "OUT_DIR" with
    | none =>
      IO.eprintln "OUT_DIR is not set"
      return 101
    | some directory =>
      IO.FS.writeFile (directory ++ "/entry_points.rs") (String.ofList W.listingText)
      return 0
