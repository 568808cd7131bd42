import Klang.Console

/-! The program itself: reads files and lines, and writes what the console says. -/

namespace Klang.Console

def emit (store : Store) : IO Store := do
  let output ← IO.getStdout
  let errors ← IO.getStderr
  store.trace.forM errors.putStrLn
  output.putStr store.output
  output.flush
  return { store with output := "", trace := #[] }

def readEntry (path : String) : IO FileEntry := do
  try return .file (← IO.FS.readBinFile path)
  catch
    | .inappropriateType .. => return .directory
    | _ => return .missing

partial def converse (stack : Stack) (policies : Policies) (dialogue : Dialogue) : IO UInt32 := do
  let dialogue := { dialogue with store := ← emit dialogue.printPrompt.store }
  let line ← (← IO.getStdin).getLine
  if line.isEmpty then
    let _ ← emit dialogue.farewell.store
    return 0
  else
    let text := if line.endsWith "\n" then String.ofList line.toList.dropLast else line
    match dialogue.feed stack policies text with
    | (.more, dialogue) => converse stack policies dialogue
    | (.leave, dialogue) => let _ ← emit dialogue.store; return 0
    | (.overflow, dialogue) => let _ ← emit dialogue.store; return 1

def execute (arguments : List String) : IO UInt32 := do
  let entry ← match parseArguments arguments with
    | .run settings => readEntry settings.script
    | _ => pure .missing
  -- a fresh process has a limit of 1000
  match openProgram arguments (fun _ => entry) { limit := 1000 } with
  | (.finish (.status code), store) => let _ ← emit store; return code.toUInt32
  | (.finish .overflow, store) => let _ ← emit store; return 1
  | (.converse stack policies, store) => converse stack policies (.start policies store)

end Klang.Console

def main (arguments : List String) : IO UInt32 := Klang.Console.execute arguments
