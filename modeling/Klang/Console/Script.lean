import Klang.Console.Interactive

/-! Scripts: running them, and showing their tokens or their tree. -/

namespace Klang.Console

/-- How the program ends: with an exit status, or where something has grown too large for the host and
nothing is there to tell. -/
inductive Exit where
  | status (code : Nat)
  | overflow
deriving DecidableEq

def scriptText (path : String) : FileEntry → Except (List String) String
  | .missing => .error [s!"Error: Script file '{path}' not found",
      "  Hint: Check the file path and make sure the file exists"]
  | .directory => .error [s!"Error: '{path}' is a directory"]
  | .file bytes =>
    (Text.ofBytes bytes).mapError fun fault => [s!"Error: Cannot decode file '{path}': {fault.message}",
      "  Hint: Make sure the file is a text file with UTF-8 encoding"]

def rule : String := "".pushn '=' 70

def failureLines (diagnostic : Diagnostic) (path source : String) : List String :=
  ["", rule, s!"{diagnostic.category.title} in '{path}'", rule, "", diagnostic.report source, rule, ""]

def tokenLine (token : Token) : String :=
  s!"  {token.span.start.line}:{token.span.start.column}  {token.describe}"

def listTokens (debug : Bool) (path source : String) (store : Store) : Exit × Store :=
  let reading := readTokens path source
  let store := store.logAll debug reading.trace
  match reading.result with
  | .ok tokens =>
    (.status 0, store.printLines (s!"{tokens.length} tokens:" :: tokens.map tokenLine))
  | .error diagnostic => (.status 1, store.printLines (failureLines diagnostic path source))

section

variable (stack : Stack)

def listTree (debug : Bool) (path source : String) (store : Store) : Exit × Store :=
  if stack.takes path source then
    let reading := readProgram path source
    let store := store.logAll debug reading.trace
    match reading.result with
    | .ok program =>
      let head := [s!"Parsed {program.statements.length} top-level statements:", "".pushn '=' 50]
      let store := store.printLines head
      if stack.outlines program then (.status 0, store.print (program.outline 0))
      else (.overflow, store)
    | .error diagnostic => (.status 1, store.printLines (failureLines diagnostic path source))
  else (.overflow, store.logAll debug (readTokens path source).trace)

def showResult (store : Store) : Value → Exit × Store
  | .null => (.status 0, store)
  | value =>
    match stack.display? store value with
    | some text => (.status 0, store.printLine s!"Program result: {text}")
    | none => (.overflow, store)

def depthLines (path : String) : List String := [
  s!"Runtime error in '{path}': maximum recursion depth exceeded",
  "  Hint: Raise the limit with --recursion-limit"]

def runScript (policies : Policies) (quiet : Bool) (path source : String) (store : Store) :
    Exit × Store :=
  if stack.takes path source then
    match runSource policies.debug policies path source store with
    | (.value value, store) => if quiet then (.status 0, store) else showResult stack store value
    | (.failed diagnostic, store) =>
      (.status 1, store.printLines (failureLines diagnostic path source))
    | (.returned, store) | (.tooDeep, store) | (.exhausted, store) =>
      (.status 1, store.printLines (depthLines path))
  else
    (.status 1, (store.logAll policies.debug (readTokens path source).trace).printLines
      (depthLines path))

end

end Klang.Console
