import Klang.Console.Stack
import Klang.Text.Blank

/-! Interactive sessions: chunks of code and commands, entered line by line. -/

namespace Klang.Console

def versionText : String := "Klang v1.0.0"

structure Dialogue where
  store : Store
  pending : Option String := none

/-- Whether a session goes on after a line. It ends where the stack runs out and nothing is there to
tell. -/
inductive Step where
  | more
  | leave
  | overflow
deriving DecidableEq

def banner (debug : Bool) : List String :=
  [s!"{versionText} - Interactive Mode", "Type 'exit' to quit, ':help' for commands",
    "Readline enabled: Use ↑/↓ for history, Tab for completion"] ++
  (if debug then ["Debug mode enabled"] else []) ++ [""]

def helpLines : List String := [
  "REPL Commands:",
  "  :tokens <code>    - Show the token stream",
  "  :parse <code>     - Show the parsed AST",
  "  :env              - Show user-defined bindings",
  "  :help             - Show this help",
  "  exit              - Exit REPL",
  "",
  "Language features:",
  "  let x = 5;                     - Mutable binding",
  "  final y: int = 10;             - Final, annotated binding",
  "  def add(a, b) \x7b return a + b; \x7d - Function declaration",
  "  let sq = forge(x) -> x * x;    - Lambda",
  "  for (n in range(3)) \x7b print(n); \x7d"]

def completions : List String :=
  Token.keywords ++ HostFunction.standardNames ++ [":tokens", ":parse", ":env", ":help", "exit"]

def complete (start : String) : List String := completions.filter start.isPrefixOf

def shorten (text : String) : String :=
  if text.length ≤ 60 then text else String.ofList (text.toList.take 57) ++ "..."

section

variable (stack : Stack)

def showBindings (store : Store) : List (String × Binding) → Step × Store
  | [] => (.more, store)
  | (name, binding) :: rest =>
    match stack.display? store binding.value with
    | none => (.overflow, store)
    | some text => showBindings (store.printLine s!"  {name} = {shorten text}") rest

def showEnvironment (store : Store) : Step × Store :=
  let store := store.printLine "Current environment:"
  match store.userBindings with
  | [] => (.more, store.printLine "  (no user-defined bindings)")
  | bindings => showBindings stack store bindings

def showTokens (policies : Policies) (store : Store) (code : String) : Store :=
  let reading := readTokens "<input>" code
  let store := store.logAll policies.debug reading.trace
  match reading.result with
  | .ok tokens => store.printLines (tokens.map fun token => "  " ++ token.describe)
  | .error diagnostic => store.printLine (diagnostic.report "")

def showTree (policies : Policies) (store : Store) (code : String) : Step × Store :=
  if stack.takes "<input>" code then
    let reading := readProgram "<input>" code
    let store := store.logAll policies.debug reading.trace
    match reading.result with
    | .ok program =>
      if stack.outlines program then (.more, store.print (program.outline 0))
      else (.overflow, store)
    | .error diagnostic => (.more, store.printLine (diagnostic.report code))
  else (.overflow, store.logAll policies.debug (readTokens "<input>" code).trace)

def depthMessage : String := "Runtime error: maximum recursion depth exceeded"

def showValue (store : Store) : Value → Store
  | .null => store
  | value =>
    match stack.display? store value with
    | some text => store.printLine s!"=> {text}"
    | none => store.printLine depthMessage

def showOutcome (code : String) : Outcome × Store → Store
  | (.value value, store) => showValue stack store value
  | (.failed diagnostic, store) => store.printLine (diagnostic.report code)
  | (.returned, store) | (.tooDeep, store) | (.exhausted, store) => store.printLine depthMessage

def runChunk (policies : Policies) (store : Store) (code : String) : Store :=
  if stack.takes "<input>" code then
    showOutcome stack code (runSource policies.debug policies "<input>" code store)
  else (store.logAll policies.debug (readTokens "<input>" code).trace).printLine depthMessage

def argumentOf? (command text : String) : Option String :=
  if command.isPrefixOf text then some (String.ofList (text.toList.drop command.length)) else none

def handleChunk (policies : Policies) (store : Store) (code : String) : Step × Store :=
  let text := Text.trim code
  if text = "exit" then (.leave, store)
  else if text = "" then (.more, store)
  else if text = ":env" then showEnvironment stack store
  else if text = ":help" then (.more, store.printLines helpLines)
  else match argumentOf? ":tokens " text with
    | some rest => (.more, showTokens policies store rest)
    | none =>
      match argumentOf? ":parse " text with
      | some rest => showTree stack policies store rest
      | none => (.more, runChunk stack policies store code)

end

namespace Dialogue

def prompt (dialogue : Dialogue) : String :=
  if dialogue.pending.isSome then "  ...> " else "klang> "

def feed (stack : Stack) (policies : Policies) (dialogue : Dialogue) (line : String) :
    Step × Dialogue :=
  let code := match dialogue.pending with
    | some earlier => earlier ++ "\n" ++ line
    | none => line
  if Token.needsMore code then (.more, { dialogue with pending := some code })
  else
    let (step, store) := handleChunk stack policies dialogue.store code
    (step, ⟨store, none⟩)

def start (policies : Policies) (store : Store) : Dialogue :=
  ⟨store.printLines (banner policies.debug), none⟩

def printPrompt (dialogue : Dialogue) : Dialogue :=
  { dialogue with store := dialogue.store.print dialogue.prompt }

def farewell (dialogue : Dialogue) : Dialogue :=
  { dialogue with store := dialogue.store.print "\nGoodbye!\n" }

def converse (stack : Stack) (policies : Policies) : List String → Dialogue → Step × Store
  | [], dialogue => (.leave, dialogue.printPrompt.farewell.store)
  | line :: rest, dialogue =>
    match feed stack policies dialogue.printPrompt line with
    | (.more, dialogue) => converse stack policies rest dialogue
    | (step, dialogue) => (step, dialogue.store)

end Dialogue

end Klang.Console
