import Klang.Console.Arguments
import Klang.Console.Script

/-! The command line program as a function of its arguments, the files and the entered lines. -/

namespace Klang.Console

def usage : List String := [
  "usage: klang [-h] [-i] [--tokens] [--parse] [--debug] [--short-circuit]",
  "             [--no-implicit-return] [--no-top-level-return] [--quiet]",
  "             [--recursion-limit RECURSION_LIMIT] [--version]",
  "             [script]"]

def help : List String := usage ++ [
  "",
  "Klang Programming Language - a small dynamically typed scripting language",
  "",
  "positional arguments:",
  "  script                Klang script file to execute",
  "",
  "options:",
  "  -h, --help            show this help message and exit",
  "  -i, --interactive     Start interactive mode (after running the script, if",
  "                        one is given)",
  "  --tokens              Tokenize file and show tokens",
  "  --parse               Parse file and show the AST",
  "  --debug               Enable debug output for all stages",
  "  --short-circuit       Skip the right operand of '&&' and '||' when the left",
  "                        decides",
  "  --no-implicit-return  Functions without 'return' yield null",
  "  --no-top-level-return",
  "                        Treat 'return' outside a function as an error",
  "  --quiet               Do not print the program result",
  "  --recursion-limit RECURSION_LIMIT",
  "                        Host recursion limit for deep Klang recursion",
  "                        (default: 10000)",
  "  --version             show program's version number and exit",
  "",
  "Examples:",
  "  klang script.klang             # Run a Klang script",
  "  klang -i                       # Interactive mode",
  "  klang --tokens script.klang    # Show the token stream",
  "  klang --parse script.klang     # Parse and show the AST",
  "  klang --debug script.klang     # Run with evaluation trace on stderr",
  "        "]

inductive Plan where
  | finish (exit : Exit)
  | converse (stack : Stack) (policies : Policies)

namespace Settings

variable (settings : Settings) (host : Host)

/-- The limit that the option asks for, unless the host has a larger one. -/
def limit : Nat := max host.limit settings.recursionLimit.toNat

def stack : Stack := host.stack (settings.limit host)

def limited : Policies := { settings.policies with callLimit := (settings.stack host).calls }

end Settings

/-- Runs or shows a script; with the interactive option a session follows a run without error. -/
def openScript (host : Host) (settings : Settings) (entry : FileEntry) : Plan × Store :=
  let stack := settings.stack host
  let policies := settings.limited host
  let store := standardStore policies
  match scriptText settings.script entry with
  | .error lines => (.finish (.status 1), store.printLines lines)
  | .ok source =>
    if settings.tokens then
      let (exit, store) := listTokens policies.debug settings.script source store
      (.finish exit, store)
    else if settings.parse then
      let (exit, store) := listTree stack policies.debug settings.script source store
      (.finish exit, store)
    else
      let (exit, store) := runScript stack policies settings.quiet settings.script source store
      if settings.interactive ∧ exit = .status 0 then (.converse stack policies, store)
      else (.finish exit, store)

def openProgram (arguments : List String) (read : String → FileEntry) (host : Host := {}) :
    Plan × Store :=
  match parseArguments arguments with
  | .rejected reason =>
    (.finish (.status 2), ({} : Store).logAll true (usage ++ [s!"klang: error: {reason}"]))
  | .help => (.finish (.status 0), ({} : Store).printLines help)
  | .version => (.finish (.status 0), ({} : Store).printLine versionText)
  | .run settings =>
    if limitBound ≤ settings.limit host then (.finish .overflow, {})
    else if settings.script = "" then
      (.converse (settings.stack host) (settings.limited host),
        standardStore (settings.limited host))
    else openScript host settings (read settings.script)

def runConsole (arguments : List String) (read : String → FileEntry) (lines : List String)
    (host : Host := {}) : Exit × Store :=
  match openProgram arguments read host with
  | (.finish exit, store) => (exit, store)
  | (.converse stack policies, store) =>
    match (Dialogue.start policies store).converse stack policies lines with
    | (.overflow, store) => (.overflow, store)
    | (_, store) => (.status 0, store)

end Klang.Console
