import Klang.Number.Numeral
import Klang.Text.Blank
import Klang.Text.Quoted
import Klang.Value

/-! The command line: options in any order, abbreviated as long as they stay unambiguous, and at
most one script. -/

namespace Klang.Console

inductive Flag where
  | help
  | interactive
  | tokens
  | parse
  | debug
  | shortCircuit
  | noImplicitReturn
  | noTopLevelReturn
  | quiet
  | recursionLimit
  | version
deriving DecidableEq

def spellings : List (String × Flag) := [
  ("-h", .help), ("--help", .help), ("-i", .interactive), ("--interactive", .interactive),
  ("--tokens", .tokens), ("--parse", .parse), ("--debug", .debug),
  ("--short-circuit", .shortCircuit), ("--no-implicit-return", .noImplicitReturn),
  ("--no-top-level-return", .noTopLevelReturn), ("--quiet", .quiet),
  ("--recursion-limit", .recursionLimit), ("--version", .version)]

structure Settings where
  script : String := ""
  interactive : Bool := false
  tokens : Bool := false
  parse : Bool := false
  quiet : Bool := false
  policies : Policies := {}
  recursionLimit : Int := 10000

def Settings.switch (settings : Settings) : Flag → Settings
  | .interactive => { settings with interactive := true }
  | .tokens => { settings with tokens := true }
  | .parse => { settings with parse := true }
  | .quiet => { settings with quiet := true }
  | .debug => { settings with policies := { settings.policies with debug := true } }
  | .shortCircuit => { settings with policies := { settings.policies with shortCircuit := true } }
  | .noImplicitReturn =>
    { settings with policies := { settings.policies with implicitReturn := false } }
  | .noTopLevelReturn =>
    { settings with policies := { settings.policies with topLevelReturn := false } }
  -- no switches: two show something, and the limit has a value
  | .help | .version | .recursionLimit => settings

/-- A word of the command line. An option has the flag it spells, whether it spells it with one dash,
and the value attached to it; behind the two dashes all words are plain. -/
inductive Word where
  | plain (text : String)
  | dashes
  | option (flag : Flag) (short : Bool) (value : Option String)
  | unknown (text : String)

def Flag.complaint (flag : Flag) (message : String) : String :=
  let names := "/".intercalate ((spellings.filter fun (_, other) => other = flag).map Prod.fst)
  s!"argument {names}: {message}"

def Flag.ignoredValue (flag : Flag) (value : String) : String :=
  flag.complaint s!"ignored explicit argument {Text.quoted value}"

def ambiguous (text : String) (matching : List String) : String :=
  let options := ", ".intercalate matching
  s!"ambiguous option: {text} could match {options}"

def unrecognized (words : List String) : String :=
  "unrecognized arguments: " ++ " ".intercalate words

def isNegativeNumber (text : String) : Bool :=
  match text.toList with
  | '-' :: digits =>
    match digits.dropWhile Text.isDigit with
    | [] => !digits.isEmpty
    | '.' :: fraction => !fraction.isEmpty && fraction.all Text.isDigit
    | _ => false
  | _ => false

def ungrouped? : List Char → Option (List Char)
  | [] => none
  | [c] => if Text.isDigit c then some [c] else none
  | c :: '_' :: rest => if Text.isDigit c then (ungrouped? rest).map (c :: ·) else none
  | c :: rest => if Text.isDigit c then (ungrouped? rest).map (c :: ·) else none

/-- Numbers of more than 4300 digits are not read. -/
def natural? (text : List Char) : Option Nat := do
  let digits ← ungrouped? text
  if 4300 < digits.length then none else Number.digitsValue? digits

def integer? (text : String) : Option Int :=
  match (Text.trim text).toList with
  | '-' :: digits => (natural? digits).map fun n => -(n : Int)
  | '+' :: digits => (natural? digits).map Int.ofNat
  | digits => (natural? digits).map Int.ofNat

def splitEquals? (text : String) : Option (String × String) :=
  let cs := text.toList
  match cs.dropWhile (· ≠ '=') with
  | _ :: value => some (String.ofList (cs.takeWhile (· ≠ '=')), String.ofList value)
  | [] => none

def matchesOf (start : String) : List (String × Flag) :=
  spellings.filter fun (spelling, _) => start.isPrefixOf spelling

def longOption (text : String) : Except String Word :=
  let (start, value) := match splitEquals? text with
    | some (start, value) => (start, some value)
    | none => (text, none)
  match spellings.lookup text with
  | some flag => .ok (.option flag false none)
  | none =>
    match spellings.lookup start with
    | some flag => .ok (.option flag false value)
    | none =>
      match matchesOf start with
      | [(_, flag)] => .ok (.option flag false value)
      | [] => .ok (if ' ' ∈ text.toList then .plain text else .unknown text)
      | several => .error (ambiguous text (several.map Prod.fst))

def shortOption (text : String) : Word :=
  let cs := text.toList
  match spellings.lookup (String.ofList (cs.take 2)) with
  | some flag =>
    .option flag true (if cs.length = 2 then none else some (String.ofList (cs.drop 2)))
  | none => if isNegativeNumber text ∨ ' ' ∈ cs then .plain text else .unknown text

def classify (text : String) : Except String Word :=
  match text.toList with
  | '-' :: '-' :: _ => longOption text
  | '-' :: _ :: _ => .ok (shortOption text)
  | _ => .ok (.plain text)

def classifyAll : List String → Except String (List Word)
  | [] => .ok []
  | text :: rest =>
    if text = "--" then .ok (.dashes :: rest.map .plain)
    else do return (← classify text) :: (← classifyAll rest)

def Word.isOption : Word → Bool
  | option .. | unknown _ => true
  | plain _ | dashes => false

def Word.text : Word → String
  | plain text | unknown text => text
  | dashes => "--"
  | option .. => ""

inductive Request where
  | run (settings : Settings)
  | version
  | help
  | rejected (reason : String)

def conclude (settings : Settings) : List String → Request
  | [] => .run settings
  | surplus => .rejected (unrecognized surplus)

def lastWords (settings : Settings) (taken : Bool) (surplus : List String) (words : List Word) :
    Request :=
  let finish (settings : Settings) (rest : List Word) : Request :=
    conclude settings (surplus ++ rest.map Word.text)
  if taken then finish settings words
  else match words with
    | .plain script :: .dashes :: rest => finish { settings with script } rest
    | .plain script :: rest => finish { settings with script } rest
    | .dashes :: .plain script :: rest => finish { settings with script } rest
    | .dashes :: rest => finish settings rest
    | rest => finish settings rest

/-- A flag and those in the letters written together with it, and what is left over from the first
letter on that is no flag. A value cannot be attached, since none of these flags takes one. -/
def flagsOfLetters (flag : Flag) : List Char → Except String (List Flag × List String)
  | [] => .ok ([flag], [])
  | '=' :: value => .error (flag.ignoredValue (String.ofList value))
  | '-' :: rest => .error (flag.ignoredValue (String.ofList ('-' :: rest)))
  | letter :: rest =>
    match spellings.lookup (String.ofList ['-', letter]) with
    | some next => (flagsOfLetters next rest).map fun (flags, surplus) => (flag :: flags, surplus)
    | none => .ok ([flag], [String.ofList ('-' :: letter :: rest)])

def flagsOf (flag : Flag) (short : Bool) : Option String → Except String (List Flag × List String)
  | none => .ok ([flag], [])
  | some letters =>
    if short then flagsOfLetters flag letters.toList else .error (flag.ignoredValue letters)

def applyFlags (settings : Settings) : List Flag → Except Request Settings
  | [] => .ok settings
  | .help :: _ => .error .help
  | .version :: _ => .error .version
  | flag :: rest => applyFlags (settings.switch flag) rest

def limitTo (settings : Settings) (value : String) : Except String Settings :=
  match integer? value with
  | some recursionLimit => .ok { settings with recursionLimit }
  | none => .error (Flag.recursionLimit.complaint s!"invalid int value: {Text.quoted value}")

def interpret (settings : Settings) (taken : Bool) (surplus : List String) (words : List Word) :
    Request :=
  if !words.any Word.isOption then lastWords settings taken surplus words
  else match words with
    | .plain script :: rest =>
      if taken then interpret settings taken (surplus ++ [script]) rest
      else interpret { settings with script } true surplus rest
    | .option .recursionLimit _ (some value) :: rest
    | .option .recursionLimit _ none :: .plain value :: rest =>
      match limitTo settings value with
      | .ok settings => interpret settings taken surplus rest
      | .error reason => .rejected reason
    | .option .recursionLimit _ none :: _ =>
      .rejected (Flag.recursionLimit.complaint "expected one argument")
    | .option flag short value :: rest =>
      match flagsOf flag short value with
      | .error reason => .rejected reason
      | .ok (flags, strange) =>
        match applyFlags settings flags with
        | .ok settings => interpret settings taken (surplus ++ strange) rest
        | .error request => request
    | .unknown text :: rest => interpret settings taken (surplus ++ [text]) rest
    | .dashes :: rest => interpret settings taken (surplus ++ ["--"]) rest
    | [] => conclude settings surplus
termination_by words.length

def parseArguments (arguments : List String) : Request :=
  match classifyAll arguments with
  | .ok words => interpret {} false [] words
  | .error reason => .rejected reason

end Klang.Console
