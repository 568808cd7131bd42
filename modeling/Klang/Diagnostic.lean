import Klang.Source.Excerpt
import Klang.Source.Span

/-! What is told about a failure: its category, its place and the text of its report. -/

namespace Klang

open Source

inductive Category where
  | general
  | lex
  | parse
  | runtime
  | undefinedVariable
  | redeclaredVariable
  | constReassignment
  | typeMismatch
  | index
deriving DecidableEq, Inhabited

def Category.title : Category → String
  | general => "Error"
  | lex => "Lex error"
  | parse => "Parse error"
  | runtime => "Runtime error"
  | undefinedVariable => "UndefinedVariable"
  | redeclaredVariable => "RedeclaredVariable"
  | constReassignment => "ConstReassignment"
  | typeMismatch => "TypeMismatch"
  | index => "IndexError"

structure Diagnostic where
  category : Category
  message : String
  span : Option Span := none
  context : String := ""
  expected : List String := []
  got : Option String := none
  name : Option String := none
deriving DecidableEq, Inhabited

namespace Diagnostic

def headline (d : Diagnostic) : String :=
  let place := match d.span with
    | some span => s!" at {span.describe}"
    | none => ""
  let context := if d.context = "" then "" else s!"\n  Context: {d.context}"
  s!"{d.category.title}{place}: {d.message}{context}"

def locationLine (d : Diagnostic) : String :=
  match d.span with
  | some span => s!"  Location: {span.describe}\n"
  | none => ""

def expectationLines (d : Diagnostic) : String :=
  if d.category = .parse then
    let expected :=
      if d.expected.isEmpty then "" else "  Expected: " ++ ", ".intercalate d.expected ++ "\n"
    let got := match d.got with
      | some got => if got = "" then "" else s!"  Got: {got}\n"
      | none => ""
    expected ++ got
  else ""

/-- The lines around the error if its place and its source are known, and else its context. An empty
source counts as unknown. -/
def surroundings (d : Diagnostic) (source : String) : String :=
  let context := if d.context = "" then "" else s!"  Context: {d.context}\n"
  match d.span with
  | some span =>
    if source = "" then context else excerpt source span.start.line span.start.column 2 ++ "\n"
  | none => context

def report (d : Diagnostic) (source : String) : String :=
  s!"{d.category.title}: {d.message}\n" ++ d.locationLine ++ d.expectationLines ++
    d.surroundings source

end Diagnostic

end Klang
