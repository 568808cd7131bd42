import Klang.Source.Lines

/-! Numbered lines around a place, with a caret under it. -/

namespace Klang.Source

def numberedLine (number : Nat) (text : String) : String :=
  let digits := toString number
  "".pushn ' ' (4 - digits.length) ++ digits ++ ": " ++ text

def caretLine (column : Int) : String :=
  "      ".pushn ' ' (column - 1).toNat ++ "^ Error here"

def excerptLines (text : String) (line column radius : Int) : List String :=
  (lines text).zipIdx.flatMap fun (content, index) =>
    if line - radius - 1 ≤ index ∧ index < line + radius then
      if (index : Int) = line - 1 then [numberedLine (index + 1) content, caretLine column]
      else [numberedLine (index + 1) content]
    else []

def excerpt (text : String) (line column radius : Int) : String :=
  "\n".intercalate (excerptLines text line column radius)

end Klang.Source
