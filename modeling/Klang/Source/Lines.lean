/-! The lines of a text. Only the line feed ends a line, and the last line is never ended. -/

namespace Klang.Source

def splitLines : List Char → List (List Char)
  | [] => [[]]
  | c :: rest =>
    if c = '\n' then [] :: splitLines rest
    else match splitLines rest with
      | [] => [[c]]
      | line :: others => (c :: line) :: others

theorem splitLines_ne_nil (text : List Char) : splitLines text ≠ [] := by
  induction text with
  | nil => simp [splitLines]
  | cons c rest ih =>
    by_cases h : c = '\n'
    · simp [splitLines, h]
    · simp only [splitLines, if_neg h]
      split <;> simp

def lines (text : String) : List String := (splitLines text.toList).map String.ofList

def line (text : String) (number : Int) : String :=
  if 1 ≤ number then (lines text)[(number - 1).toNat]?.getD "" else ""

end Klang.Source
