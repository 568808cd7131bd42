/-! Line and column of an offset, found by bisecting the offsets of the line feeds. -/

namespace Klang.Source

/-- A place in a text, counted from 1. Places made by hand may lie outside any text. -/
structure Position where
  line : Int
  column : Int
deriving DecidableEq, Inhabited

def newlinesFrom (offset : Nat) : List Char → List Nat
  | [] => []
  | c :: rest => if c = '\n' then offset :: newlinesFrom (offset + 1) rest
    else newlinesFrom (offset + 1) rest

def newlines (text : List Char) : List Nat := newlinesFrom 0 text

/-- Bisects the part `[low, high)` of an ascending array for the number of entries below `bound`. -/
def bisect (entries : Array Nat) (bound low high : Nat) : Nat :=
  if low < high then
    let middle := (low + high) / 2
    if entries[middle]?.getD 0 < bound then bisect entries bound (middle + 1) high
    else bisect entries bound low middle
  else low
termination_by high - low

/-- The position of an offset in a text of the given length; an offset outside the text counts as
the nearer end. -/
def locate (length : Nat) (breaks : Array Nat) (offset : Int) : Position :=
  let place := (min offset length).toNat
  let index := bisect breaks place 0 breaks.size
  let start := if index = 0 then 0 else breaks[index - 1]?.getD 0 + 1
  ⟨index + 1, (place : Int) - start + 1⟩

def position (text : List Char) (offset : Int) : Position :=
  locate text.length (newlines text).toArray offset

end Klang.Source
