import Klang.Source.Position

/-! Stretches of a named text. -/

namespace Klang.Source

structure Span where
  file : String
  start : Position
  stop : Position
  text : String := ""
deriving DecidableEq, Inhabited

def Span.describe (span : Span) : String :=
  let head := s!"{span.file}:{span.start.line}:{span.start.column}-"
  if span.start.line = span.stop.line then s!"{head}{span.stop.column}"
  else s!"{head}{span.stop.line}:{span.stop.column}"

end Klang.Source
