/-! Reading a file as text: strict UTF-8, and every line end a line feed. -/

namespace Klang.Text

inductive Utf8Fault where
  | invalidStart (byte : UInt8) (position : Nat)
  | invalidContinuation (byte : UInt8) (position length : Nat)
  | truncated (byte : UInt8) (position length : Nat)
deriving DecidableEq

def hexByte (byte : UInt8) : String :=
  String.ofList [Nat.digitChar (byte.toNat / 16), Nat.digitChar (byte.toNat % 16)]

def blameText (byte : UInt8) (position length : Nat) (reason : String) : String :=
  let place :=
    if length = 1 then s!"byte 0x{hexByte byte} in position {position}"
    else s!"bytes in position {position}-{position + length - 1}"
  s!"'utf-8' codec can't decode {place}: {reason}"

def Utf8Fault.message : Utf8Fault → String
  | invalidStart byte position => blameText byte position 1 "invalid start byte"
  | invalidContinuation byte position length =>
    blameText byte position length "invalid continuation byte"
  | truncated byte position length => blameText byte position length "unexpected end of data"

/-- The range of the byte after a leading byte: narrower where a shorter form exists, where
surrogates would begin and where the code points end. -/
def secondRange (lead : Nat) : Nat × Nat :=
  if lead = 0xe0 then (0xa0, 0xbf)
  else if lead = 0xed then (0x80, 0x9f)
  else if lead = 0xf0 then (0x90, 0xbf)
  else if lead = 0xf4 then (0x80, 0x8f)
  else (0x80, 0xbf)

def sequenceLength? (lead : Nat) : Option Nat :=
  if lead < 0x80 then some 1
  else if lead < 0xc2 then none
  else if lead < 0xe0 then some 2
  else if lead < 0xf0 then some 3
  else if lead < 0xf5 then some 4
  else none

def continuing (range : Nat × Nat) : Nat → List UInt8 → Nat
  | 0, _ => 0
  | _, [] => 0
  | wanted + 1, byte :: rest =>
    if range.1 ≤ byte.toNat ∧ byte.toNat ≤ range.2 then
      continuing (0x80, 0xbf) wanted rest + 1
    else 0

def codePoint (lead : Nat) (tail : List UInt8) : Nat :=
  let head := match tail.length with
    | 0 => lead
    | 1 => lead - 0xc0
    | 2 => lead - 0xe0
    | _ => lead - 0xf0
  tail.foldl (fun n byte => n * 64 + (byte.toNat - 0x80)) head

def decodeFrom (position : Nat) : List UInt8 → Except Utf8Fault (List Char)
  | [] => .ok []
  | byte :: rest =>
    match sequenceLength? byte.toNat with
    | none => .error (.invalidStart byte position)
    | some length =>
      let found := continuing (secondRange byte.toNat) (length - 1) rest
      if found + 1 = length then
        match decodeFrom (position + length) (rest.drop found) with
        | .ok chars => .ok (Char.ofNat (codePoint byte.toNat (rest.take found)) :: chars)
        | .error fault => .error fault
      else if rest.length = found then .error (.truncated byte position (found + 1))
      else .error (.invalidContinuation byte position (found + 1))
termination_by bytes => bytes.length
decreasing_by
  rw [List.length_drop, List.length_cons]
  omega

def unifyLineEnds : List Char → List Char
  | [] => []
  | '\r' :: '\n' :: rest => '\n' :: unifyLineEnds rest
  | c :: rest => (if c = '\r' then '\n' else c) :: unifyLineEnds rest

def ofBytes (bytes : ByteArray) : Except Utf8Fault String :=
  (decodeFrom 0 bytes.toList).map fun chars => String.ofList (unifyLineEnds chars)

end Klang.Text
