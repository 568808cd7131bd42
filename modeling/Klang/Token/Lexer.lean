import Klang.Diagnostic
import Klang.Text.Escape
import Klang.Token.Lexeme

/-! Source texts as tokens. A text is cut into lexemes with the layout before each; positions are
attached afterwards. -/

namespace Klang.Token

open Source Text

structure Piece where
  gap : List Char
  kind : TokenKind
  text : List Char
deriving DecidableEq

inductive Ending where
  | clean (gap : List Char)
  | fault (gap : List Char) (fault : LexFault) (text : List Char)

def pieces (text : List Char) : List Piece × Ending :=
  match _h : front (layout text).2 with
  | .done => ([], .clean (layout text).1)
  | .fault fault lexeme => ([], .fault (layout text).1 fault lexeme)
  | .lexeme kind lexeme rest =>
    let (more, ending) := pieces rest
    (⟨(layout text).1, kind, lexeme⟩ :: more, ending)
termination_by text.length
decreasing_by
  obtain ⟨he, hn⟩ := front_append _h
  have hl := congrArg List.length (layout_append text)
  have hf := congrArg List.length he
  have : 0 < lexeme.length := List.length_pos_iff.2 hn
  simp only [List.length_append] at hl hf
  omega

def Piece.value (piece : Piece) : String :=
  String.ofList <| match piece.kind with
    | .string => unescape ((piece.text.drop 1).dropLast)
    | _ => piece.text

def Piece.length (piece : Piece) : Nat := piece.gap.length + piece.text.length

def placeAll (place : Nat → List Char → Span) (offset : Nat) : List Piece → List Token
  | [] => []
  | piece :: rest =>
    ⟨piece.kind, piece.value, place (offset + piece.gap.length) piece.text⟩ ::
      placeAll place (offset + piece.length) rest

structure LexError where
  fault : LexFault
  span : Span
  context : String

def LexError.diagnostic (e : LexError) : Diagnostic where
  category := .lex
  message := e.fault.message
  span := some e.span
  context := e.context

def spanIn (file : String) (length : Nat) (breaks : Array Nat) (offset : Nat) (text : List Char) :
    Span where
  file := file
  start := locate length breaks offset
  stop := locate length breaks (offset + text.length : Nat)
  text := String.ofList text

def tokenize (file source : String) : Except LexError (List Token) :=
  let text := source.toList
  let place := spanIn file text.length (newlines text).toArray
  let (found, ending) := pieces text
  match ending with
  | .clean _ => .ok (placeAll place 0 found ++ [⟨.eof, "", place text.length []⟩])
  | .fault gap fault lexeme =>
    let span := place ((found.map Piece.length).foldr (· + ·) gap.length) lexeme
    .error ⟨fault, span, line source span.start.line⟩

def bracketDepth (tokens : List Token) : Int :=
  tokens.foldl (fun depth token =>
    if token.kind ≠ .delimiter then depth
    else if token.value ∈ ["(", "[", "\x7b"] then depth + 1
    else if token.value ∈ [")", "]", "\x7d"] then depth - 1
    else depth) 0

/-- Whether brackets opened in a text are still open; a text that has no tokens is complete. -/
def needsMore (source : String) : Bool :=
  match tokenize "<input>" source with
  | .ok tokens => 0 < bracketDepth tokens
  | .error _ => false

end Klang.Token
