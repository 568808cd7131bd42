import Klang.Text.Digit
import Klang.Token

/-! What stands at the front of a text: something to skip, a lexeme, or a fault. -/

namespace Klang.Token

open Text

def closeComment? : List Char → Option (List Char × List Char)
  | [] => none
  | '*' :: '/' :: rest => some (['*', '/'], rest)
  | c :: rest => (closeComment? rest).map fun (body, after) => (c :: body, after)

theorem closeComment?_append {text body after : List Char}
    (h : closeComment? text = some (body, after)) : body ++ after = text := by
  fun_induction closeComment? text generalizing body after with
  | case1 => simp at h
  | case2 rest => simp at h; simp [← h.1, ← h.2]
  | case3 c rest _ ih =>
    obtain ⟨⟨b, a⟩, hb, he⟩ := Option.map_eq_some_iff.1 h
    simp at he
    simp [← he.1, ← he.2, ih hb]

/-- The part of a string literal after its opening quote, through its closing quote. A backslash
takes the next character with it. -/
def closeString? : List Char → Option (List Char × List Char)
  | [] => none
  | '"' :: rest => some (['"'], rest)
  | '\\' :: c :: rest => (closeString? rest).map fun (body, after) => ('\\' :: c :: body, after)
  | c :: rest => (closeString? rest).map fun (body, after) => (c :: body, after)

theorem closeString?_append {text body after : List Char}
    (h : closeString? text = some (body, after)) : body ++ after = text := by
  fun_induction closeString? text generalizing body after with
  | case1 => simp at h
  | case2 rest => simp at h; simp [← h.1, ← h.2]
  | case3 c rest ih | case4 c rest _ _ ih =>
    obtain ⟨⟨b, a⟩, hb, he⟩ := Option.map_eq_some_iff.1 h
    simp at he
    simp [← he.1, ← he.2, ih hb]

def isSpace (c : Char) : Bool := c == ' ' || c == '\t' || c == '\r' || c == '\n'

def skipped? : List Char → Option (List Char × List Char)
  | '/' :: '*' :: rest =>
    (closeComment? rest).map fun (body, after) => ('/' :: '*' :: body, after)
  | '/' :: '/' :: rest => some ('/' :: '/' :: rest.takeWhile (· ≠ '\n'), rest.dropWhile (· ≠ '\n'))
  | c :: rest => if isSpace c then some ([c], rest) else none
  | [] => none

theorem skipped?_append {text gap rest : List Char} (h : skipped? text = some (gap, rest)) :
    gap ++ rest = text ∧ gap ≠ [] := by
  unfold skipped? at h
  split at h
  · obtain ⟨⟨b, a⟩, hb, he⟩ := Option.map_eq_some_iff.1 h
    simp at he
    simp [← he.1, ← he.2, closeComment?_append hb]
  · simp at h
    simp [← h.1, ← h.2, List.takeWhile_append_dropWhile]
  · split at h <;> simp at h
    simp [← h.1, ← h.2]
  · simp at h

def layout (text : List Char) : List Char × List Char :=
  match _h : skipped? text with
  | none => ([], text)
  | some (gap, rest) =>
    let (more, after) := layout rest
    (gap ++ more, after)
termination_by text.length
decreasing_by
  obtain ⟨he, hn⟩ := skipped?_append _h
  have : 0 < gap.length := List.length_pos_iff.2 hn
  simp [← he]; omega

theorem layout_append (text : List Char) : (layout text).1 ++ (layout text).2 = text := by
  fun_induction layout text with
  | case1 => simp
  | case2 text gap rest h more after hl ih =>
    simp [hl] at ih
    simp [ih, (skipped?_append h).1]

inductive LexFault where
  | unexpected (c : Char)
  | openString
  | openComment
deriving DecidableEq

def LexFault.message : LexFault → String
  | unexpected c => s!"Unexpected character '{c}'"
  | openString => "Unterminated string literal"
  | openComment => "Unterminated block comment"

/-- Digits, and behind a point further digits. -/
def numeral (text : List Char) : List Char × List Char :=
  let whole := text.takeWhile isDigit
  match text.dropWhile isDigit with
  | '.' :: rest =>
    if (rest.head?.map isDigit).getD false then
      (whole ++ '.' :: rest.takeWhile isDigit, rest.dropWhile isDigit)
    else (whole, '.' :: rest)
  | rest => (whole, rest)

theorem numeral_append (text : List Char) : (numeral text).1 ++ (numeral text).2 = text := by
  unfold numeral
  have h := List.takeWhile_append_dropWhile (p := isDigit) (l := text)
  split
  · rename_i rest hd
    rw [hd] at h
    split
    · simp [List.takeWhile_append_dropWhile, h]
    · exact h
  · exact h

def isWordStart (c : Char) : Bool := c.isAlpha || c == '_'

def isWordChar (c : Char) : Bool := c.isAlphanum || c == '_'

def wordKind (word : List Char) : TokenKind :=
  if String.ofList word ∈ keywords then .keyword else .identifier

def symbol? : List Char → Option (TokenKind × List Char × List Char)
  | c :: d :: rest =>
    if String.ofList [c, d] ∈ longOperators then some (.operator, [c, d], rest)
    else if String.singleton c ∈ shortOperators then some (.operator, [c], d :: rest)
    else if String.singleton c ∈ delimiters then some (.delimiter, [c], d :: rest)
    else none
  | [c] =>
    if String.singleton c ∈ shortOperators then some (.operator, [c], [])
    else if String.singleton c ∈ delimiters then some (.delimiter, [c], [])
    else none
  | [] => none

theorem symbol?_append {text lexeme rest : List Char} {kind : TokenKind}
    (h : symbol? text = some (kind, lexeme, rest)) : lexeme ++ rest = text ∧ lexeme ≠ [] := by
  unfold symbol? at h
  split at h
  · split at h
    · simp at h; simp [← h.2.1, ← h.2.2]
    · split at h
      · simp at h; simp [← h.2.1, ← h.2.2]
      · split at h <;> simp at h
        simp [← h.2.1, ← h.2.2]
  · split at h
    · simp at h; simp [← h.2.1, ← h.2.2]
    · split at h <;> simp at h
      simp [← h.2.1, ← h.2.2]
  · simp at h

inductive Front where
  | done
  | lexeme (kind : TokenKind) (text rest : List Char)
  | fault (fault : LexFault) (text : List Char)

def front : List Char → Front
  | [] => .done
  | '"' :: rest =>
    match closeString? rest with
    | some (body, after) => .lexeme .string ('"' :: body) after
    | none => .fault .openString ['"']
  | '/' :: '*' :: _ => .fault .openComment ['/', '*']
  | c :: rest =>
    if isDigit c then .lexeme .number (numeral (c :: rest)).1 (numeral (c :: rest)).2
    else if isWordStart c then
      let word := c :: rest.takeWhile isWordChar
      .lexeme (wordKind word) word (rest.dropWhile isWordChar)
    else match symbol? (c :: rest) with
      | some (kind, lexeme, after) => .lexeme kind lexeme after
      | none => .fault (.unexpected c) [c]

theorem front_append {text lexeme rest : List Char} {kind : TokenKind}
    (h : front text = .lexeme kind lexeme rest) : lexeme ++ rest = text ∧ lexeme ≠ [] := by
  unfold front at h
  split at h
  · simp at h
  · split at h <;> simp at h
    rename_i hc
    simp [← h.2.1, ← h.2.2, closeString?_append hc]
  · simp at h
  · rename_i c tail _ _
    split at h
    · rename_i hd
      simp only [Front.lexeme.injEq] at h
      rw [← h.2.1, ← h.2.2]
      refine ⟨numeral_append _, ?_⟩
      unfold numeral
      split
      · split <;> simp [hd]
      · simp [hd]
    · split at h
      · simp at h
        simp [← h.2.1, ← h.2.2, List.takeWhile_append_dropWhile]
      · split at h <;> simp at h
        rename_i hs
        obtain ⟨rfl, rfl, rfl⟩ := h
        exact symbol?_append hs

end Klang.Token
