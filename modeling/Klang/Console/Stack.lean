import Klang.Node.Outline
import Klang.Session

/-! How much the stack of a host takes, and the limit it is given. What is too deeply nested for it
cannot be read, outlined or shown, and calls go no deeper either. -/

namespace Klang

mutual

def Datum.height : Datum → Nat
  | .list items => itemsHeight items + 1
  | .map entries => entriesHeight entries + 1
  | _ => 1

def Datum.itemsHeight : List Datum → Nat
  | [] => 0
  | item :: rest => max item.height (itemsHeight rest)

def Datum.entriesHeight : List (String × Datum) → Nat
  | [] => 0
  | (_, item) :: rest => max item.height (entriesHeight rest)

end

/-- Whether a descent of some depth reads or rejects tokens, and does not run out. -/
def Parser.readsWithin (depth : Nat) (tokens : List Token) : Bool :=
  match splitInput? tokens with
  | none => true
  | some (body, _) =>
    match (skipSeparators >>= fun _ => programStatements (descend depth).statement
        (body.length + 1)) body with
    | .error .exhausted => false
    | _ => true

namespace Console

/-- What a stack takes: how many calls inside each other, and which tokens, trees and data it is large
enough for when they are read, outlined and shown. -/
structure Stack where
  calls : Nat
  reads : List Token → Bool
  outlines : Node → Bool
  displays : Datum → Bool

namespace Stack

/-- A stack of as many frames as a limit says. The parser takes fifteen for each level of its descent,
a call takes twenty, and the text of a list or a map two. -/
def ofLimit (limit : Nat) : Stack where
  calls := limit / 20
  reads := Parser.readsWithin (limit / 15)
  outlines program := (program.walk 0).all fun (depth, _) => depth < limit
  displays datum := 2 * datum.height ≤ limit

variable (stack : Stack)

def takes (file source : String) : Bool :=
  match (readTokens file source).result with
  | .ok tokens => stack.reads tokens
  | .error _ => true

def display? (store : Store) (value : Value) : Option String :=
  match store.datum? value with
  | some datum => if stack.displays datum then some datum.text else none
  | none => none

end Stack

structure Host where
  limit : Nat := 10000
  stack : Nat → Stack := .ofLimit

def limitBound : Nat := 2147483648

end Console

end Klang
