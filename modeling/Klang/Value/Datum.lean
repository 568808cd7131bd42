import Klang.Number.Text
import Klang.Store

/-! Values unfolded into finite data, and their display. -/

namespace Klang

inductive Datum where
  | null
  | boolean (value : Bool)
  | number (value : Float)
  | string (value : String)
  | list (items : List Datum)
  | map (entries : List (String × Datum))
  | function (name : String)
  | builtin (name : String)
  | foreign (type : String)
deriving Inhabited

namespace Datum

mutual

def text : Datum → String
  | null => "null"
  | boolean value => if value then "true" else "false"
  | number value => Number.display value
  | string value => value
  | list items => "[" ++ ", ".intercalate (itemTexts items) ++ "]"
  | map entries => "\x7b" ++ ", ".intercalate (entryTexts entries) ++ "\x7d"
  | function name => if name = "" then "<function>" else s!"<function {name}>"
  | builtin name => s!"<builtin {name}>"
  | foreign type => s!"<{type}>"

def itemTexts : List Datum → List String
  | [] => []
  | item :: rest => item.text :: itemTexts rest

def entryTexts : List (String × Datum) → List String
  | [] => []
  | (key, item) :: rest => (key ++ ": " ++ item.text) :: entryTexts rest

end

end Datum

namespace Store

/-- Unfolds a value; nothing if a list or map holds itself. The path lists the cells around the
value, and the bound is on their number. -/
def unfoldWithin (store : Store) : Nat → List CellId → Value → Option Datum
  | _, _, .null => some .null
  | _, _, .boolean value => some (.boolean value)
  | _, _, .number value => some (.number value)
  | _, _, .string value => some (.string value)
  | _, _, .function closure => some (.function closure.name)
  | _, _, .builtin builtin => some (.builtin builtin.name)
  | _, _, .foreign type => some (.foreign type)
  | 0, _, .list _ | 0, _, .map _ => none
  | bound + 1, path, .list cell =>
    if cell ∈ path then none
    else ((store.items cell).toList.mapM (unfoldWithin store bound (cell :: path))).map .list
  | bound + 1, path, .map cell =>
    if cell ∈ path then none
    else
      let part (entry : String × Value) : Option (String × Datum) :=
        (unfoldWithin store bound (cell :: path) entry.2).map (entry.1, ·)
      ((store.entries cell).entries.mapM part).map .map

def datum? (store : Store) (value : Value) : Option Datum :=
  store.unfoldWithin (store.cells.size + 1) [] value

def display? (store : Store) (value : Value) : Option String :=
  (store.datum? value).map Datum.text

end Store

end Klang
