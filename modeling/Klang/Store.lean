import Klang.Table
import Klang.Value

/-! The mutable state of a run: scope frames, list and map cells, printed text and trace. -/

namespace Klang

structure Binding where
  value : Value
  isFinal : Bool := false
  ascription : Option String := none
deriving Inhabited

/-- One scope. A parent is always an older frame. -/
structure Frame where
  parent : Option FrameId
  bindings : Table Binding
deriving Inhabited

inductive Cell where
  | list (items : Array Value)
  | map (entries : Table Value)
deriving Inhabited

structure Store where
  frames : Array Frame := #[]
  cells : Array Cell := #[]
  output : String := ""
  trace : Array String := #[]
deriving Inhabited

namespace Store

def items (store : Store) (cell : CellId) : Array Value :=
  match store.cells[cell]? with
  | some (.list items) => items
  | _ => #[]

def entries (store : Store) (cell : CellId) : Table Value :=
  match store.cells[cell]? with
  | some (.map entries) => entries
  | _ => .empty

def bindings (store : Store) (frame : FrameId) : Table Binding :=
  match store.frames[frame]? with
  | some frame => frame.bindings
  | none => .empty

def parent? (store : Store) (frame : FrameId) : Option FrameId :=
  store.frames[frame]?.bind (·.parent)

def owner? (store : Store) (name : String) (frame : FrameId) : Option FrameId :=
  if (store.bindings frame).contains name then some frame
  else match store.parent? frame with
    | some parent => if parent < frame then owner? store name parent else none
    | none => none
termination_by frame

def depth (store : Store) (frame : FrameId) : Nat :=
  match store.parent? frame with
  | some parent => if parent < frame then depth store parent + 1 else 0
  | none => 0
termination_by frame

def binding? (store : Store) (frame : FrameId) (name : String) : Option Binding :=
  (store.owner? name frame).bind fun owner => (store.bindings owner).find? name

def pushFrame (store : Store) (parent : Option FrameId) : Store :=
  { store with frames := store.frames.push ⟨parent, .empty⟩ }

def pushCell (store : Store) (cell : Cell) : Store :=
  { store with cells := store.cells.push cell }

def setBinding (store : Store) (frame : FrameId) (name : String) (binding : Binding) : Store :=
  { store with
    frames := store.frames.modify frame fun f =>
      { f with bindings := f.bindings.insert name binding } }

def setItem (store : Store) (cell : CellId) (index : Nat) (value : Value) : Store :=
  { store with
    cells := store.cells.modify cell fun
      | .list items => .list (items.setIfInBounds index value)
      | other => other }

def setEntry (store : Store) (cell : CellId) (key : String) (value : Value) : Store :=
  { store with
    cells := store.cells.modify cell fun
      | .map entries => .map (entries.insert key value)
      | other => other }

def print (store : Store) (text : String) : Store := { store with output := store.output ++ text }

def printLine (store : Store) (line : String) : Store := store.print (line ++ "\n")

def printLines (store : Store) (lines : List String) : Store := lines.foldl printLine store

def log (store : Store) (line : String) : Store := { store with trace := store.trace.push line }

def logAll (store : Store) (debug : Bool) (lines : List String) : Store :=
  if debug then lines.foldl log store else store

end Store

end Klang
