import Klang.Store
import Klang.Text.Quoted
import Klang.Value.Ascription
import Klang.Value.Datum

/-! Evaluation as a computation over a store that can be cut short. The store is kept, however a
computation ends. -/

namespace Klang

open Source

inductive Interrupt where
  | fault (fault : Fault) (span : Option Span)
  | returning (value : Value)
  | tooDeep
  | exhausted

abbrev Eval := EStateM Interrupt Store

namespace Eval

variable {α : Type}

def raise (fault : Fault) : Eval α := throw (.fault fault none)

def ofExcept : Except Fault α → Eval α
  | .ok value => pure value
  | .error fault => raise fault

def raiseIf : Option Fault → Eval Unit
  | some fault => raise fault
  | none => pure ()

/-- A fault without a place gets the place of the node that was being evaluated. -/
def located (span : Option Span) (action : Eval α) : Eval α := fun store =>
  match action store with
  | .error (.fault fault none) store => .error (.fault fault span) store
  | result => result

def child (parent : FrameId) : Eval FrameId := fun store =>
  .ok store.frames.size (store.pushFrame (some parent))

def newRoot : Eval FrameId := fun store => .ok store.frames.size (store.pushFrame none)

def alloc (cell : Cell) : Eval CellId := fun store => .ok store.cells.size (store.pushCell cell)

def newList (items : Array Value) : Eval Value := return .list (← alloc (.list items))

def newMap (entries : Table Value) : Eval Value := return .map (← alloc (.map entries))

def items (cell : CellId) : Eval (Array Value) := return (← get).items cell

def entries (cell : CellId) : Eval (Table Value) := return (← get).entries cell

def print (text : String) : Eval Unit := modify (·.print text)

def log (line : String) : Eval Unit := modify (·.log line)

def display (value : Value) : Eval String := do
  match (← get).display? value with
  | some text => return text
  | none => throw .tooDeep

def declare (frame : FrameId) (name : String) (value : Value) (isFinal : Bool)
    (ascription : Option String) : Eval Value := do
  if ((← get).bindings frame).contains name then raise (.redeclared name)
  else
    raiseIf (bindingFault? value ascription)
    modify (·.setBinding frame name ⟨value, isFinal, ascription⟩)
    return value

def lookup (frame : FrameId) (name : String) : Eval Value := do
  match (← get).binding? frame name with
  | some binding => return binding.value
  | none => raise (.undefined name)

def resolve (frame : FrameId) (name : String) : Eval FrameId := do
  match (← get).owner? name frame with
  | some owner => return owner
  | none => raise (.undefined name)

def assign (frame : FrameId) (name : String) (value : Value) : Eval Value := do
  let owner ← resolve frame name
  match ((← get).bindings owner).find? name with
  | none => raise (.undefined name)
  | some binding =>
    if binding.isFinal then raise (.finalAssigned name)
    else
      raiseIf (bindingFault? value binding.ascription)
      modify (·.setBinding owner name { binding with value })
      return value

end Eval

def Store.describeFrame (store : Store) (frame : FrameId) : String :=
  s!"<Environment depth={store.depth frame} names={Text.quotedList (store.bindings frame).keys}>"

end Klang
