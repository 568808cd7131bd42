import Klang.Eval
import Klang.Node.Reader

/-! Running sources one after the other in one store. -/

namespace Klang

inductive Outcome where
  | value (value : Value)
  | failed (diagnostic : Diagnostic)
  | returned
  | tooDeep
  | exhausted

namespace Outcome

def ofInterrupt : Interrupt → Outcome
  | .fault fault span => failed (fault.diagnostic span)
  | .returning _ => returned
  | .tooDeep => tooDeep
  | .exhausted => exhausted

def of : EStateM.Result Interrupt Store Value → Outcome × Store
  | .ok result store => (value result, store)
  | .error interrupt store => (ofInterrupt interrupt, store)

end Outcome

def rootFrame : FrameId := 0

def installBuiltins (policies : Policies) (frame : FrameId) :
    List (String × HostFunction) → Eval Unit
  | [] => return ()
  | (name, host) :: rest => do
    let _ ← Eval.declare frame name (.builtin ⟨name, host, policies⟩) true none
    installBuiltins policies frame rest

def standardBuiltins : List (String × HostFunction) :=
  HostFunction.standard.map fun (name, host, _) => (name, host)

/-- A frame inside no other one, with the standard builtins and those of a host. A host cannot
replace a standard builtin. -/
def newGlobal (policies : Policies) (extra : List (String × HostFunction)) : Eval FrameId := do
  let frame ← Eval.newRoot
  installBuiltins policies frame (standardBuiltins ++ (Table.ofList extra).entries)
  return frame

def globalStore (policies : Policies) (extra : List (String × HostFunction)) :
    Except Diagnostic Store :=
  match newGlobal policies extra {} with
  | .ok _ store => .ok store
  | .error (.fault fault span) _ => .error (fault.diagnostic span)
  | .error _ store => .ok store

def standardStore (policies : Policies) : Store :=
  match newGlobal policies [] {} with
  | .ok _ store | .error _ store => store

def runSource (debug : Bool) (policies : Policies) (file source : String) (store : Store) :
    Outcome × Store :=
  let reading := readProgram file source
  let store := store.logAll debug reading.trace
  match reading.result with
  | .error diagnostic => (.failed diagnostic, store)
  | .ok program => Outcome.of (runProgram policies rootFrame program store)

def Store.userBindings (store : Store) : List (String × Binding) :=
  (store.bindings rootFrame).entries.filter fun (name, _) => name ∉ HostFunction.standardNames

end Klang
