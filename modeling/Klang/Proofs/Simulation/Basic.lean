import Klang.Proofs.NodeParts
import Klang.Proofs.Simulation.Faults
import Mathlib.Data.List.Forall2
import Mathlib.Data.Option.Basic

/-! Two runs side by side. Evaluation does the same to each node in every run, so a relation between
runs that the operations on the store keep is kept by evaluation. This module says what such a relation
consists of and which laws it needs; that evaluation keeps it is shown once for all of them. -/

namespace Klang

open Source

def Table.Rel {α : Type} (r : α → α → Prop) (t t' : Table α) : Prop :=
  List.Forall₂ (fun e e' => e.1 = e'.1 ∧ r e.2 e'.2) t.entries t'.entries

namespace Node

def names : Node → List String
  | .identifier _ name | .assignment _ (.identifier _ name) _ => [name]
  | .declaration _ name _ _ _ | .forLoop _ name _ _ => [name]
  | .function _ parameters _ => parameters.map Parameter.name
  | .definition _ name parameters _ => name :: parameters.map Parameter.name
  | _ => []

def AssignsIndex : Node → Prop
  | .assignment _ (.index ..) _ => True
  | _ => False

def isReturn : Node → Bool
  | returnStatement .. => true
  | _ => false

def isWhileLoop : Node → Bool
  | whileLoop .. => true
  | _ => false

def isCall : Node → Bool
  | call .. => true
  | _ => false

/-- Nodes of one shape, with parts that belong together where they are evaluated. -/
inductive Matches (here inside : Node → Node → Prop) : Node → Node → Prop
  | unknown {s s' : Option Span} : Matches here inside (.unknown s) (.unknown s')
  | number {s s' : Option Span} (value : Float) :
      Matches here inside (.number s value) (.number s' value)
  | string {s s' : Option Span} (value : String) :
      Matches here inside (.string s value) (.string s' value)
  | boolean {s s' : Option Span} (value : Bool) :
      Matches here inside (.boolean s value) (.boolean s' value)
  | list {s s' : Option Span} {elements elements' : List Node} :
      List.Forall₂ here elements elements' →
      Matches here inside (.list s elements) (.list s' elements')
  | map {s s' : Option Span} {entries entries' : List (String × Node)} :
      List.Forall₂ (fun e e' => e.1 = e'.1 ∧ here e.2 e'.2) entries entries' →
      Matches here inside (.map s entries) (.map s' entries')
  | identifier {s s' : Option Span} (name : String) :
      Matches here inside (.identifier s name) (.identifier s' name)
  | unary {s s' : Option Span} (operator : UnaryOperator) {operand operand' : Node} :
      here operand operand' →
      Matches here inside (.unary s operator operand) (.unary s' operator operand')
  | binary {s s' : Option Span} (operator : BinaryOperator) {left left' right right' : Node} :
      here left left' → here right right' →
      Matches here inside (.binary s operator left right) (.binary s' operator left' right')
  | index {s s' : Option Span} {target target' key key' : Node} :
      here target target' → here key key' →
      Matches here inside (.index s target key) (.index s' target' key')
  | assignName {s s' t t' : Option Span} (name : String) {value value' : Node} :
      here value value' →
      Matches here inside (.assignment s (.identifier t name) value)
        (.assignment s' (.identifier t' name) value')
  | assignIndex {s s' t t' : Option Span} {target target' key key' value value' : Node} :
      here target target' → here key key' → here value value' →
      Matches here inside (.assignment s (.index t target key) value)
        (.assignment s' (.index t' target' key') value')
  | misassign {s s' : Option Span} {target target' value value' : Node} (reason : Fault) :
      (assignment s target value).misuse? = some reason →
      (assignment s' target' value').misuse? = some reason →
      Matches here inside (.assignment s target value) (.assignment s' target' value')
  | call {s s' : Option Span} {callee callee' : Node} {arguments arguments' : List Node} :
      here callee callee' → List.Forall₂ here arguments arguments' →
      Matches here inside (.call s callee arguments) (.call s' callee' arguments')
  | function {s s' : Option Span} (parameters : List Parameter) {body body' : Node} :
      Matches here inside (.function s parameters body) (.function s' parameters body')
  | block {s s' : Option Span} {nodes nodes' : List Node} :
      List.Forall₂ inside nodes nodes' → Matches here inside (.block s nodes) (.block s' nodes')
  | expressionStatement {s s' : Option Span} {expression expression' : Node} :
      here expression expression' →
      Matches here inside (.expressionStatement s expression) (.expressionStatement s' expression')
  | declaration {s s' : Option Span} (name : String) (isFinal : Bool) (ascription : Option String)
      {value value' : Node} : here value value' →
      Matches here inside (.declaration s name value isFinal ascription)
        (.declaration s' name value' isFinal ascription)
  | definition {s s' : Option Span} (name : String) (parameters : List Parameter)
      {body body' : Node} :
      Matches here inside (.definition s name parameters body) (.definition s' name parameters body')
  | conditional {s s' : Option Span} {condition condition' thenBranch thenBranch' : Node}
      {elseBranch elseBranch' : Option Node} :
      here condition condition' → inside thenBranch thenBranch' →
      Option.Rel inside elseBranch elseBranch' →
      Matches here inside (.conditional s condition thenBranch elseBranch)
        (.conditional s' condition' thenBranch' elseBranch')
  | whileLoop {s s' : Option Span} {condition condition' body body' : Node} :
      here condition condition' → inside body body' →
      Matches here inside (.whileLoop s condition body) (.whileLoop s' condition' body')
  | forLoop {s s' : Option Span} (iterator : String) {iterable iterable' body body' : Node} :
      here iterable iterable' → inside body body' →
      Matches here inside (.forLoop s iterator iterable body) (.forLoop s' iterator iterable' body')
  | returnStatement {s s' : Option Span} {value value' : Option Node} :
      Option.Rel here value value' →
      Matches here inside (.returnStatement s value) (.returnStatement s' value')
  | program {s s' : Option Span} {nodes nodes' : List Node} :
      List.Forall₂ here nodes nodes' → Matches here inside (.program s nodes) (.program s' nodes')

lemma Matches.refl {here inside : Node → Node → Prop} {n : Node} (hhere : ∀ m ∈ n.here, here m m)
    (hinside : ∀ m ∈ n.inside, inside m m) : n.Matches here inside n := by
  cases n with
  | unknown => exact .unknown
  | number => exact .number _
  | string => exact .string _
  | boolean => exact .boolean _
  | list => exact .list (List.forall₂_same.2 hhere)
  | map =>
    exact .map (List.forall₂_same.2 fun e he => ⟨rfl, hhere e.2 (List.mem_map_of_mem he)⟩)
  | identifier => exact .identifier _
  | unary => exact .unary _ (hhere _ List.mem_cons_self)
  | binary => exact .binary _ (hhere _ (by simp [Node.here])) (hhere _ (by simp [Node.here]))
  | index => exact .index (hhere _ (by simp [Node.here])) (hhere _ (by simp [Node.here]))
  | assignment _ target value =>
    cases target with
    | identifier => exact .assignName _ (hhere _ List.mem_cons_self)
    | index =>
      exact .assignIndex (hhere _ (by simp [Node.here])) (hhere _ (by simp [Node.here]))
        (hhere _ (by simp [Node.here]))
    | _ => exact .misassign _ rfl rfl
  | call =>
    exact .call (hhere _ List.mem_cons_self)
      (List.forall₂_same.2 fun m hm => hhere m (List.mem_cons_of_mem _ hm))
  | function => exact .function _
  | block => exact .block (List.forall₂_same.2 hinside)
  | expressionStatement => exact .expressionStatement (hhere _ List.mem_cons_self)
  | declaration => exact .declaration _ _ _ (hhere _ List.mem_cons_self)
  | definition => exact .definition _ _
  | conditional _ _ _ elseBranch =>
    refine .conditional (hhere _ List.mem_cons_self) (hinside _ List.mem_cons_self) ?_
    cases elseBranch with
    | none => exact .none
    | some => exact .some (hinside _ (by simp [Node.inside]))
  | whileLoop => exact .whileLoop (hhere _ List.mem_cons_self) (hinside _ List.mem_cons_self)
  | forLoop => exact .forLoop _ (hhere _ List.mem_cons_self) (hinside _ List.mem_cons_self)
  | returnStatement _ value =>
    cases value with
    | none => exact .returnStatement .none
    | some => exact .returnStatement (.some (hhere _ List.mem_cons_self))
  | program => exact .program (List.forall₂_same.2 hhere)

end Node

/-- A relation between runs. Both runs have the same frames and cells; what else must hold of values,
nodes and results may depend on a world, which grows while the runs go on. -/
structure Simulation where
  World : Type
  later : World → World → Prop
  frame : World → FrameId → Prop := fun _ _ => True
  /-- Frames that may get new names. -/
  fresh : World → FrameId → Prop := fun _ _ => True
  cell : World → CellId → Prop := fun _ _ => True
  name : String → Prop := fun _ => True
  fault : Fault → Prop := fun _ => True
  closure : World → Closure → Closure → Prop
  builtin : Builtin → Builtin → Prop
  context : Context → Context → Prop
  node : World → FrameId → Node → Node → Prop
  /-- Nodes that what lies inside can be asked to evaluate in a frame. -/
  part : World → FrameId → Node → Node → Prop
  endless : Prop := True
  /-- Whether the first run may be given up at any time. -/
  lax : Prop := False
  Runs {α : Type} : World → (World → α → α → Prop) → Eval α → Eval α → Prop

namespace Simulation

variable (R : Simulation)

inductive Alike (w : R.World) : Value → Value → Prop
  | null : Alike w .null .null
  | boolean (value : Bool) : Alike w (.boolean value) (.boolean value)
  | number (value : Float) : Alike w (.number value) (.number value)
  | string (value : String) : Alike w (.string value) (.string value)
  | list {cell : CellId} : R.cell w cell → Alike w (.list cell) (.list cell)
  | map {cell : CellId} : R.cell w cell → Alike w (.map cell) (.map cell)
  | function {c c' : Closure} : R.closure w c c' → Alike w (.function c) (.function c')
  | builtin {b b' : Builtin} : R.builtin b b' → Alike w (.builtin b) (.builtin b')
  | foreign (type : String) : Alike w (.foreign type) (.foreign type)

abbrev AllAlike (w : R.World) (vs vs' : List Value) : Prop := List.Forall₂ (R.Alike w) vs vs'

abbrev ItemsAlike (w : R.World) (items items' : Array Value) : Prop :=
  R.AllAlike w items.toList items'.toList

abbrev EntriesAlike (w : R.World) (entries entries' : Table Value) : Prop :=
  entries.Rel (R.Alike w) entries'

abbrev Same {α : Type} (w : R.World) (m m' : Eval α) : Prop := R.Runs w (fun _ => Eq) m m'

/-- Worlds grow, and runs go on side by side from one computation to the next. -/
structure Computes : Prop where
  refl : ∀ w, R.later w w
  trans : ∀ {w u t}, R.later w u → R.later u t → R.later w t
  frame_later : ∀ {w u f}, R.later w u → R.frame w f → R.frame u f
  fresh_later : ∀ {w u f}, R.later w u → R.fresh w f → R.fresh u f
  cell_later : ∀ {w u c}, R.later w u → R.cell w c → R.cell u c
  closure_later : ∀ {w u c c'}, R.later w u → R.closure w c c' → R.closure u c c'
  node_later : ∀ {w u f n n'}, R.later w u → R.node w f n n' → R.node u f n n'
  part_later : ∀ {w u f n n'}, R.later w u → R.part w f n n' → R.part u f n n'
  pure : ∀ {α : Type} {w p} {a a' : α}, (∀ u, R.later w u → p u a a') →
    R.Runs w p (Pure.pure a) (Pure.pure a')
  bind : ∀ {α β : Type} {w p q} {m m' : Eval α} {k k' : α → Eval β}, R.Runs w p m m' →
    (∀ u a a', R.later w u → p u a a' → R.Runs u q (k a) (k' a')) →
    R.Runs w q (m >>= k) (m' >>= k')
  ordinary : ∀ reason : Fault, ¬ reason.IsDefensive → R.fault reason
  raise : ∀ {α : Type} {w p} {reason : Fault}, R.fault reason →
    R.Runs w p (Eval.raise reason : Eval α) (Eval.raise reason)
  tooDeep : ∀ {α : Type} {w p}, R.endless → R.Runs w p (throw .tooDeep : Eval α) (throw .tooDeep)
  exhausted : ∀ {α : Type} {w p}, R.endless →
    R.Runs w p (throw .exhausted : Eval α) (throw .exhausted)
  giveUp : ∀ {α : Type} {w p} {m m' : Eval α}, R.lax → R.Runs w p m m' →
    R.Runs w p (throw .exhausted) m'

structure Stores : Prop where
  log : ∀ {w} line, R.Same w (Eval.log line) (Eval.log line)
  print : ∀ {w} text, R.Same w (Eval.print text) (Eval.print text)
  display : ∀ {w v v'}, R.endless → R.Alike w v v' → R.Same w (Eval.display v) (Eval.display v')
  scope : ∀ {w b b'} {caller : Option FrameId}, R.builtin b b' → b.host = .callerScope →
    (∀ f ∈ caller, R.frame w f) → R.Runs w R.Alike (Builtin.scopeOf caller) (Builtin.scopeOf caller)
  child : ∀ {w f}, R.frame w f →
    R.Runs w (fun u g g' => g = g' ∧ R.fresh u g) (Eval.child f) (Eval.child f)
  newList : ∀ {w items items'}, R.ItemsAlike w items items' →
    R.Runs w R.Alike (Eval.newList items) (Eval.newList items')
  newMap : ∀ {w entries entries'}, R.EntriesAlike w entries entries' →
    R.Runs w R.Alike (Eval.newMap entries) (Eval.newMap entries')
  items : ∀ {w c}, R.cell w c → R.Runs w R.ItemsAlike (Eval.items c) (Eval.items c)
  entries : ∀ {w c}, R.cell w c → R.Runs w R.EntriesAlike (Eval.entries c) (Eval.entries c)
  declare : ∀ {w f x v v'} isFinal ascription, R.fresh w f → R.name x → R.Alike w v v' →
    R.Runs w R.Alike (Eval.declare f x v isFinal ascription)
      (Eval.declare f x v' isFinal ascription)
  lookup : ∀ {w f x}, R.frame w f → R.name x → R.Runs w R.Alike (Eval.lookup f x) (Eval.lookup f x)
  assign : ∀ {w f x v v'}, R.frame w f → R.name x → R.Alike w v v' →
    R.Runs w R.Alike (Eval.assign f x v) (Eval.assign f x v')
  setItem : ∀ {w f n n' c v v'} index, R.node w f n n' → n.AssignsIndex → R.cell w c →
    R.Alike w v v' → R.Same w (modify (·.setItem c index v)) (modify (·.setItem c index v'))
  setEntry : ∀ {w f n n' c v v'} key, R.node w f n n' → n.AssignsIndex → R.cell w c →
    R.Alike w v v' → R.Same w (modify (·.setEntry c key v)) (modify (·.setEntry c key v'))

structure Reads : Prop where
  callsLeft : ∀ {c c'}, R.context c c' → c'.callsLeft = c.callsLeft
  debug : ∀ {c c'}, R.context c c' → c'.policies.debug = c.policies.debug
  deeper : ∀ {c c'} callsLeft, R.context c c' →
    R.context { c with callsLeft } { c' with callsLeft }
  back : ∀ {b b' c c'}, R.builtin b b' → R.context c c' →
    R.context { c with policies := b.policies } { c' with policies := b'.policies }
  host : ∀ {b b'}, R.builtin b b' → b'.host = b.host
  closure : ∀ {w c c'}, R.closure w c c' → c'.name = c.name ∧ c'.parameters = c.parameters ∧
    c'.frame = c.frame ∧ R.frame w c.frame ∧ ∀ p ∈ c.parameters, R.name p.name
  frame : ∀ {w f n n'}, R.node w f n n' → R.frame w f
  parts : ∀ {w f n n'}, R.node w f n n' →
    n.Matches (R.part w f) (fun m m' => ∀ u g, R.later w u → R.fresh u g → R.part u g m m') n'
  names : ∀ {w f n n' x}, R.node w f n n' → x ∈ n.names → R.name x
  declares : ∀ {w f n n' x}, R.node w f n n' → x ∈ n.declared? → R.fresh w f
  made : ∀ {w f n n' c c'}, R.node w f n n' → c ∈ n.closure? f → c' ∈ n'.closure? f →
    R.closure w c c'
  misuse : ∀ {w f n n' reason}, R.node w f n n' → reason ∈ n.misuse? → R.fault reason
  endless : ∀ {w f n n'}, R.node w f n n' → n.isCall = true ∨ n.isWhileLoop = true → R.endless
  returning : ∀ {α : Type} {w p f n n' v v'}, R.node w f n n' → n.isReturn = true →
    R.Alike w v v' →
    R.Runs w p (throw (.returning v) : Eval α) (throw (.returning v'))

structure Lawful : Prop extends R.Computes, R.Stores, R.Reads

end Simulation

end Klang
