import Klang.Proofs.Erasure.Agreement
import Klang.Proofs.Simulation.Evaluator
import Klang.Proofs.Simulation.Images

/-! The evaluator looks at no place. Trees that differ in nothing else have the same meaning, and so
have calls of functions with such bodies. -/

namespace Klang

open Eval

namespace Node

lemma eachAlike_iff {ns ms : List Node} : EachAlike ns ms ↔ List.Forall₂ Alike ns ms := by
  rw [EachAlike, ← List.forall₂_eq_eq_eq, List.forall₂_map_left_iff, List.forall₂_map_right_iff]
  rfl

lemma forall₂_respanEach (nodes : List Node) : List.Forall₂ Alike nodes (respanEach none nodes) :=
  eachAlike_iff.1 (eachAlike_respanEach nodes)

lemma matches_respan {inside : Node → Node → Prop} (h : ∀ m m' : Node, m.Alike m' → inside m m')
    (n : Node) : n.Matches Alike inside (n.respan none) := by
  cases n with
  | unknown => exact .unknown
  | number => exact .number _
  | string => exact .string _
  | boolean => exact .boolean _
  | list _ elements => exact .list (forall₂_respanEach elements)
  | map _ entries =>
    refine .map ?_
    induction entries with
    | nil => exact .nil
    | cons entry entries ih =>
      obtain ⟨key, node⟩ := entry
      exact .cons ⟨rfl, node.alike_respan⟩ ih
  | identifier => exact .identifier _
  | unary _ _ operand => exact .unary _ operand.alike_respan
  | binary _ _ left right => exact .binary _ left.alike_respan right.alike_respan
  | index _ target key => exact .index target.alike_respan key.alike_respan
  | assignment _ target value =>
    cases target with
    | identifier => exact .assignName _ value.alike_respan
    | index _ container key =>
      exact .assignIndex container.alike_respan key.alike_respan value.alike_respan
    | _ => exact .misassign _ rfl rfl
  | call _ callee arguments => exact .call callee.alike_respan (forall₂_respanEach arguments)
  | function => exact .function _
  | block _ nodes => exact .block ((forall₂_respanEach nodes).imp h)
  | expressionStatement _ expression => exact .expressionStatement expression.alike_respan
  | declaration _ _ value => exact .declaration _ _ _ value.alike_respan
  | definition => exact .definition _ _
  | conditional _ condition thenBranch elseBranch =>
    refine .conditional condition.alike_respan (h _ _ thenBranch.alike_respan) ?_
    cases elseBranch with
    | none => exact .none
    | some branch => exact .some (h _ _ branch.alike_respan)
  | whileLoop _ condition body => exact .whileLoop condition.alike_respan (h _ _ body.alike_respan)
  | forLoop _ _ iterable body => exact .forLoop _ iterable.alike_respan (h _ _ body.alike_respan)
  | returnStatement _ value =>
    cases value with
    | none => exact .returnStatement .none
    | some value => exact .returnStatement (.some value.alike_respan)
  | program _ nodes => exact .program (forall₂_respanEach nodes)

lemma erase_eq_of_closure? {n : Node} {f : FrameId} {c c' : Closure} (hc : c ∈ n.closure? f)
    (hc' : c' ∈ (n.respan none).closure? f) : c.erase = c'.erase := by
  cases n with
  | function | definition =>
    cases hc
    cases hc'
    simp only [Closure.erase, respan_respan]
  | _ => cases hc

end Node

def erasedRuns : Simulation where
  World := Unit
  later _ _ := True
  closure _ c c' := c.erase = c'.erase
  builtin := Eq
  context := Eq
  node _ _ n n' := n' = n.respan none
  part _ _ n n' := n.Alike n'
  Runs _ p := Agree (p ())

namespace erasedRuns

open Simulation

variable {w : Unit} {v v' : Value} {m m' : Eval Value}

lemma alike_iff (v v' : Value) : erasedRuns.Alike w v v' ↔ v.erase = v'.erase ∧ True := by
  rw [and_true]
  constructor
  · intro h
    cases h with
    | function hc => exact congrArg Value.function hc
    | builtin hb => exact congrArg Value.builtin hb
    | _ => rfl
  · intro h
    rcases Value.eq_or_function_of_erase_eq h with rfl | ⟨c, d, rfl, rfl, hcd⟩
    · cases v with
      | list => exact .list trivial
      | map => exact .map trivial
      | function => exact .function rfl
      | builtin => exact .builtin rfl
      | _ => constructor
    · exact .function hcd

lemma alike_eq : erasedRuns.Alike w = SameButPlaces := by
  funext v v'
  rw [alike_iff, and_true]

lemma runs_iff : erasedRuns.Runs w erasedRuns.Alike m m' ↔ Agree SameButPlaces m m' := by
  change Agree (erasedRuns.Alike ()) m m' ↔ _
  rw [alike_eq]

lemma computes : erasedRuns.Computes where
  refl _ := trivial
  trans _ _ := trivial
  frame_later _ _ := trivial
  fresh_later _ _ := trivial
  cell_later _ _ := trivial
  closure_later _ hc := hc
  node_later _ hn := hn
  part_later _ hn := hn
  pure ha := agree_pure (ha () trivial)
  bind hm hk := hm.bind fun a a' ha => hk () a a' trivial ha
  ordinary _ _ := trivial
  raise _ := agree_raise _
  tooDeep _ := agree_throw rfl
  exhausted _ := agree_throw rfl
  giveUp := False.elim

lemma stores : erasedRuns.Stores where
  log line := agree_log line line
  print := agree_print
  display _ hv := agree_display ((alike_iff _ _).1 hv).1
  scope _ _ _ := runs_iff.2 (agree_scopeOf _)
  child _ := (agree_child _).imp fun _ _ hg => ⟨hg, trivial⟩
  newList hi := runs_iff.2 (agree_newList ((itemsAlike_iff alike_iff).1 hi).1)
  newMap he := runs_iff.2 (agree_newMap ((entriesAlike_iff alike_iff).1 he).1)
  items {_ c} _ :=
    (agree_items c).imp fun _ _ hi => (itemsAlike_iff alike_iff).2 ⟨hi, fun _ _ => trivial⟩
  entries {_ c} _ :=
    (agree_entries c).imp fun _ _ he => (entriesAlike_iff alike_iff).2 ⟨he, fun _ _ => trivial⟩
  declare isFinal ascription _ _ hv :=
    runs_iff.2 (agree_declare _ _ ((alike_iff _ _).1 hv).1 isFinal ascription)
  lookup _ _ := runs_iff.2 (agree_lookup _ _)
  assign _ _ hv := runs_iff.2 (agree_assign _ _ ((alike_iff _ _).1 hv).1)
  setItem index _ _ _ hv := agree_setItem _ index ((alike_iff _ _).1 hv).1
  setEntry key _ _ _ hv := agree_setEntry _ key ((alike_iff _ _).1 hv).1

lemma lawful : erasedRuns.Lawful where
  toComputes := computes
  toStores := stores
  callsLeft hc := congrArg Context.callsLeft hc.symm
  debug hc := congrArg (fun c : Context => c.policies.debug) hc.symm
  deeper _ hc := by
    cases hc
    rfl
  back hb hc := by
    cases hb
    cases hc
    rfl
  host hb := congrArg Builtin.host hb.symm
  closure hc := by
    obtain ⟨hname, hparameters, -, hframe⟩ := Closure.mk.inj hc
    exact ⟨hname.symm, hparameters.symm, hframe.symm, trivial, fun _ _ => trivial⟩
  frame _ := trivial
  parts {_ _ n n'} hn := by
    cases hn
    exact n.matches_respan fun _ _ h _ _ _ _ => h
  names _ _ := trivial
  declares _ _ := trivial
  made hn hc hc' := by
    cases hn
    exact Node.erase_eq_of_closure? hc hc'
  misuse _ _ := trivial
  endless _ _ := trivial
  returning _ _ hv := agree_throw (congrArg Interrupt.returning ((alike_iff _ _).1 hv).1)

end erasedRuns

structure Evaluator.Blind (inner : Evaluator) : Prop where
  node : ∀ context frame n n', n.Alike n' →
    Agree SameButPlaces (inner.node context frame n) (inner.node context frame n')
  call : ∀ context g g' values values' caller, g.erase = g'.erase →
    values.map Value.erase = values'.map Value.erase →
      Agree SameButPlaces (inner.call context g values caller) (inner.call context g' values' caller)

namespace Evaluator

open Simulation

variable {inner : Evaluator} (h : inner.Blind) (context : Context) (frame : FrameId)

include h

lemma Blind.carries : erasedRuns.Carries inner inner := by
  constructor
  · rintro w context _ frame n n' rfl hn
    exact erasedRuns.runs_iff.2 (h.node context frame n n' hn)
  · rintro w context _ g g' vs vs' caller - rfl hg hvs -
    exact erasedRuns.runs_iff.2 (h.call context g g' vs vs' caller
      ((erasedRuns.alike_iff _ _).1 hg).1 ((allAlike_iff erasedRuns.alike_iff).1 hvs).1)

lemma agree_statements {nodes nodes' : List Node} (hn : Node.EachAlike nodes nodes')
    {last last' : Value} (hl : last.erase = last'.erase) :
    Agree SameButPlaces (statements inner context frame nodes last)
      (statements inner context frame nodes' last') :=
  (erasedRuns.runs_iff (w := ())).1 (runs_statements h.carries erasedRuns.lawful rfl
    (Node.eachAlike_iff.1 hn) ((erasedRuns.alike_iff _ _).2 ⟨hl, trivial⟩))

lemma agree_visit (bound : Nat) {n n' : Node} (hn : n.Alike n') :
    Agree SameButPlaces (visit inner bound context frame n) (visit inner bound context frame n') := by
  have hbinary : erasedRuns.CarriesBinary inner inner := carriesBinary h.carries erasedRuns.lawful
    fun hc => congrArg (fun c : Context => c.policies.shortCircuit) hc.symm
  have herase (n : Node) : Agree SameButPlaces (visit inner bound context frame n)
      (visit inner bound context frame (n.respan none)) := by
    refine (erasedRuns.runs_iff (w := ())).1 (runs_visit h.carries erasedRuns.lawful rfl hbinary
      (fun _ => agree_log _ _) ?_ (.inl rfl) rfl)
    intro w u f n n' m m' _ hm
    exact (hm.located_left n.span).located_right n'.span
  have hn' := (herase n').symm fun _ _ => Eq.symm
  rw [← hn] at hn'
  exact (herase n).trans (fun _ _ _ => Eq.trans) hn'

lemma agree_perform (bound : Nat) {function function' : Value}
    (hf : function.erase = function'.erase) {arguments arguments' : List Value}
    (ha : arguments.map Value.erase = arguments'.map Value.erase) (caller : Option FrameId) :
    Agree SameButPlaces (perform inner bound context function arguments caller)
      (perform inner bound context function' arguments' caller) := by
  have hbody : erasedRuns.CarriesBody inner inner := by
    apply carriesBody h.carries erasedRuns.lawful
    · intro w c c' f hc _
      exact Node.eachAlike_iff.1 (Node.Alike.statements (congrArg Closure.body hc))
    · rintro w context _ m m' rfl hm
      exact erasedRuns.runs_iff.2 ((erasedRuns.runs_iff.1 hm).callResult context.policies)
  exact (erasedRuns.runs_iff (w := ())).1 (runs_perform h.carries erasedRuns.lawful rfl trivial hbody
    (.inl rfl) ((erasedRuns.alike_iff _ _).2 ⟨hf, trivial⟩)
    ((allAlike_iff erasedRuns.alike_iff).2 ⟨ha, fun _ _ => trivial⟩) fun _ _ => trivial)

end Evaluator

lemma blind_within (bound : Nat) :
    Evaluator.Blind ⟨evaluateWithin bound, callWithin bound⟩ := by
  induction bound with
  | zero => exact ⟨fun _ _ _ _ _ => agree_throw rfl, fun _ _ _ _ _ _ _ _ => agree_throw rfl⟩
  | succ bound ih =>
    constructor
    · intro context frame n n' hn
      exact Evaluator.agree_visit ih context frame bound hn
    · intro context g g' values values' caller hg hv
      exact Evaluator.agree_perform ih context bound hg hv caller

end Klang
