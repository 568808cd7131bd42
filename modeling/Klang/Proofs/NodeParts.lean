import Klang.Eval
import Klang.Proofs.WellFormed

/-! The parts of a node as evaluation meets them: those it evaluates in its own frame, those it
evaluates in a frame made for them, and those that a function keeps for later. Also properties that
hold of a node and of everything below it. -/

namespace Klang

namespace Node

variable {p q : Node → Prop} {n m : Node}

/-- The parts that are evaluated in the frame of the node itself. The target of an assignment is not
evaluated, but what stands inside it is. -/
def here : Node → List Node
  | list _ elements => elements
  | map _ entries => entries.map Prod.snd
  | unary _ _ operand => [operand]
  | binary _ _ left right => [left, right]
  | index _ target key => [target, key]
  | assignment _ (index _ container key) value => [container, key, value]
  | assignment _ _ value => [value]
  | call _ callee arguments => callee :: arguments
  | expressionStatement _ expression => [expression]
  | declaration _ _ value _ _ => [value]
  | conditional _ condition _ _ => [condition]
  | whileLoop _ condition _ => [condition]
  | forLoop _ _ iterable _ => [iterable]
  | returnStatement _ value => value.toList
  | program _ statements => statements
  | _ => []

def inside : Node → List Node
  | block _ statements => statements
  | conditional _ _ thenBranch elseBranch => thenBranch :: elseBranch.toList
  | whileLoop _ _ body => [body]
  | forLoop _ _ _ body => [body]
  | _ => []

def closure? (frame : FrameId) : Node → Option Closure
  | function _ parameters body => some ⟨"", parameters, body, frame⟩
  | definition _ name parameters body => some ⟨name, parameters, body, frame⟩
  | _ => none

def declared? : Node → Option String
  | declaration _ name _ _ _ => some name
  | definition _ name _ _ => some name
  | _ => none

/-- Why a node has no meaning, whatever its parts are worth. -/
def misuse? : Node → Option Fault
  | unknown _ => some (.unknownNode "NODE")
  | unary _ (.other symbol) _ => some (.unknownUnary (.other symbol))
  | assignment _ (identifier ..) _ | assignment _ (index ..) _ => none
  | assignment _ target _ => some (.invalidTarget target.tag)
  | _ => none

def isFunction : Node → Bool
  | function .. | definition .. => true
  | _ => false

lemma frame_of_closure? {frame : FrameId} {c : Closure} (hc : c ∈ n.closure? frame) :
    c.frame = frame := by
  cases n with
  | function | definition =>
    obtain rfl := Option.some.inj hc
    rfl
  | _ => cases hc

lemma mem_here (hm : m ∈ n.here) : n.isFunction = false ∧
    (m ∈ n.children ∨ ∃ target ∈ n.children, target.isFunction = false ∧ m ∈ target.children) := by
  cases n with
  | assignment span target value =>
    refine ⟨rfl, ?_⟩
    cases target with
    | index span' container key =>
      simp only [here, List.mem_cons, List.not_mem_nil, or_false] at hm
      rcases hm with rfl | rfl | rfl
      · exact .inr ⟨_, List.mem_cons_self, rfl, by simp [children]⟩
      · exact .inr ⟨_, List.mem_cons_self, rfl, by simp [children]⟩
      · exact .inl (by simp [children])
    | _ =>
      obtain rfl := List.mem_singleton.1 hm
      exact .inl (by simp [children])
  | conditional | whileLoop | forLoop =>
    obtain rfl := List.mem_singleton.1 hm
    exact ⟨rfl, .inl (by simp [children])⟩
  | unknown | number | string | boolean | identifier | function | block | definition =>
    exact absurd hm List.not_mem_nil
  | _ => exact ⟨rfl, .inl hm⟩

lemma mem_inside (hm : m ∈ n.inside) : n.isFunction = false ∧ m ∈ n.children := by
  cases n with
  | block => exact ⟨rfl, hm⟩
  | conditional => exact ⟨rfl, List.mem_cons_of_mem _ hm⟩
  | whileLoop | forLoop =>
    obtain rfl := List.mem_singleton.1 hm
    exact ⟨rfl, by simp [children]⟩
  | _ => exact absurd hm List.not_mem_nil

inductive Everywhere (p : Node → Prop) : Node → Prop
  | intro {n : Node} : p n → (∀ m ∈ n.children, Everywhere p m) → Everywhere p n

namespace Everywhere

lemma self (h : n.Everywhere p) : p n := by
  cases h with
  | intro hn _ => exact hn

lemma child (h : n.Everywhere p) (hm : m ∈ n.children) : m.Everywhere p := by
  cases h with
  | intro _ hc => exact hc m hm

lemma mono (h : n.Everywhere p) (hpq : ∀ n, p n → q n) : n.Everywhere q := by
  induction h with
  | intro hn _ ih => exact .intro (hpq _ hn) ih

lemma and (h : n.Everywhere p) (h' : n.Everywhere q) : n.Everywhere fun n => p n ∧ q n := by
  induction h with
  | intro hn _ ih => exact .intro ⟨hn, h'.self⟩ fun m hm => ih m hm (h'.child hm)

lemma here (h : n.Everywhere p) (hm : m ∈ n.here) : m.Everywhere p := by
  obtain ⟨-, hm | ⟨target, ht, -, hm⟩⟩ := mem_here hm
  · exact h.child hm
  · exact (h.child ht).child hm

lemma inside (h : n.Everywhere p) (hm : m ∈ n.inside) : m.Everywhere p := h.child (mem_inside hm).2

lemma closure {frame : FrameId} {c : Closure} (h : n.Everywhere p) (hc : c ∈ n.closure? frame) :
    c.body.Everywhere p := by
  cases n with
  | function | definition =>
    obtain rfl := Option.some.inj hc
    exact h.child (by simp [children])
  | _ => cases hc

end Everywhere

lemma mem_walk {depth : Int} : m ∈ (n.walk depth).map Prod.snd ↔
    m = n ∨ ∃ c ∈ n.children, m ∈ (c.walk (depth + 1)).map Prod.snd := by
  rw [walk]
  simp only [List.map_cons, List.mem_cons, List.map_flatMap, List.mem_flatMap, List.mem_attach,
    true_and, Subtype.exists, exists_prop]

lemma mem_walk_of_mem_walk {depth : Int} (depth' : Int) (h : m ∈ (n.walk depth).map Prod.snd) :
    m ∈ (n.walk depth').map Prod.snd := by
  induction depth, n using walk.induct generalizing depth' with
  | case1 depth n ih =>
    rcases mem_walk.1 h with rfl | ⟨c, hc, hm⟩
    · exact mem_walk.2 (.inl rfl)
    · exact mem_walk.2 (.inr ⟨c, hc, ih c hc (depth' + 1) hm⟩)

lemma mem_preorder : m ∈ n.preorder ↔ m = n ∨ ∃ c ∈ n.children, m ∈ c.preorder := by
  constructor
  · intro h
    rcases mem_walk.1 h with rfl | ⟨c, hc, hm⟩
    · exact .inl rfl
    · exact .inr ⟨c, hc, mem_walk_of_mem_walk 0 hm⟩
  · rintro (rfl | ⟨c, hc, hm⟩)
    · exact mem_walk.2 (.inl rfl)
    · exact mem_walk.2 (.inr ⟨c, hc, mem_walk_of_mem_walk (0 + 1) hm⟩)

lemma Everywhere.of_mem_preorder (h : n.Everywhere p) (hm : m ∈ n.preorder) : p m := by
  induction h with
  | intro hn _ ih =>
    rcases mem_preorder.1 hm with rfl | ⟨c, hc, hm⟩
    · exact hn
    · exact ih c hc hm

lemma everywhere_of_preorder (h : ∀ m ∈ n.preorder, p m) : n.Everywhere p := by
  induction hs : sizeOf n using Nat.strongRecOn generalizing n with
  | ind size ih =>
    subst hs
    refine .intro (h n (mem_preorder.2 (.inl rfl))) fun m hm => ?_
    refine ih (sizeOf m) (sizeOf_lt_of_mem_children hm) (fun k hk => ?_) rfl
    exact h k (mem_preorder.2 (.inr ⟨m, hm, hk⟩))

def IsWellFormed (n : Node) : Prop := n.IsExpression ∨ n.IsStatement ∨ n.IsProgram

lemma mem_children_of_mem_statements (hm : m ∈ n.statements) : m ∈ n.children := by
  cases n with
  | block | program => exact hm
  | _ => exact absurd hm List.not_mem_nil

lemma IsExpression.here (h : n.IsExpression) (hm : m ∈ n.here) : m.IsExpression := by
  cases h with
  | list h => exact h m hm
  | map h =>
    obtain ⟨entry, he, rfl⟩ := List.mem_map.1 hm
    exact h entry he
  | unary _ h =>
    obtain rfl := List.mem_singleton.1 hm
    exact h
  | binary _ hl hr | index hl hr =>
    simp only [Node.here, List.mem_cons, List.not_mem_nil, or_false] at hm
    rcases hm with rfl | rfl
    · exact hl
    · exact hr
  | @assignment _ target _ htarget ht hv =>
    cases target with
    | identifier =>
      obtain rfl := List.mem_singleton.1 hm
      exact hv
    | index =>
      cases ht with
      | index hl hr =>
        simp only [Node.here, List.mem_cons, List.not_mem_nil, or_false] at hm
        rcases hm with rfl | rfl | rfl
        · exact hl
        · exact hr
        · exact hv
    | _ => cases htarget
  | call hc ha =>
    rcases List.mem_cons.1 hm with rfl | hm
    · exact hc
    · exact ha m hm
  | _ => exact absurd hm List.not_mem_nil

lemma IsExpression.child (h : n.IsExpression) (hf : n.isFunction = false) (hm : m ∈ n.children) :
    m.IsExpression := by
  have hhere (hm : m ∈ n.here) : m.IsExpression := h.here hm
  cases h with
  | function => cases hf
  | assignment _ ht hv =>
    simp only [children, List.mem_cons, List.not_mem_nil, or_false] at hm
    rcases hm with rfl | rfl
    · exact ht
    · exact hv
  | _ => exact hhere hm

lemma IsStatement.here (h : n.IsStatement) (hm : m ∈ n.here) : m.IsExpression := by
  cases h with
  | expression h | declaration h | whileLoop h _ | forLoop h _ | returnValue h =>
    obtain rfl := List.mem_singleton.1 hm
    exact h
  | conditional h =>
    cases h with
    | ifOnly h _ | ifElse h _ _ | ifElseIf h _ _ =>
      obtain rfl := List.mem_singleton.1 hm
      exact h
  | definition | returnNothing => exact absurd hm List.not_mem_nil
  | block h =>
    cases h
    exact absurd hm List.not_mem_nil

lemma IsStatement.inside (h : n.IsStatement) (hm : m ∈ n.inside) : m.IsStatement := by
  cases h with
  | expression | declaration | definition | returnNothing | returnValue =>
    exact absurd hm List.not_mem_nil
  | whileLoop _ h | forLoop _ h =>
    obtain rfl := List.mem_singleton.1 hm
    exact .block h
  | conditional h =>
    cases h with
    | ifOnly _ h =>
      obtain rfl := List.mem_singleton.1 hm
      exact .block h
    | ifElse _ h h' | ifElseIf _ h h' =>
      rcases List.mem_cons.1 hm with rfl | hm
      · exact .block h
      · obtain rfl := List.mem_singleton.1 hm
        first
        | exact .block h'
        | exact .conditional h'
  | block h => 
    cases h with
    | block h => exact h m hm

namespace IsWellFormed

lemma of_isBlock (h : n.IsBlock) : n.IsWellFormed := .inr (.inl (.block h))

lemma misuse? (h : n.IsWellFormed) : n.misuse? = none := by
  rcases h with h | h | h
  · cases h with
    | unary hknown _ => rcases hknown with rfl | rfl <;> rfl
    | @assignment _ target _ htarget _ _ =>
      cases target with
      | identifier | index => rfl
      | _ => cases htarget
    | _ => rfl
  · rcases h with _ | _ | _ | h | _ | _ | _ | _ | h
    case conditional => cases h <;> rfl
    case block => cases h; rfl
    all_goals rfl
  · cases h
    rfl

lemma child (h : n.IsWellFormed) (hm : m ∈ n.children) : m.IsWellFormed := by
  rcases h with h | h | h
  · cases hf : n.isFunction with
    | false => exact .inl (h.child hf hm)
    | true =>
      cases h with
      | function _ hb =>
        obtain rfl := List.mem_singleton.1 hm
        exact of_isBlock hb
      | _ => cases hf
  · have hparts : m.IsBlock ∨ m ∈ n.here ∨ m ∈ n.inside := by
      rcases h with _ | _ | ⟨_, hb⟩ | h | _ | _ | _ | _ | h
      case definition =>
        obtain rfl := List.mem_singleton.1 hm
        exact .inl hb
      case conditional =>
        right
        cases h <;> simpa [children, Node.here, Node.inside] using hm
      case whileLoop | forLoop =>
        right
        simpa [children, Node.here, Node.inside] using hm
      case block =>
        cases h
        exact .inr (.inr hm)
      all_goals exact .inr (.inl hm)
    rcases hparts with hb | hm | hm
    · exact of_isBlock hb
    · exact .inl (h.here hm)
    · exact .inr (.inl (h.inside hm))
  · cases h with
    | program h => exact .inr (.inl (h m hm))

lemma everywhere (h : n.IsWellFormed) : n.Everywhere IsWellFormed := by
  induction hs : sizeOf n using Nat.strongRecOn generalizing n with
  | ind size ih =>
    subst hs
    exact .intro h fun m hm => ih (sizeOf m) (sizeOf_lt_of_mem_children hm) (h.child hm) rfl

lemma distinctNames {frame : FrameId} {c : Closure} (h : n.IsWellFormed)
    (hc : c ∈ n.closure? frame) : DistinctNames c.parameters := by
  rcases h with h | h | h
  · cases h with
    | function hd _ =>
      obtain rfl := Option.some.inj hc
      exact hd
    | _ => cases hc
  · cases h with
    | definition hd _ =>
      obtain rfl := Option.some.inj hc
      exact hd
    | conditional h => cases h <;> cases hc
    | block h =>
      cases h
      cases hc
    | _ => cases hc
  · cases h
    cases hc

end IsWellFormed

end Node

end Klang
