import Klang.Proofs.BindingInvariant

/-! The shapes of lists and maps. From any moment of a session to any later one a list keeps its length,
and a map its keys, behind which new ones may come. So a builtin that goes over a list while it calls
back finds one item for each position, whatever the calls do to the list. -/

namespace Klang

open Eval

inductive Cell.Keeps : Cell → Cell → Prop
  | list {items items' : Array Value} : items'.size = items.size → Keeps (.list items) (.list items')
  | map {entries entries' : Table Value} : entries.keys <+: entries'.keys →
      Keeps (.map entries) (.map entries')

namespace Cell

lemma Keeps.refl (c : Cell) : c.Keeps c := by
  cases c with
  | list items => exact .list rfl
  | map entries => exact .map List.prefix_rfl

lemma Keeps.trans {c d e : Cell} (hcd : c.Keeps d) (hde : d.Keeps e) : c.Keeps e := by
  cases hcd with
  | list h =>
    cases hde with
    | list h' => exact .list (h'.trans h)
  | map h =>
    cases hde with
    | map h' => exact .map (h.trans h')

end Cell

namespace Store

variable {s t u : Store}

def KeepsCells (s t : Store) : Prop :=
  ∀ (cell : CellId) (c : Cell), s.cells[cell]? = some c → ∃ c', t.cells[cell]? = some c' ∧ c.Keeps c'

lemma KeepsCells.of_cells_eq (h : t.cells = s.cells) : s.KeepsCells t := by
  intro cell c hc
  exact ⟨c, by rw [h, hc], .refl c⟩

lemma KeepsCells.trans (hst : s.KeepsCells t) (htu : t.KeepsCells u) : s.KeepsCells u := by
  intro cell c hc
  obtain ⟨c', hc', hk⟩ := hst cell c hc
  obtain ⟨c'', hc'', hk'⟩ := htu cell c' hc'
  exact ⟨c'', hc'', hk.trans hk'⟩

lemma keepsCells_pushCell (s : Store) (made : Cell) : s.KeepsCells (s.pushCell made) := by
  intro cell c hc
  obtain ⟨hlt, -⟩ := Array.getElem?_eq_some_iff.1 hc
  refine ⟨c, ?_, .refl c⟩
  rw [pushCell, Array.getElem?_push, if_neg (Nat.ne_of_lt hlt), hc]

lemma keepsCells_modify (s : Store) {f : Cell → Cell} (hf : ∀ c : Cell, c.Keeps (f c))
    (written : CellId) : s.KeepsCells { s with cells := s.cells.modify written f } := by
  intro cell c hc
  rw [Array.getElem?_modify]
  split
  · exact ⟨f c, by rw [hc, Option.map_some], hf c⟩
  · exact ⟨c, hc, .refl c⟩

lemma Write.keepsCells (h : s.Write t) : s.KeepsCells t := by
  cases h with
  | cell => exact keepsCells_pushCell s _
  | item cell index value =>
    refine keepsCells_modify s (fun c => ?_) cell
    cases c with
    | list items => exact .list Array.size_setIfInBounds
    | map entries => exact .refl _
  | entry cell key value =>
    refine keepsCells_modify s (fun c => ?_) cell
    cases c with
    | list items => exact .refl _
    | map entries =>
      refine .map ?_
      rw [Table.keys_insert]
      split
      · exact List.prefix_rfl
      · exact List.prefix_append _ _
  | frame | declare | assign | print | log => exact .of_cells_eq rfl

lemma Path.keepsCells (h : s.Path t) : s.KeepsCells t := by
  induction h with
  | refl => exact .of_cells_eq rfl
  | tail _ hw ih => exact ih.trans hw.keepsCells

lemma KeepsCells.size_items (h : s.KeepsCells t) {cell : CellId} {position : Nat}
    (hp : position < (s.items cell).size) : (t.items cell).size = (s.items cell).size := by
  unfold items at hp ⊢
  cases hc : s.cells[cell]? with
  | none =>
    rw [hc] at hp
    exact absurd hp (Nat.not_lt_zero _)
  | some c =>
    obtain ⟨c', hc', hk⟩ := h cell c hc
    rw [hc']
    cases hk with
    | list hsize => exact hsize
    | map => rfl

end Store

namespace Builtin

/-- Calls on the items of a list from a position on, one for each position, and each on the item that
the list holds just then: what they are given and what they give. -/
inductive Calls (call : Value → Eval Value) (cell : CellId) :
    Nat → Store → List (Value × Value) → Store → Prop
  | nil {position : Nat} {s : Store} : Calls call cell position s [] s
  | cons {position : Nat} {s t u : Store} {item result : Value} {rest : List (Value × Value)} :
      (s.items cell)[position]? = some item → call item s = .ok result t →
      Calls call cell (position + 1) t rest u → Calls call cell position s ((item, result) :: rest) u

def isTrue : Value → Bool
  | .boolean value => value
  | _ => false

/-- What a builtin makes of calls on the items of a list: the results that it refuses, and what it
collects from items and results, piece by piece. -/
structure Walk where
  name : String
  refusal? : Value → Option Fault
  collect : List (Value × Value) → List Value
  collect_nil : collect [] = []
  collect_cons : ∀ m made, collect (m :: made) = collect [m] ++ collect made

namespace Walk

def mapping : Walk where
  name := "map"
  refusal? _ := none
  collect made := made.map Prod.snd
  collect_nil := rfl
  collect_cons _ _ := rfl

def filtering : Walk where
  name := "filter"
  refusal?
    | .boolean _ => none
    | other => some (.predicateResult other.tag)
  collect made := (made.filter fun m => isTrue m.2).map Prod.fst
  collect_nil := rfl
  collect_cons m made := by
    rw [← List.map_append, ← List.filter_append, List.singleton_append]

variable (walk : Walk)

inductive Stops (call : Value → Eval Value) (item : Value) (s : Store) : Interrupt → Store → Prop
  | failed {e : Interrupt} {t : Store} : call item s = .error e t → Stops call item s e t
  | refused {result : Value} {fault : Fault} {t : Store} : call item s = .ok result t →
      walk.refusal? result = some fault → Stops call item s (.fault fault none) t

def Passes (call : Value → Eval Value) (cell : CellId) (position : Nat) (s : Store)
    (made : List (Value × Value)) (t : Store) : Prop :=
  Calls call cell position s made t ∧ ∀ m ∈ made, walk.refusal? m.2 = none

/-- How going over a list ends: there is no list to go over, a round over the item at some position
stops it, or there is no further item and a new list is made. -/
inductive Ends (call : Value → Value → Eval Value) (arguments : List Value) (s : Store) :
    EStateM.Result Interrupt Store Value → Prop
  | unfit {fault : Fault} : functionAndList walk.name arguments = .error fault →
      Ends call arguments s (.error (.fault fault none) s)
  | stopped {function item : Value} {cell : CellId} {made : List (Value × Value)} {t u : Store}
      {e : Interrupt} : functionAndList walk.name arguments = .ok (function, cell) →
      walk.Passes (call function) cell 0 s made t → (t.items cell)[made.length]? = some item →
      walk.Stops (call function) item t e u → Ends call arguments s (.error e u)
  | done {function : Value} {cell : CellId} {made : List (Value × Value)} {t : Store} :
      functionAndList walk.name arguments = .ok (function, cell) →
      walk.Passes (call function) cell 0 s made t → made.length = (t.items cell).size →
      made.length = (s.items cell).size →
      Ends call arguments s (.ok (.list t.cells.size) (t.pushCell (.list (walk.collect made).toArray)))

def loop (call : Value → Eval Value) (cell : CellId) : Nat → Nat → Array Value → Eval (Array Value)
  | 0, _, _ => throw .exhausted
  | rounds + 1, position, found => do
    match (← items cell)[position]? with
    | none => return found
    | some item => do
      let result ← call item
      raiseIf (walk.refusal? result)
      loop call cell rounds (position + 1) (found ++ (walk.collect [(item, result)]).toArray)

def goOver (call : Value → Value → Eval Value) (arguments : List Value) : Eval Value := do
  let (function, cell) ← ofExcept (functionAndList walk.name arguments)
  newList (← walk.loop (call function) cell ((← items cell).size + 1) 0 #[])

lemma loop_none {call : Value → Eval Value} {cell : CellId} {position : Nat} {s : Store}
    (hitem : (s.items cell)[position]? = none) (rounds : Nat) (found : Array Value) :
    walk.loop call cell (rounds + 1) position found s = .ok found s := by
  have hitems : items cell s = .ok (s.items cell) s := rfl
  rw [loop, bind_ok hitems, hitem]
  rfl

lemma loop_some {call : Value → Eval Value} {cell : CellId} {position : Nat} {s : Store} {item : Value}
    (hitem : (s.items cell)[position]? = some item) (rounds : Nat) (found : Array Value) :
    walk.loop call cell (rounds + 1) position found s = (do
      let result ← call item
      raiseIf (walk.refusal? result)
      walk.loop call cell rounds (position + 1)
        (found ++ (walk.collect [(item, result)]).toArray)) s := by
  have hitems : items cell s = .ok (s.items cell) s := rfl
  rw [loop, bind_ok hitems, hitem]

/-- No call changes the length of the list, so there are as many rounds as it has items left, and one
that finds none. -/
lemma loop_ends {call : Value → Eval Value} (hcall : ∀ v (s : Store), s.Path (finalStore (call v s)))
    {cell : CellId} (count : Nat) {position : Nat} (found : Array Value) {s : Store}
    (hsize : (s.items cell).size = position + count) :
    (∃ made t, walk.Passes call cell position s made t ∧ made.length = count ∧
      (t.items cell).size = position + count ∧
        walk.loop call cell (count + 1) position found s =
          .ok (found ++ (walk.collect made).toArray) t) ∨
    ∃ made t item e u, walk.Passes call cell position s made t ∧
      (t.items cell)[position + made.length]? = some item ∧ walk.Stops call item t e u ∧
        walk.loop call cell (count + 1) position found s = .error e u := by
  induction count generalizing position found s with
  | zero =>
    have hnone : (s.items cell)[position]? = none := Array.getElem?_eq_none (by omega)
    refine .inl ⟨[], s, ⟨.nil, by simp⟩, rfl, hsize, ?_⟩
    rw [walk.loop_none hnone, walk.collect_nil, Array.append_empty]
  | succ count ih =>
    have hlt : position < (s.items cell).size := by omega
    obtain ⟨item, hitem⟩ : ∃ item, (s.items cell)[position]? = some item :=
      ⟨_, Array.getElem?_eq_getElem hlt⟩
    have hpath := hcall item s
    rw [walk.loop_some hitem]
    cases hrun : call item s with
    | error e u => exact .inr ⟨[], s, item, e, u, ⟨.nil, by simp⟩, hitem, .failed hrun, bind_error hrun⟩
    | ok result t =>
      rw [bind_ok hrun]
      cases hrefusal : walk.refusal? result with
      | some fault =>
        exact .inr ⟨[], s, item, _, t, ⟨.nil, by simp⟩, hitem, .refused hrun hrefusal, rfl⟩
      | none =>
        have hpass : raiseIf none t = .ok () t := rfl
        rw [bind_ok hpass]
        rw [hrun, finalStore_ok] at hpath
        have hkept : (t.items cell).size = position + 1 + count := by
          rw [hpath.keepsCells.size_items hlt, hsize]
          omega
        have hfirst {made : List (Value × Value)} {u : Store}
            (h : walk.Passes call cell (position + 1) t made u) :
            walk.Passes call cell position s ((item, result) :: made) u :=
          ⟨.cons hitem hrun h.1, List.forall_mem_cons.2 ⟨hrefusal, h.2⟩⟩
        rcases ih (found ++ (walk.collect [(item, result)]).toArray) hkept with
          ⟨made, u, hmade, hlength, hrest, hloop⟩ | ⟨made, u, next, e, w, hmade, hnext, hstop, hloop⟩
        · refine .inl ⟨_, u, hfirst hmade, by rw [List.length_cons, hlength], by omega, ?_⟩
          rw [hloop]
          simp [walk.collect_cons (item, result) made]
        · refine .inr ⟨_, u, next, e, w, hfirst hmade, ?_, hstop, hloop⟩
          rw [← hnext, List.length_cons]
          congr 1
          omega

lemma goOver_ends {call : Value → Value → Eval Value}
    (hcall : ∀ f v (s : Store), s.Path (finalStore (call f v s))) (arguments : List Value) (s : Store) :
    walk.Ends call arguments s (walk.goOver call arguments s) := by
  unfold goOver
  cases hfit : functionAndList walk.name arguments with
  | error fault => exact .unfit hfit
  | ok found =>
    obtain ⟨function, cell⟩ := found
    have hitems : items cell s = .ok (s.items cell) s := rfl
    have hsize : (s.items cell).size = 0 + (s.items cell).size := by omega
    change walk.Ends call arguments s ((items cell >>= fun list =>
      walk.loop (call function) cell (list.size + 1) 0 #[] >>= newList) s)
    rw [bind_ok hitems]
    rcases walk.loop_ends (hcall function) _ #[] hsize with
      ⟨made, t, hmade, hlength, hrest, hloop⟩ | ⟨made, t, item, e, u, hmade, hitem, hstop, hloop⟩
    · rw [bind_ok hloop, Array.empty_append]
      exact .done hfit hmade (by omega) hlength
    · rw [bind_error hloop]
      rw [Nat.zero_add] at hitem
      exact .stopped hfit hmade hitem hstop

lemma loop_mapping (call : Value → Eval Value) (cell : CellId) (rounds position : Nat)
    (found : Array Value) :
    mapping.loop call cell rounds position found = mapItems call cell rounds position found := by
  induction rounds generalizing position found with
  | zero => rfl
  | succ rounds ih =>
    simp only [loop, mapItems, ih]
    rfl

lemma loop_filtering (call : Value → Eval Value) (cell : CellId) (rounds position : Nat)
    (found : Array Value) :
    filtering.loop call cell rounds position found = filterItems call cell rounds position found := by
  induction rounds generalizing position found with
  | zero => rfl
  | succ rounds ih =>
    simp only [loop, filterItems, ih]
    refine bind_congr fun list => ?_
    cases list[position]? with
    | none => rfl
    | some item =>
      refine bind_congr fun verdict => ?_
      cases verdict with
      | boolean verdict => cases verdict <;> rfl
      | _ => rfl

lemma goOver_mapping : mapping.goOver = mapOver := by
  funext call arguments
  simp only [goOver, mapOver, loop_mapping]
  rfl

lemma goOver_filtering : filtering.goOver = filterOver := by
  funext call arguments
  simp only [goOver, filterOver, loop_filtering]
  rfl

end Walk

end Builtin

lemma path_callWithin (bound : Nat) (context : Context) (function : Value) (arguments : List Value)
    (caller : Option FrameId) (s : Store) :
    s.Path (finalStore (callWithin bound context function arguments caller s)) := by
  rw [← (until_never bound).2]
  exact ((cuts_until_same (fun _ => false) bound).call context function arguments caller).path s

/-- Two moments of a session are given by two tests of which the earlier one stops first. From one to
the other lists keep their lengths and maps their keys. So `map` and `filter`, called in any store, make
one call for each position of a list, in order and on the item that it holds just then, until a call
fails or the list ends; and it ends where it did before the first call. -/
theorem session_keeps_containers (start : Store) (programs : List (Policies × Node))
    {earlier later : Store → Bool} (hstop : ∀ s, later s = true → earlier s = true) :
    let s := sessionUntil earlier programs start
    let t := sessionUntil later programs start
    runProgramUntil (fun _ => false) = runProgram ∧ (start.KeepsCells s ∧ s.KeepsCells t) ∧
      ∀ (bound : Nat) (context : Context) (name : String) (policies : Policies)
        (arguments : List Value) (caller : Option FrameId) (u : Store),
        let call function item := callWithin bound { context with policies } function [item] none
        Builtin.Walk.mapping.Ends call arguments u
            (callWithin (bound + 1) context (.builtin ⟨name, .map, policies⟩) arguments caller u) ∧
          Builtin.Walk.filtering.Ends call arguments u
            (callWithin (bound + 1) context (.builtin ⟨name, .filter, policies⟩) arguments caller
              u) := by
  refine ⟨runProgramUntil_never, ⟨(path_sessionUntil earlier programs start).keepsCells,
    (path_between hstop programs start).keepsCells⟩, ?_⟩
  intro bound context name policies arguments caller u call
  have hcall (function item : Value) (v : Store) : v.Path (finalStore (call function item v)) :=
    path_callWithin bound { context with policies } function [item] none v
  have hmap := Builtin.Walk.mapping.goOver_ends hcall arguments u
  have hfilter := Builtin.Walk.filtering.goOver_ends hcall arguments u
  rw [Builtin.Walk.goOver_mapping] at hmap
  rw [Builtin.Walk.goOver_filtering] at hfilter
  exact ⟨hmap, hfilter⟩

theorem session_keeps_containers_written :
    let programs : List (Policies × Node) :=
      [({}, .program none [.declaration none "m" (.map none [("a", .boolean none true)]) false none]),
        ({}, .program none [.expressionStatement none (.assignment none
          (.index none (.identifier none "m") (.string none "b")) (.boolean none false))])]
    let s := sessionUntil (fun s => (s.bindings rootFrame).contains "m") programs (standardStore {})
    let t := sessionUntil (fun _ => false) programs (standardStore {})
    (s.entries 0).keys = ["a"] ∧ (t.entries 0).keys = ["a", "b"] ∧
      (standardStore {}).KeepsCells s ∧ s.KeepsCells t := by
  intro programs s t
  have hearlier : (s.entries 0).keys = ["a"] := by decide +kernel
  have hlater : (t.entries 0).keys = ["a", "b"] := by decide +kernel
  have hstop (s : Store) (h : (fun _ => false) s = true) :
      (s.bindings rootFrame).contains "m" = true := by cases h
  obtain ⟨-, ⟨hs, ht⟩, -⟩ := session_keeps_containers (standardStore {}) programs hstop
  exact ⟨hearlier, hlater, hs, ht⟩

end Klang
