import Klang.Proofs.Lockstep.Evaluator
import Klang.Proofs.ParsedNodes

/-! Evaluation does not leak names. Whatever is evaluated in a frame, and however it ends, the frames
that were there before keep their parents and their names, but for the one name that a declaration
appends to its own frame. -/

namespace Klang

open Eval

/-- What is left of the frames of a store: they only get the given names, at the end of one frame. -/
structure Store.Appends (s t : Store) (frame : FrameId) (added : List String) : Prop where
  size : s.frames.size ≤ t.frames.size
  parent : ∀ other < s.frames.size, t.parent? other = s.parent? other
  names : ∀ other < s.frames.size, (t.bindings other).keys =
    (s.bindings other).keys ++ if other = frame then added else []

def Node.added (n : Node) : EStateM.Result Interrupt Store Value → List String
  | .ok _ _ => n.declared?.toList
  | .error _ _ => []

namespace Store

variable {s t : Store} {frame : FrameId}

lemma KeepsNames.appends (h : s.KeepsNames t) : s.Appends t frame [] where
  size := h.size
  parent := h.parent
  names := by
    intro other hlt
    simpa using h.names other hlt

lemma KeepsNames.appends_setBinding (h : s.KeepsNames t) (hframe : frame < s.frames.size)
    {name : String} (hname : (t.bindings frame).contains name = false) (b : Binding) :
    s.Appends (t.setBinding frame name b) frame [name] where
  size := by
    simp only [Store.setBinding, Array.size_modify]
    exact h.size
  parent := by
    intro other hlt
    rw [parent?_setBinding]
    exact h.parent other hlt
  names := by
    intro other hlt
    rw [bindings_setBinding]
    by_cases ho : other = frame
    · subst ho
      have hsize : other < t.frames.size := Nat.lt_of_lt_of_le hlt h.size
      have hnot : name ∉ (t.bindings other).keys := by
        rw [← Table.contains_eq_true_iff, hname]
        exact Bool.false_ne_true
      rw [if_pos ⟨rfl, hsize⟩, Table.keys_insert, if_neg hnot, if_pos rfl, h.names other hlt]
    · rw [if_neg fun hc => ho hc.1, if_neg ho, List.append_nil, h.names other hlt]

end Store

def Lockstep.scoped (base : Store) : Lockstep where
  node frame n := base.frames.size ≤ frame ∨ n.IsExpression ∨ n.IsStatement ∧ n.declared? = none
  base := base

lemma Lockstep.lawful_scoped (base : Store) : (Lockstep.scoped base).Lawful where
  debug := fun _ => rfl
  ordinary := fun _ _ => trivial
  misuse := fun _ _ => trivial
  place := fun _ => trivial
  here := by
    rintro frame n m (ho | he | ⟨hs, _⟩) hm
    · exact .inl ho
    · exact .inr (.inl (he.here hm))
    · exact .inr (.inl (hs.here hm))
  inside := fun _ _ ho => .inl ho
  closure := fun _ _ => trivial
  body := fun _ _ ho => .inl ho
  declares := by
    rintro frame n name (ho | he | ⟨_, hnone⟩) hname
    · exact ho
    · cases he <;> cases hname
    · rw [hnone] at hname
      cases hname

variable {base s : Store} {frame : FrameId}

lemma keepsNames_evaluateWithin (hs : base.KeepsNames s) (bound : Nat) (context : Context) {n : Node}
    (hn : n.IsExpression ∨ n.IsStatement ∧ n.declared? = none) :
    base.KeepsNames (finalStore (evaluateWithin bound context frame n s)) := by
  have hvalue (v : Value) : (Lockstep.scoped base).value v := by cases v <;> trivial
  have hstores : (Lockstep.scoped base).Stores s s :=
    .refl rfl (Store.holds_of_forall hvalue s) hs
  have hfollows := Lockstep.follows_same (Lockstep.lawful_scoped base) (fun _ => rfl) (fun _ => rfl)
    bound
  exact ((hfollows.node trivial (.inr hn) s s hstores).stores trivial).names

lemma appends_declare (hs : base.KeepsNames s) (hframe : frame < base.frames.size) {name : String}
    (value : Value) (isFinal : Bool) (ascription : Option String) {n : Node}
    (hn : n.declared? = some name) :
    let r := declare frame name value isFinal ascription s
    base.Appends (finalStore r) frame (n.added r) := by
  rw [declare_apply]
  split
  · exact hs.appends
  · rename_i hname
    split
    · exact hs.appends
    · simp only [finalStore_ok, Node.added, hn, Option.toList_some]
      exact hs.appends_setBinding hframe (Bool.eq_false_iff.2 hname) _

lemma appends_declaration (hs : base.KeepsNames s) (hframe : frame < base.frames.size) (bound : Nat)
    (context : Context) {n : Node} (hn : n.IsWellFormed) {name : String}
    (hname : n.declared? = some name) :
    let r := Evaluator.meaning ⟨evaluateWithin bound, callWithin bound⟩ bound context frame n s
    base.Appends (finalStore r) frame (n.added r) := by
  cases n with
  | declaration span name' value isFinal ascription =>
    obtain rfl := Option.some.inj hname
    have hvalue : value.IsExpression := by
      rcases hn with h | h | h
      · cases h
      · exact h.here List.mem_cons_self
      · cases h
    have hkeeps : base.KeepsNames (finalStore (evaluateWithin bound context frame value s)) :=
      keepsNames_evaluateWithin hs bound context (.inl hvalue)
    simp only [Evaluator.meaning]
    cases hr : evaluateWithin bound context frame value s with
    | ok v t =>
      rw [hr] at hkeeps
      rw [bind_ok hr]
      exact appends_declare hkeeps hframe v isFinal ascription rfl
    | error e t =>
      rw [hr] at hkeeps
      rw [bind_error hr]
      exact hkeeps.appends
  | definition span name' parameters body =>
    obtain rfl := Option.some.inj hname
    exact appends_declare hs hframe _ true none rfl
  | _ => cases hname

lemma appends_visit (hframe : frame < s.frames.size) (bound : Nat) (context : Context) {n : Node}
    (hn : n.IsWellFormed) {name : String} (hname : n.declared? = some name) :
    let r := Evaluator.visit ⟨evaluateWithin bound, callWithin bound⟩ bound context frame n s
    s.Appends (finalStore r) frame (n.added r) := by
  have hlocated {t : Store} (ht : s.KeepsNames t) :
      let r := located n.span
        (Evaluator.meaning ⟨evaluateWithin bound, callWithin bound⟩ bound context frame n) t
      s.Appends (finalStore r) frame (n.added r) := by
    have h := appends_declaration ht hframe bound context hn hname
    unfold located
    split
    · rename_i hr
      rw [hr] at h
      exact h
    · exact h
  unfold Evaluator.visit
  split
  · exact hlocated ((Store.KeepsNames.refl s).of_frames_eq rfl)
  · exact hlocated (.refl s)

/-- A node other than a program adds to its frame what it declares, if its evaluation succeeds, and
nothing else to any frame. -/
theorem evaluateWithin_appends (bound : Nat) (context : Context) (s : Store) {frame : FrameId}
    (hframe : frame < s.frames.size) {n : Node} (hparsed : n.IsParsed)
    (hprogram : ∀ span statements, n ≠ .program span statements) :
    let r := evaluateWithin bound context frame n s
    s.Appends (finalStore r) frame (n.added r) := by
  have hn : n.IsWellFormed := hparsed.isWellFormed
  cases hname : n.declared? with
  | none =>
    have hkind : n.IsExpression ∨ n.IsStatement ∧ n.declared? = none := by
      rcases hn with h | h | h
      · exact .inl h
      · exact .inr ⟨h, hname⟩
      · cases h
        exact absurd rfl (hprogram _ _)
    have hadded (r : EStateM.Result Interrupt Store Value) : n.added r = [] := by
      cases r <;> simp [Node.added, hname]
    intro r
    rw [hadded]
    exact (keepsNames_evaluateWithin (.refl s) bound context hkind).appends
  | some name =>
    cases bound with
    | zero => exact (Store.KeepsNames.refl s).appends
    | succ bound => exact appends_visit hframe bound context hn hname

theorem evaluateWithin_appends_declaration :
    let tokens : List Token := [⟨.keyword, "let", default⟩, ⟨.identifier, "x", default⟩,
      ⟨.operator, "=", default⟩, ⟨.keyword, "true", default⟩, ⟨.eof, "", default⟩]
    let n : Node := .declaration (some default) "x" (.boolean (some default) true) false none
    let s := standardStore {}
    let r := evaluateWithin 2 (.ofPolicies {}) rootFrame n s
    parseProgram tokens = .ok (.program (some default) [n]) ∧ n.added r = ["x"] ∧
      s.Appends (finalStore r) rootFrame ["x"] := by
  intro tokens n s r
  have hparse : parseProgram tokens = .ok (.program (some default) [n]) := by rfl
  have hparsed : n.IsParsed := by
    refine ⟨tokens, _, .inl hparse, Node.mem_preorder.2 (.inr ⟨n, List.mem_cons_self, ?_⟩)⟩
    exact Node.mem_preorder.2 (.inl rfl)
  have hadded : n.added r = ["x"] := by rfl
  have h : s.Appends (finalStore r) rootFrame (n.added r) :=
    evaluateWithin_appends 2 (.ofPolicies {}) s (by decide) hparsed nofun
  rw [hadded] at h
  exact ⟨hparse, hadded, h⟩

end Klang
