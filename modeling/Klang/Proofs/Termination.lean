import Klang.Proofs.Interrupts
import Klang.Proofs.Interruption.Evaluator
import Mathlib

/-! Evaluation without calls and without loops that have a condition. A `for` loop visits what it
has taken from its list, string or map before the first round, so it ends whatever its rounds write,
and evaluation goes no deeper than the tree. -/

namespace Klang

open Eval

namespace Node

variable {n m : Node}

def height (n : Node) : Nat := (n.children.attach.map fun ⟨c, _⟩ => height c).foldr max 0 + 1
termination_by n
decreasing_by exact sizeOf_lt_of_mem_children ‹_›

lemma height_pos (n : Node) : 0 < n.height := by
  rw [height]
  exact Nat.succ_pos _

lemma height_lt_of_mem_children (h : m ∈ n.children) : m.height < n.height := by
  have hmem : m.height ∈ n.children.attach.map fun c => height c.1 :=
    List.mem_map.2 ⟨⟨m, h⟩, List.mem_attach _ _, rfl⟩
  rw [height.eq_def n]
  exact Nat.lt_succ_of_le (List.le_max_of_le' 0 hmem (Nat.le_refl _))

lemma height_lt_of_mem_here (h : m ∈ n.here) : m.height < n.height := by
  obtain ⟨-, h | ⟨target, ht, -, h⟩⟩ := mem_here h
  · exact height_lt_of_mem_children h
  · exact Nat.lt_trans (height_lt_of_mem_children h) (height_lt_of_mem_children ht)

lemma height_lt_of_mem_inside (h : m ∈ n.inside) : m.height < n.height :=
  height_lt_of_mem_children (mem_inside h).2

/-- A node that neither calls nor loops as long as a condition holds. -/
def IsBounded (n : Node) : Prop := n.isCall = false ∧ n.isWhileLoop = false

lemma isBounded_iff : n.IsBounded ↔ n.tag ≠ "CALL" ∧ n.tag ≠ "WHILE" := by
  cases n <;> simp [IsBounded, isCall, isWhileLoop, tag, label, Label.tag]

lemma findTag_eq_nil_iff {tag : String} : n.findTag tag = [] ↔ ∀ m ∈ n.preorder, m.tag ≠ tag := by
  simp [findTag, List.filter_eq_nil_iff]

lemma everywhere_isBounded (hc : n.findTag "CALL" = []) (hw : n.findTag "WHILE" = []) :
    n.Everywhere IsBounded :=
  everywhere_of_preorder fun m hm =>
    isBounded_iff.2 ⟨findTag_eq_nil_iff.1 hc m hm, findTag_eq_nil_iff.1 hw m hm⟩

end Node

inductive Finished : EStateM.Result Interrupt Store Value → Prop
  | value (v : Value) (s : Store) : Finished (.ok v s)
  | fault (reason : Fault) (span : Option Source.Span) (s : Store) :
      Finished (.error (.fault reason span) s)
  | returning (v : Value) (s : Store) : Finished (.error (.returning v) s)

lemma Eval.StopsBy.finished {m : Eval Value} (h : StopsBy Interrupt.IsReturn m) (s : Store) :
    Finished (m s) := by
  cases hr : m s with
  | ok v t => exact .value v t
  | error e t =>
    obtain ⟨reason, span, rfl⟩ | ⟨v, rfl⟩ := h s e t hr
    · exact .fault reason span t
    · exact .returning v t

lemma stopsBy_evaluateWithin {n : Node} (hn : n.Everywhere Node.IsBounded) {bound : Nat}
    (hb : n.height ≤ bound) (context : Context) (frame : FrameId) :
    StopsBy Interrupt.IsReturn (evaluateWithin bound context frame n) := by
  induction bound generalizing n context frame with
  | zero => exact absurd hb (Nat.not_le.2 n.height_pos)
  | succ bound ih =>
    have hpart {m : Node} (hm : m.Everywhere Node.IsBounded) (hlt : m.height < n.height)
        (context : Context) (frame : FrameId) :
        StopsBy Interrupt.IsReturn (evaluateWithin bound context frame m) :=
      ih hm (Nat.le_of_lt_succ (Nat.lt_of_lt_of_le hlt hb)) context frame
    apply Evaluator.stopsBy_visit
    apply Evaluator.stopsBy_meaning
    · rintro m (hm | hm)
      · exact hpart (hn.here hm) (Node.height_lt_of_mem_here hm)
      · exact hpart (hn.inside hm) (Node.height_lt_of_mem_inside hm)
    · rintro (hcall | hloop)
      · exact Bool.noConfusion (hcall.symm.trans hn.self.1)
      · exact Bool.noConfusion (hloop.symm.trans hn.self.2)
    · exact fun _ v => ⟨v, rfl⟩

/-- More steps do not change the end of an evaluation. -/
lemma Finished.evaluateWithin_eq {n : Node} {bound bound' : Nat} {context : Context}
    {frame : FrameId} {s : Store} (h : Finished (evaluateWithin bound context frame n s))
    (hb : bound ≤ bound') :
    evaluateWithin bound' context frame n s = evaluateWithin bound context frame n s := by
  have hcuts :
      Cuts (evaluateWithin bound context frame n) (evaluateWithin bound' context frame n) := by
    rw [← (until_never bound).1, ← (until_never bound').1]
    exact (cuts_until (fun _ => id) hb).node context frame n
  obtain ⟨heq, -⟩ | ⟨t, hexhausted, -⟩ := hcuts s
  · exact heq.symm
  · rw [hexhausted] at h
    cases h

/-- The evaluation of a tree without calls and without `while` ends with a value, a fault or a
`return`, in every frame and every store. It takes no more steps inside each other than the tree has
levels, and the end is the same however many more are allowed. -/
theorem evaluateWithin_finishes {n : Node} (hcall : n.findTag "CALL" = [])
    (hwhile : n.findTag "WHILE" = []) (context : Context) (frame : FrameId) (s : Store) :
    ∃ r, Finished r ∧ ∀ bound, n.height ≤ bound → evaluateWithin bound context frame n s = r := by
  have hn : n.Everywhere Node.IsBounded := Node.everywhere_isBounded hcall hwhile
  have hend := (stopsBy_evaluateWithin hn (Nat.le_refl _) context frame).finished s
  exact ⟨_, hend, fun bound hb => hend.evaluateWithin_eq hb⟩

theorem evaluateWithin_finishes_growing :
    let double : Node := .binary none .add (.identifier none "k") (.identifier none "k")
    let body : Node := .assignment none (.index none (.identifier none "m") double)
      (.identifier none "m")
    let program : Node := .program none [
      .declaration none "m" (.map none [("a", .boolean none true)]) false none,
      .forLoop none "k" (.identifier none "m") (.block none [.expressionStatement none body])]
    program.findTag "CALL" = [] ∧ program.findTag "WHILE" = [] ∧
      ∃ r, Finished r ∧ ((finalStore r).entries 0).keys = ["a", "aa"] ∧
        ∀ bound, program.height ≤ bound →
          evaluateWithin bound (.ofPolicies {}) rootFrame program (standardStore {}) = r := by
  intro double body program
  have hcall : program.findTag "CALL" = [] := by cbv
  have hwhile : program.findTag "WHILE" = [] := by cbv
  have hheight : program.height ≤ 8 := by cbv
  obtain ⟨r, hr, hbound⟩ := evaluateWithin_finishes hcall hwhile (.ofPolicies {}) rootFrame
    (standardStore {})
  refine ⟨hcall, hwhile, r, hr, ?_, hbound⟩
  rw [← hbound 8 hheight]
  decide +kernel

end Klang
