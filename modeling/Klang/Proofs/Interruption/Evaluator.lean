import Klang.Proofs.Interruption.Cuts
import Klang.Proofs.Simulation.Shared

/-! Runs that are stopped on the way. A run looks at its store whenever a node or a call begins or
ends, and gives up as soon as the store passes a test: the stores in which runs can be left in this
way are the stores that the run passes. A run that is stopped earlier leaves a store from which
single writes lead to every store that the run reaches later. -/

namespace Klang

open Eval Simulation

namespace Eval

variable {α β : Type}

/-- How a run and the same run stopped on the way end, with results as they must be. -/
inductive CutEnds (p : α → α → Prop) (s : Store) :
    EStateM.Result Interrupt Store α → EStateM.Result Interrupt Store α → Prop
  | ok {a a' : α} {t : Store} : p a a' → s.Path t → CutEnds p s (.ok a t) (.ok a' t)
  | error {e : Interrupt} {t : Store} : s.Path t → CutEnds p s (.error e t) (.error e t)
  | stopped {u : Store} {r : EStateM.Result Interrupt Store α} : s.Path u → u.Path (finalStore r) →
      (∀ a' t, r = .ok a' t → ∃ a, p a a') → CutEnds p s (.error .exhausted u) r

lemma CutEnds.path {p : α → α → Prop} {s : Store} {r r' : EStateM.Result Interrupt Store α}
    (h : CutEnds p s r r') : s.Path (finalStore r') := by
  cases h with
  | ok _ hp => exact hp
  | error hp => exact hp
  | stopped hu hp _ => exact hu.trans hp

lemma CutEnds.result {p : α → α → Prop} {s t : Store} {r : EStateM.Result Interrupt Store α} {a' : α}
    (h : CutEnds p s r (.ok a' t)) : ∃ a, p a a' := by
  cases h with
  | ok hp _ => exact ⟨_, hp⟩
  | stopped _ _ ha => exact ha a' t rfl

def CutsTo (α : Type) (p : α → α → Prop) (m m' : Eval α) : Prop := ∀ s, CutEnds p s (m s) (m' s)

lemma cutsTo_eq_iff {m m' : Eval α} : CutsTo α Eq m m' ↔ Cuts m m' := by
  constructor
  · intro h s
    have hends := h s
    generalize m s = r at hends ⊢
    generalize m' s = r' at hends ⊢
    cases hends with
    | ok ha hp =>
      cases ha
      exact .inl ⟨rfl, hp⟩
    | error hp => exact .inl ⟨rfl, hp⟩
    | stopped hu hp _ => exact .inr ⟨_, rfl, hu, hp⟩
  · intro h s
    rcases h s with ⟨he, hp⟩ | ⟨u, he, hu, hp⟩
    · rw [he]
      cases hr : m' s with
      | ok a t =>
        rw [hr] at hp
        exact .ok rfl hp
      | error e t =>
        rw [hr] at hp
        exact .error hp
    · rw [he]
      exact .stopped hu hp fun a _ _ => ⟨a, rfl⟩

lemma CutsTo.bind {p : α → α → Prop} {q : β → β → Prop} {m m' : Eval α} {k k' : α → Eval β}
    (h : CutsTo α p m m') (hk : ∀ a a', p a a' → CutsTo β q (k a) (k' a')) :
    CutsTo β q (m >>= k) (m' >>= k') := by
  intro s
  have hends := h s
  generalize hr : m s = r at hends
  generalize hr' : m' s = r' at hends
  cases hends with
  | @ok a a' t ha hp =>
    rw [bind_ok hr, bind_ok hr']
    have hrest := hk a a' ha t
    generalize k a t = r at hrest
    generalize k' a' t = r' at hrest
    cases hrest with
    | ok hb hq => exact .ok hb (hp.trans hq)
    | error hq => exact .error (hp.trans hq)
    | stopped hu hq hb => exact .stopped (hp.trans hu) hq hb
  | error hp =>
    rw [bind_error hr, bind_error hr']
    exact .error hp
  | stopped hu hp ha =>
    rw [bind_error hr]
    cases r' with
    | error e t =>
      rw [bind_error hr']
      exact .stopped hu hp nofun
    | ok a' t =>
      obtain ⟨a, hpa⟩ := ha a' t rfl
      have hrest := hk a a' hpa t
      rw [bind_ok hr']
      refine .stopped hu (hp.trans hrest.path) fun b' u hb => ?_
      rw [hb] at hrest
      exact hrest.result

end Eval

lemma sharedLaws_cutsTo : SharedLaws CutsTo (fun _ => True) (fun _ => True) True True where
  mono := by
    intro α p q m m' h hpq s
    have hends := h s
    generalize m s = r at hends ⊢
    generalize m' s = r' at hends ⊢
    cases hends with
    | ok ha hp => exact .ok (hpq _ _ ha) hp
    | error hp => exact .error hp
    | stopped hu hp ha => exact .stopped hu hp fun a t hr => (ha a t hr).imp fun b => hpq b a
  pure ha _ := .ok ha .refl
  bind := CutsTo.bind
  raise _ _ := .error .refl
  tooDeep _ _ := .error .refl
  exhausted _ _ := .error .refl
  giveUp _ h s := by
    refine .stopped .refl (h s).path fun a t ha => ?_
    have hends := h s
    rw [ha] at hends
    exact hends.result
  get := cutsTo_eq_iff.2 cuts_get
  log line := cutsTo_eq_iff.2 (cuts_log line)
  print text := cutsTo_eq_iff.2 (cuts_print text)
  child f := cutsTo_eq_iff.2 (cuts_child f)
  newList items := cutsTo_eq_iff.2 (cuts_newList items)
  newMap entries := cutsTo_eq_iff.2 (cuts_newMap entries)
  declare f x v isFinal ascription := cutsTo_eq_iff.2 (cuts_declare f x v isFinal ascription)
  assign f x v := cutsTo_eq_iff.2 (cuts_assign f x v)
  setItem c index v := cutsTo_eq_iff.2 (cuts_modify fun s => .item s c index v)
  setEntry c key v := cutsTo_eq_iff.2 (cuts_modify fun s => .entry s c key v)
  here _ _ := trivial
  inside _ _ := trivial
  endless _ _ := trivial
  returning _ _ _ _ := .error .refl

structure Evaluator.Cuts (inner inner' : Evaluator) : Prop where
  node : ∀ context frame node,
    Eval.Cuts (inner.node context frame node) (inner'.node context frame node)
  call : ∀ context function arguments caller,
    Eval.Cuts (inner.call context function arguments caller)
      (inner'.call context function arguments caller)

namespace Evaluator

variable {inner inner' : Evaluator} (h : Cuts inner inner') {bound bound' : Nat} (hb : bound ≤ bound')
  (context : Context)

include h hb

lemma cuts_visit (frame : FrameId) (node : Node) :
    Eval.Cuts (visit inner bound context frame node) (visit inner' bound' context frame node) := by
  have hmeaning : Eval.Cuts (meaning inner bound context frame node)
      (meaning inner' bound' context frame node) :=
    cutsTo_eq_iff.1 (sharedLaws_cutsTo.meaning (fun c f n _ => cutsTo_eq_iff.2 (h.node c f n))
      (fun _ c g vs f => cutsTo_eq_iff.2 (h.call c g vs f)) (.inr ⟨trivial, hb⟩) trivial)
  unfold visit
  split
  · exact (cuts_log _).bind fun _ => hmeaning.located _
  · exact hmeaning.located _

lemma cuts_perform (function : Value) (arguments : List Value) (caller : Option FrameId) :
    Eval.Cuts (perform inner bound context function arguments caller)
      (perform inner' bound' context function arguments caller) := by
  have hnode (c f n) (_ : True) : CutsTo Value Eq (inner.node c f n) (inner'.node c f n) :=
    cutsTo_eq_iff.2 (h.node c f n)
  have hcall (_ : True) (c g vs f) : CutsTo Value Eq (inner.call c g vs f) (inner'.call c g vs f) :=
    cutsTo_eq_iff.2 (h.call c g vs f)
  refine cutsTo_eq_iff.1 (sharedLaws_cutsTo.perform hnode hcall (.inr ⟨trivial, hb⟩) trivial ?_
    function arguments caller)
  intro context f c
  have hbody : CutsTo Value Eq (statements inner context f c.body.statements .null)
      (statements inner' context f c.body.statements .null) :=
    sharedLaws_cutsTo.statements hnode hcall (fun _ _ => trivial) .null
  exact cutsTo_eq_iff.2 ((cutsTo_eq_iff.1 hbody).callResult context.policies)

end Evaluator

def Eval.stopping {α : Type} (stop : Store → Bool) (action : Eval α) : Eval α := fun store =>
  if stop store then .error .exhausted store
  else
    let result := action store
    if stop (finalStore result) then .error .exhausted (finalStore result) else result

lemma Eval.stopping_never {α : Type} (action : Eval α) : stopping (fun _ => false) action = action := by
  funext s
  simp [stopping]

lemma Eval.finalStore_stopping {α : Type} (stop : Store → Bool) (action : Eval α) (s : Store) :
    finalStore (stopping stop action s) = if stop s then s else finalStore (action s) := by
  unfold stopping
  split
  · rfl
  · dsimp only
    split <;> rfl

lemma Eval.Cuts.stopping {α : Type} {earlier later : Store → Bool}
    (hstop : ∀ s, later s = true → earlier s = true) {m m' : Eval α} (h : Cuts m m') :
    Cuts (Eval.stopping earlier m) (Eval.stopping later m') := by
  intro s
  rw [finalStore_stopping]
  by_cases he : earlier s = true
  · refine .inr ⟨s, by simp [Eval.stopping, he], .refl, ?_⟩
    split
    · exact .refl
    · exact h.path s
  · have hl : ¬ later s = true := fun hl => he (hstop s hl)
    rw [if_neg hl]
    rcases h s with ⟨hm, hp⟩ | ⟨u, hm, hu, hp⟩
    · by_cases hf : earlier (finalStore (m' s)) = true
      · exact .inr ⟨finalStore (m' s), by simp [Eval.stopping, he, hm, hf], hp, .refl⟩
      · have hf' : ¬ later (finalStore (m' s)) = true := fun hf' => hf (hstop _ hf')
        exact .inl ⟨by simp [Eval.stopping, he, hl, hm, hf, hf'], hp⟩
    · exact .inr ⟨u, by simp [Eval.stopping, he, hm], hu, hp⟩

mutual

/-- Evaluates a node in at most `bound` steps inside each other, as long as no store that it passes
passes a test. -/
def evaluateUntil (stop : Store → Bool) : Nat → Context → FrameId → Node → Eval Value
  | 0, _, _, _ => throw .exhausted
  | bound + 1, context, frame, node => Eval.stopping stop
    (Evaluator.visit ⟨evaluateUntil stop bound, callUntil stop bound⟩ bound context frame node)

def callUntil (stop : Store → Bool) : Nat → Context → Value → List Value → Option FrameId → Eval Value
  | 0, _, _, _, _ => throw .exhausted
  | bound + 1, context, function, arguments, caller => Eval.stopping stop
    (Evaluator.perform ⟨evaluateUntil stop bound, callUntil stop bound⟩ bound context function
      arguments caller)

end

lemma until_never (bound : Nat) :
    evaluateUntil (fun _ => false) bound = evaluateWithin bound ∧
      callUntil (fun _ => false) bound = callWithin bound := by
  induction bound with
  | zero => exact ⟨by funext; rfl, by funext; rfl⟩
  | succ bound ih =>
    constructor
    · funext context frame node
      rw [evaluateUntil, evaluateWithin, Eval.stopping_never, ih.1, ih.2]
    · funext context function arguments caller
      rw [callUntil, callWithin, Eval.stopping_never, ih.1, ih.2]

lemma cuts_until_same (stop : Store → Bool) (bound : Nat) :
    Evaluator.Cuts ⟨evaluateUntil stop bound, callUntil stop bound⟩
      ⟨evaluateUntil stop bound, callUntil stop bound⟩ := by
  induction bound with
  | zero => exact ⟨fun _ _ _ => cuts_throw _, fun _ _ _ _ => cuts_throw _⟩
  | succ bound ih =>
    constructor
    · intro context frame node
      simp only [evaluateUntil]
      exact (Evaluator.cuts_visit ih (Nat.le_refl _) context frame node).stopping fun _ => id
    · intro context function arguments caller
      simp only [callUntil]
      have hcut := Evaluator.cuts_perform ih (Nat.le_refl bound) context function arguments caller
      exact hcut.stopping fun _ => id

lemma cuts_until {earlier later : Store → Bool} (hstop : ∀ s, later s = true → earlier s = true)
    {bound bound' : Nat} (hb : bound ≤ bound') :
    Evaluator.Cuts ⟨evaluateUntil earlier bound, callUntil earlier bound⟩
      ⟨evaluateUntil later bound', callUntil later bound'⟩ := by
  induction bound generalizing bound' with
  | zero =>
    have h := cuts_until_same later bound'
    exact ⟨fun c f n => cuts_exhausted (h.node c f n), fun c f a o => cuts_exhausted (h.call c f a o)⟩
  | succ bound ih =>
    obtain ⟨bound', rfl⟩ : ∃ n, bound' = n + 1 := ⟨bound' - 1, by omega⟩
    have hb : bound ≤ bound' := by omega
    constructor
    · intro context frame node
      simp only [evaluateUntil]
      exact (Evaluator.cuts_visit (ih hb) hb context frame node).stopping hstop
    · intro context function arguments caller
      simp only [callUntil]
      exact (Evaluator.cuts_perform (ih hb) hb context function arguments caller).stopping hstop

end Klang
