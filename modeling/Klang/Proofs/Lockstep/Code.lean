import Klang.Proofs.Lockstep.Evaluator

/-! Code that is well-formed, with more that may be asked of each of its nodes. Programs that are run
one after the other only ever meet functions made of such code. -/

namespace Klang

open Source

namespace Lockstep

variable {p : Node → Prop} {place : Option Span → Prop} {policies : Policies → Policies}
  {policy : Policies → Prop} {faithful : Prop}

def code (p : Node → Prop) (place : Option Span → Prop) (policies : Policies → Policies)
    (policy : Policies → Prop) (faithful : Prop) : Lockstep where
  policies := policies
  policy := policy
  closure c := DistinctNames c.parameters ∧ c.body.Everywhere fun n => n.IsWellFormed ∧ p n
  node _ n := n.Everywhere fun n => n.IsWellFormed ∧ p n
  fault reason := ¬ reason.IsDefensive
  place := place
  faithful := faithful

lemma lawful_code (hplace : ∀ n, p n → place n.span) (hdebug : ∀ p, (policies p).debug = p.debug) :
    (code p place policies policy faithful).Lawful where
  debug := hdebug
  ordinary := fun _ h => h
  misuse := by
    intro frame n reason hn hr
    rw [hn.self.1.misuse?] at hr
    cases hr
  place := fun hn => hplace _ hn.self.2
  here := fun hn hm => hn.here hm
  inside := fun hn hm _ => hn.inside hm
  closure := fun hn hc => ⟨hn.self.1.distinctNames hc, hn.closure hc⟩
  body := fun hc hm _ => hc.2.child (Node.mem_children_of_mem_statements hm)
  declares := fun _ _ => Nat.zero_le _

abbrev placed (place : Option Span → Prop) : Lockstep :=
  code (fun n => place n.span) place id (fun _ => True) True

lemma ends_placed {program : Node}
    (hprogram : program.Everywhere fun n => n.IsWellFormed ∧ place n.span) {s : Store}
    (hs : s.Holds (placed place).value) (policies : Policies) (frame : FrameId) :
    (placed place).Ends place (placed place).Imaged (evaluate policies frame program s)
      (evaluate policies frame program s) := by
  have hlawful : (placed place).Lawful := lawful_code (fun _ h => h) fun _ => rfl
  have hfollows := follows_same hlawful (fun _ => rfl) (fun _ => rfl) stepBound
  have hpolicy : (placed place).policy (Context.ofPolicies policies).policies := trivial
  exact hfollows.node hpolicy hprogram s s (.refl rfl hs (.empty s))

variable {d : Lockstep}

lemma along_newRoot :
    d.Along d.Near (fun g g' => g = g' ∧ d.Opened g) Eval.newRoot Eval.newRoot := by
  intro s s' hs
  have hsize : s'.frames.size = s.frames.size := by rw [hs.image, Store.size_frames_mask]
  simp only [Eval.newRoot, hsize]
  refine .ok ⟨rfl, hs.names.size⟩ (hs.keep (hs.holds.pushFrame _) (hs.names.pushFrame _) ?_ rfl)
  rw [Store.mask_pushFrame, ← hs.image]

lemma plain_installBuiltins (hf : ∀ reason : Fault, ¬ reason.IsDefensive → d.fault reason)
    {policies : Policies} (hp : d.policy policies) {frame : FrameId} (ho : d.Opened frame)
    (builtins : List (String × HostFunction)) :
    d.Plain (installBuiltins policies frame builtins)
      (installBuiltins (d.policies policies) frame builtins) := by
  induction builtins with
  | nil => exact along_pure rfl
  | cons entry rest ih =>
    have hv : d.value (.builtin ⟨entry.1, entry.2, policies⟩) := hp
    exact (goes_declare hf ho entry.1 hv true none).bind fun _ _ _ => ih

lemma stores_globalStore (hf : ∀ reason : Fault, ¬ reason.IsDefensive → d.fault reason)
    (hfaithful : d.faithful) (hbase : d.base = {}) {policies : Policies} (hp : d.policy policies)
    {extra : List (String × HostFunction)} {start : Store}
    (h : globalStore policies extra = .ok start) :
    ∃ start', globalStore (d.policies policies) extra = .ok start' ∧ d.Stores start start' := by
  have hempty : d.Stores {} {} := by
    refine ⟨Store.holds_empty, ?_, by simp [Store.mask], fun _ => rfl⟩
    rw [hbase]
    exact .refl _
  have hglobal : d.Plain (newGlobal policies extra) (newGlobal (d.policies policies) extra) := by
    refine along_newRoot.bind ?_
    rintro frame _ ⟨rfl, ho⟩
    exact Plain.bind (plain_installBuiltins hf hp ho _) fun _ => along_pure rfl
  have hends := hglobal {} {} hempty
  unfold globalStore at h ⊢
  generalize newGlobal policies extra {} = r at h hends
  generalize newGlobal (d.policies policies) extra {} = r' at hends
  cases hends with
  | ok _ ht =>
    cases h
    exact ⟨_, rfl, ht⟩
  | error he ht =>
    cases he with
    | fault => cases h
    | returning | tooDeep | exhausted =>
      cases h
      exact ⟨_, rfl, ht⟩
  | loose hn _ => exact absurd hfaithful hn

end Lockstep

end Klang
