import Klang.Proofs.Lockstep.Rules
import Klang.Proofs.Simulation.Evaluator
import Klang.Proofs.Simulation.Images

/-! The evaluator in lockstep: what one step of it keeps, given that what lies inside keeps it, and
what whole runs keep. -/

namespace Klang

namespace Lockstep

variable (d : Lockstep)

/-- Laws of what is agreed on. The parts of a node are agreed on with it, a function with the node that
makes it, and its body with the function. -/
structure Lawful : Prop where
  debug : ∀ p, (d.policies p).debug = p.debug
  ordinary : ∀ reason : Fault, ¬ reason.IsDefensive → d.fault reason
  misuse : ∀ {frame n reason}, d.node frame n → reason ∈ n.misuse? → d.fault reason
  place : ∀ {frame n}, d.node frame n → d.place n.span
  here : ∀ {frame n m}, d.node frame n → m ∈ n.here → d.node frame m
  inside : ∀ {frame n m inner}, d.node frame n → m ∈ n.inside → d.Opened inner → d.node inner m
  closure : ∀ {frame n c}, d.node frame n → c ∈ n.closure? frame → d.closure c
  body : ∀ {c : Closure} {m inner}, d.closure c → m ∈ c.body.statements → d.Opened inner →
    d.node inner m
  declares : ∀ {frame n name}, d.node frame n → name ∈ n.declared? → d.Opened frame

def simulation : Simulation where
  World := Unit
  later _ _ := True
  fresh _ f := d.Opened f
  fault := d.fault
  closure _ c c' := c' = c ∧ d.closure c
  builtin b b' := b' = d.mask.builtin b ∧ d.policy b.policies
  context c c' := c' = d.context c ∧ d.policy c.policies
  node _ f n n' := n' = n ∧ d.node f n
  part _ f n n' := n' = n ∧ d.node f n
  Runs _ p := d.Along d.Near (p ())

variable {d} {w : Unit} {v v' : Value}

lemma alike_iff (v v' : Value) : d.simulation.Alike w v v' ↔ v' = d.image v ∧ d.value v := by
  constructor
  · intro h
    cases h with
    | function hc => exact ⟨congrArg Value.function hc.1, hc.2⟩
    | builtin hb => exact ⟨congrArg Value.builtin hb.1, hb.2⟩
    | _ => exact ⟨rfl, trivial⟩
  · rintro ⟨rfl, hv⟩
    cases v with
    | list => exact .list trivial
    | map => exact .map trivial
    | function => exact .function ⟨rfl, hv⟩
    | builtin => exact .builtin ⟨rfl, hv⟩
    | _ => constructor

lemma alike_eq : d.simulation.Alike w = d.Imaged := by
  funext v v'
  exact propext (alike_iff v v')

lemma runs_iff {m m' : Eval Value} :
    d.simulation.Runs w d.simulation.Alike m m' ↔ d.Goes m m' := by
  change d.Along d.Near (d.simulation.Alike ()) m m' ↔ _
  rw [alike_eq]

variable (hd : d.Lawful)

include hd

lemma computes : d.simulation.Computes where
  refl _ := trivial
  trans _ _ := trivial
  frame_later _ _ := trivial
  fresh_later _ hf := hf
  cell_later _ _ := trivial
  closure_later _ hc := hc
  node_later _ hn := hn
  part_later _ hn := hn
  pure ha := along_pure (ha () trivial)
  bind hm hk := hm.bind fun a a' ha => hk () a a' trivial ha
  ordinary := hd.ordinary
  raise := along_raise
  tooDeep _ := along_throw .tooDeep
  exhausted _ := along_throw .exhausted
  giveUp := False.elim

lemma stores : d.simulation.Stores where
  log := along_log
  print := plain_print
  display _ hv := by
    obtain ⟨rfl, _⟩ := (alike_iff _ _).1 hv
    exact plain_display _
  scope _ _ _ := runs_iff.2 (goes_scopeOf _)
  child _ := along_child _
  newList hi := by
    obtain ⟨rfl, hgood⟩ := (Simulation.itemsAlike_iff_image alike_iff).1 hi
    exact runs_iff.2 (goes_newList hgood)
  newMap he := by
    obtain ⟨rfl, hgood⟩ := (Simulation.entriesAlike_iff_image alike_iff).1 he
    exact runs_iff.2 (goes_newMap hgood)
  items {_ c} _ := (along_items c).imp fun _ _ => (Simulation.itemsAlike_iff_image alike_iff).2
  entries {_ c} _ := (along_entries c).imp fun _ _ => (Simulation.entriesAlike_iff_image alike_iff).2
  declare isFinal ascription hf _ hv := by
    obtain ⟨rfl, hgood⟩ := (alike_iff _ _).1 hv
    exact runs_iff.2 (goes_declare hd.ordinary hf _ hgood isFinal ascription)
  lookup _ _ := runs_iff.2 (goes_lookup hd.ordinary _ _)
  assign _ _ hv := by
    obtain ⟨rfl, hgood⟩ := (alike_iff _ _).1 hv
    exact runs_iff.2 (goes_assign hd.ordinary _ _ hgood)
  setItem index _ _ _ hv := by
    obtain ⟨rfl, hgood⟩ := (alike_iff _ _).1 hv
    exact plain_setItem _ index hgood
  setEntry key _ _ _ hv := by
    obtain ⟨rfl, hgood⟩ := (alike_iff _ _).1 hv
    exact plain_setEntry _ key hgood

lemma lawful : d.simulation.Lawful where
  toComputes := computes hd
  toStores := stores hd
  callsLeft hc := by
    rw [hc.1]
    rfl
  debug hc := by
    rw [hc.1]
    exact hd.debug _
  deeper _ hc := by
    obtain ⟨rfl, hp⟩ := hc
    exact ⟨rfl, hp⟩
  back hb hc := by
    obtain ⟨rfl, hp⟩ := hb
    obtain ⟨rfl, _⟩ := hc
    exact ⟨rfl, hp⟩
  host hb := by
    rw [hb.1]
    rfl
  closure hc := by
    obtain ⟨rfl, _⟩ := hc
    exact ⟨rfl, rfl, rfl, trivial, fun _ _ => trivial⟩
  frame _ := trivial
  parts hn := by
    obtain ⟨rfl, hn⟩ := hn
    exact .refl (fun m hm => ⟨rfl, hd.here hn hm⟩) fun m hm _ _ _ hg => ⟨rfl, hd.inside hn hm hg⟩
  names _ _ := trivial
  declares hn := hd.declares hn.2
  made hn hc hc' := by
    obtain ⟨rfl, hn⟩ := hn
    exact ⟨Option.mem_unique hc' hc, hd.closure hn hc⟩
  misuse hn := hd.misuse hn.2
  endless _ _ := trivial
  returning _ _ hv := by
    obtain ⟨rfl, hgood⟩ := (alike_iff _ _).1 hv
    exact along_throw (.returning hgood)

end Lockstep

structure Evaluator.Follows (d : Lockstep) (inner inner' : Evaluator) : Prop where
  node : ∀ {context frame n}, d.policy context.policies → d.node frame n →
    d.Along d.place d.Imaged (inner.node context frame n)
      (inner'.node (d.context context) frame n)
  call : ∀ {context function arguments} caller, d.policy context.policies → d.value function →
    (∀ v ∈ arguments, d.value v) →
    d.Goes (inner.call context function arguments caller)
      (inner'.call (d.context context) (d.image function) (arguments.map d.image) caller)

namespace Lockstep

open Evaluator Simulation

variable {d : Lockstep} {inner inner' : Evaluator} {context : Context} {frame : FrameId}

section

variable (h : Follows d inner inner')

include h

lemma carries : d.simulation.Carries inner inner' := by
  constructor
  · rintro w context _ frame n _ ⟨rfl, hp⟩ ⟨rfl, hn⟩
    exact runs_iff.2 ((h.node hp hn).mono fun _ hplace => .inr hplace)
  · rintro w context _ g g' vs vs' caller - ⟨rfl, hp⟩ hg hvs -
    obtain ⟨rfl, hfunction⟩ := (alike_iff g g').1 hg
    obtain ⟨rfl, hvalues⟩ := (allAlike_iff_image alike_iff).1 hvs
    exact runs_iff.2 (h.call caller hp hfunction hvalues)

variable (hd : d.Lawful)

include hd

lemma along_visit (hb : d.simulation.CarriesBinary inner inner') (hp : d.policy context.policies)
    (bound : Nat) {n : Node} (hn : d.node frame n) :
    d.Along d.place d.Imaged (visit inner bound context frame n)
      (visit inner' bound (d.context context) frame n) := by
  have hmeaning : d.Goes (meaning inner bound context frame n)
      (meaning inner' bound (d.context context) frame n) :=
    (runs_iff (w := ())).1
      (runs_meaning (carries h) (lawful hd) ⟨rfl, hp⟩ hb (.inl rfl) ⟨rfl, hn⟩)
  have hlocated := hmeaning.located (hd.place hn)
  have hdebug : (d.context context).policies.debug = context.policies.debug := hd.debug _
  unfold visit
  rw [hdebug]
  split
  · exact (along_log _).bind fun _ _ _ => hlocated
  · exact hlocated

lemma goes_perform (hr : d.simulation.CarriesBody inner inner') (hp : d.policy context.policies)
    (bound : Nat) {function : Value} (hf : d.value function) {arguments : List Value}
    (ha : ∀ v ∈ arguments, d.value v) (caller : Option FrameId) :
    d.Goes (perform inner bound context function arguments caller)
      (perform inner' bound (d.context context) (d.image function) (arguments.map d.image)
        caller) :=
  (runs_iff (w := ())).1 (runs_perform (carries h) (lawful hd) ⟨rfl, hp⟩ trivial hr (.inl rfl)
    ((alike_iff _ _).2 ⟨rfl, hf⟩) ((allAlike_iff_image alike_iff).2 ⟨rfl, ha⟩) fun _ _ => trivial)

lemma goes_body (hp : d.policy context.policies) {c : Closure} (hc : d.closure c)
    (ho : d.Opened frame) :
    d.Goes (statements inner context frame c.body.statements .null)
      (statements inner' (d.context context) frame c.body.statements .null) := by
  have hbody : List.Forall₂ (d.simulation.part () frame) c.body.statements c.body.statements :=
    List.forall₂_same.2 fun m hm => ⟨rfl, hd.body hc hm ho⟩
  exact (runs_iff (w := ())).1 (runs_statements (carries h) (lawful hd) ⟨rfl, hp⟩ hbody .null)

lemma carriesBinary (hs : ∀ p, (d.policies p).shortCircuit = p.shortCircuit) :
    d.simulation.CarriesBinary inner inner' := by
  refine Simulation.carriesBinary (carries h) (lawful hd) fun hc => ?_
  rw [hc.1]
  exact hs _

lemma carriesBody (hr : ∀ p, (d.policies p).implicitReturn = p.implicitReturn) :
    d.simulation.CarriesBody inner inner' := by
  rintro w context _ frame c _ ⟨rfl, hp⟩ ⟨rfl, hc⟩ ho
  exact runs_iff.2 ((goes_body h hd hp hc ho).callResult fun _ => hr context.policies)

end

lemma follows_within (hd : d.Lawful)
    (hb : ∀ bound, Follows d ⟨evaluateWithin bound, callWithin bound⟩
        ⟨evaluateWithin bound, callWithin bound⟩ →
      d.simulation.CarriesBinary ⟨evaluateWithin bound, callWithin bound⟩
        ⟨evaluateWithin bound, callWithin bound⟩)
    (hr : ∀ bound, Follows d ⟨evaluateWithin bound, callWithin bound⟩
        ⟨evaluateWithin bound, callWithin bound⟩ →
      d.simulation.CarriesBody ⟨evaluateWithin bound, callWithin bound⟩
        ⟨evaluateWithin bound, callWithin bound⟩) (bound : Nat) :
    Follows d ⟨evaluateWithin bound, callWithin bound⟩
      ⟨evaluateWithin bound, callWithin bound⟩ := by
  -- Nodes and calls go together: each spends a step and leaves the rest to the others.
  induction bound with
  | zero => exact ⟨fun _ _ => along_throw .exhausted, fun _ _ _ _ => along_throw .exhausted⟩
  | succ bound ih =>
    constructor
    · intro context frame n hp hn
      exact along_visit ih hd (hb bound ih) hp bound hn
    · intro context function arguments caller hp hf ha
      exact goes_perform ih hd (hr bound ih) hp bound hf ha caller

lemma follows_same (hd : d.Lawful) (hs : ∀ p, (d.policies p).shortCircuit = p.shortCircuit)
    (hr : ∀ p, (d.policies p).implicitReturn = p.implicitReturn) (bound : Nat) :
    Follows d ⟨evaluateWithin bound, callWithin bound⟩ ⟨evaluateWithin bound, callWithin bound⟩ :=
  follows_within hd (fun _ h => carriesBinary h hd hs) (fun _ h => carriesBody h hd hr) bound

end Lockstep

end Klang
