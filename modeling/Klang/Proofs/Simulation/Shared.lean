import Klang.Proofs.Simulation.Evaluator
import Klang.Proofs.Simulation.Images

/-! Relations between runs that share their stores, so that the values they meet are equal. -/

namespace Klang

namespace Simulation

def shared (Q : (α : Type) → (α → α → Prop) → Eval α → Eval α → Prop) (node part : Node → Prop)
    (endless lax : Prop) : Simulation where
  World := Unit
  later _ _ := True
  closure _ := Eq
  builtin := Eq
  context := Eq
  node _ _ n n' := n = n' ∧ node n
  part _ _ n n' := n = n' ∧ part n
  endless := endless
  lax := lax
  Runs {α} _ p := Q α (p ())

/-- Laws for a relation between computations, given what results must be, and for the nodes that it is
asked of. -/
structure SharedLaws (Q : (α : Type) → (α → α → Prop) → Eval α → Eval α → Prop)
    (node part : Node → Prop) (endless lax : Prop) : Prop where
  mono : ∀ {α : Type} {p q : α → α → Prop} {m m' : Eval α}, Q α p m m' →
    (∀ a a', p a a' → q a a') → Q α q m m'
  pure : ∀ {α : Type} {p : α → α → Prop} {a a' : α}, p a a' → Q α p (Pure.pure a) (Pure.pure a')
  bind : ∀ {α β : Type} {p : α → α → Prop} {q : β → β → Prop} {m m' : Eval α} {k k' : α → Eval β},
    Q α p m m' → (∀ a a', p a a' → Q β q (k a) (k' a')) → Q β q (m >>= k) (m' >>= k')
  raise : ∀ {α : Type} {p : α → α → Prop} reason, Q α p (Eval.raise reason) (Eval.raise reason)
  tooDeep : ∀ {α : Type} {p : α → α → Prop}, endless → Q α p (throw .tooDeep) (throw .tooDeep)
  exhausted : ∀ {α : Type} {p : α → α → Prop}, endless → Q α p (throw .exhausted) (throw .exhausted)
  giveUp : ∀ {α : Type} {p : α → α → Prop} {m m' : Eval α}, lax → Q α p m m' →
    Q α p (throw .exhausted) m'
  get : Q Store Eq get get
  log : ∀ line, Q Unit Eq (Eval.log line) (Eval.log line)
  print : ∀ text, Q Unit Eq (Eval.print text) (Eval.print text)
  child : ∀ f, Q FrameId Eq (Eval.child f) (Eval.child f)
  newList : ∀ items, Q Value Eq (Eval.newList items) (Eval.newList items)
  newMap : ∀ entries, Q Value Eq (Eval.newMap entries) (Eval.newMap entries)
  declare : ∀ f x v isFinal ascription, Q Value Eq (Eval.declare f x v isFinal ascription)
    (Eval.declare f x v isFinal ascription)
  assign : ∀ f x v, Q Value Eq (Eval.assign f x v) (Eval.assign f x v)
  setItem : ∀ c index v, Q PUnit Eq (modify (·.setItem c index v)) (modify (·.setItem c index v))
  setEntry : ∀ c key v, Q PUnit Eq (modify (·.setEntry c key v)) (modify (·.setEntry c key v))
  here : ∀ {n m}, node n → m ∈ n.here → part m
  inside : ∀ {n m}, node n → m ∈ n.inside → part m
  endless : ∀ {n}, node n → n.isCall = true ∨ n.isWhileLoop = true → endless
  returning : ∀ {α : Type} {p : α → α → Prop} {n} v, node n → n.isReturn = true →
    Q α p (throw (.returning v)) (throw (.returning v))

variable {Q : (α : Type) → (α → α → Prop) → Eval α → Eval α → Prop} {node part : Node → Prop}
  {endless lax : Prop} {w : Unit}

lemma shared_alike_iff {v v' : Value} :
    (shared Q node part endless lax).Alike w v v' ↔ v = v' := by
  constructor
  · intro h
    cases h with
    | function hc => exact congrArg Value.function hc
    | builtin hb => exact congrArg Value.builtin hb
    | _ => rfl
  · rintro rfl
    cases v with
    | list => exact .list trivial
    | map => exact .map trivial
    | function => exact .function rfl
    | builtin => exact .builtin rfl
    | _ => constructor

lemma shared_allAlike_iff {vs vs' : List Value} :
    (shared Q node part endless lax).AllAlike w vs vs' ↔ vs = vs' := by
  rw [allAlike_iff (e := id) (g := id) (p := fun _ => True)
    fun _ _ => shared_alike_iff.trans (and_true _).to_iff.symm, List.map_id, List.map_id]
  exact and_iff_left fun _ _ => trivial

lemma shared_itemsAlike_iff {items items' : Array Value} :
    (shared Q node part endless lax).ItemsAlike w items items' ↔ items = items' :=
  shared_allAlike_iff.trans Array.toList_inj

lemma shared_entriesAlike_iff {entries entries' : Table Value} :
    (shared Q node part endless lax).EntriesAlike w entries entries' ↔ entries = entries' := by
  rw [entriesAlike_iff (e := id) (g := id) (p := fun _ => True)
    fun _ _ => shared_alike_iff.trans (and_true _).to_iff.symm, Table.map_id, Table.map_id]
  exact and_iff_left fun _ _ => trivial

lemma shared_runs_iff (h : SharedLaws Q node part endless lax) {m m' : Eval Value} :
    (shared Q node part endless lax).Runs w (shared Q node part endless lax).Alike m m' ↔
      Q Value Eq m m' :=
  ⟨fun hm => h.mono hm fun _ _ => shared_alike_iff.1, fun hm => h.mono hm fun _ _ => shared_alike_iff.2⟩

namespace SharedLaws

variable (h : SharedLaws Q node part endless lax)

include h

lemma read {α : Type} {q : α → α → Prop} {k k' : Store → Eval α} (hk : ∀ s, Q α q (k s) (k' s)) :
    Q α q (MonadState.get >>= k) (MonadState.get >>= k') := by
  refine h.bind h.get fun s s' hs => ?_
  cases hs
  exact hk s

lemma computes : (shared Q node part endless lax).Computes where
  refl _ := trivial
  trans _ _ := trivial
  frame_later _ _ := trivial
  fresh_later _ _ := trivial
  cell_later _ _ := trivial
  closure_later _ hc := hc
  node_later _ hn := hn
  part_later _ hn := hn
  pure ha := h.pure (ha () trivial)
  bind hm hk := h.bind hm fun a a' ha => hk () a a' trivial ha
  ordinary _ _ := trivial
  raise _ := h.raise _
  tooDeep := h.tooDeep
  exhausted := h.exhausted
  giveUp := h.giveUp

lemma stores : (shared Q node part endless lax).Stores where
  log := h.log
  print := h.print
  display he hv := by
    rw [shared_alike_iff.1 hv]
    refine h.read fun s => ?_
    split
    · exact h.pure rfl
    · exact h.tooDeep he
  scope {_ _ _ caller} _ _ _ := by
    cases caller with
    | none => exact h.pure .null
    | some f => exact h.read fun s => h.pure (shared_alike_iff.2 rfl)
  child f := h.mono (h.child _) fun _ _ hg => ⟨hg, trivial⟩
  newList hi := by
    rw [shared_itemsAlike_iff.1 hi]
    exact (shared_runs_iff h).2 (h.newList _)
  newMap he := by
    rw [shared_entriesAlike_iff.1 he]
    exact (shared_runs_iff h).2 (h.newMap _)
  items _ := h.read fun s => h.pure (shared_itemsAlike_iff.2 rfl)
  entries _ := h.read fun s => h.pure (shared_entriesAlike_iff.2 rfl)
  declare _ _ _ _ hv := by
    rw [shared_alike_iff.1 hv]
    exact (shared_runs_iff h).2 (h.declare _ _ _ _ _)
  lookup {_ f x} _ _ := by
    refine h.read fun s => ?_
    split
    · exact h.pure (shared_alike_iff.2 rfl)
    · exact h.raise _
  assign _ _ hv := by
    rw [shared_alike_iff.1 hv]
    exact (shared_runs_iff h).2 (h.assign _ _ _)
  setItem _ _ _ _ hv := by
    rw [shared_alike_iff.1 hv]
    exact h.setItem _ _ _
  setEntry _ _ _ _ hv := by
    rw [shared_alike_iff.1 hv]
    exact h.setEntry _ _ _

lemma lawful : (shared Q node part endless lax).Lawful where
  toComputes := h.computes
  toStores := h.stores
  callsLeft hc := congrArg Context.callsLeft hc.symm
  debug hc := congrArg (fun c : Context => c.policies.debug) hc.symm
  deeper _ hc := by
    cases hc
    rfl
  back hb hc := by
    cases hb
    cases hc
    rfl
  host hb := congrArg Builtin.host hb.symm
  closure hc := by
    cases hc
    exact ⟨rfl, rfl, rfl, trivial, fun _ _ => trivial⟩
  frame _ := trivial
  parts hn := by
    obtain ⟨rfl, hn⟩ := hn
    exact .refl (fun m hm => ⟨rfl, h.here hn hm⟩) fun m hm _ _ _ _ => ⟨rfl, h.inside hn hm⟩
  names _ _ := trivial
  declares _ _ := trivial
  made hn hc hc' := by
    obtain ⟨rfl, _⟩ := hn
    exact Option.mem_unique hc hc'
  misuse _ _ := trivial
  endless hn hk := h.endless hn.2 hk
  returning hn hr hv := by
    rw [shared_alike_iff.1 hv]
    exact h.returning _ hn.2 hr

section

variable {inner inner' : Evaluator} {context : Context} {f : FrameId}
  (hnode : ∀ context f n, part n → Q Value Eq (inner.node context f n) (inner'.node context f n))
  (hcall : endless → ∀ context g vs caller,
    Q Value Eq (inner.call context g vs caller) (inner'.call context g vs caller))

include hnode hcall

lemma carries : (shared Q node part endless lax).Carries inner inner' := by
  constructor
  · rintro w context _ f n _ rfl ⟨rfl, hn⟩
    exact (shared_runs_iff h).2 (hnode context f n hn)
  · rintro w context _ g g' vs vs' caller he rfl hg hvs -
    rw [← shared_alike_iff.1 hg, ← shared_allAlike_iff.1 hvs]
    exact (shared_runs_iff h).2 (hcall he context g vs caller)

lemma statements {nodes : List Node} (hn : ∀ n ∈ nodes, part n) (last : Value) :
    Q Value Eq (inner.statements context f nodes last) (inner'.statements context f nodes last) := by
  have hnodes : List.Forall₂ ((shared Q node part endless lax).part () f) nodes nodes :=
    List.forall₂_same.2 fun n hm => ⟨rfl, hn n hm⟩
  exact (shared_runs_iff h).1 (runs_statements (h.carries hnode hcall) h.lawful rfl hnodes
    (shared_alike_iff.2 rfl))

variable {bound bound' : Nat} (hb : bound = bound' ∨ lax ∧ bound ≤ bound')

include hb

lemma meaning {n : Node} (hn : node n) :
    Q Value Eq (inner.meaning bound context f n) (inner'.meaning bound' context f n) := by
  have hcarries := h.carries hnode hcall
  have hbinary : (shared Q node part endless lax).CarriesBinary inner inner' :=
    carriesBinary hcarries h.lawful fun hc =>
      congrArg (fun c : Context => c.policies.shortCircuit) hc.symm
  exact (shared_runs_iff (w := ()) h).1 (runs_meaning hcarries h.lawful rfl hbinary hb ⟨rfl, hn⟩)

lemma perform (he : endless)
    (hbody : ∀ context f (c : Closure), Q Value Eq
      (Evaluator.callResult context.policies (inner.statements context f c.body.statements .null))
      (Evaluator.callResult context.policies (inner'.statements context f c.body.statements .null)))
    (g : Value) (vs : List Value) (caller : Option FrameId) :
    Q Value Eq (inner.perform bound context g vs caller)
      (inner'.perform bound' context g vs caller) := by
  have hcarries : (shared Q node part endless lax).CarriesBody inner inner' := by
    rintro w context _ f c _ rfl rfl -
    exact (shared_runs_iff h).2 (hbody context f c)
  exact (shared_runs_iff (w := ()) h).1 (runs_perform (h.carries hnode hcall) h.lawful rfl he hcarries
    hb (shared_alike_iff.2 rfl) (shared_allAlike_iff.2 rfl) fun _ _ => trivial)

end

end SharedLaws

end Simulation

end Klang
