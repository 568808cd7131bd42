import Klang.Proofs.Simulation.Operations

/-! The evaluator, for all relations between runs: one step of it runs alike if what lies inside does.
There is one case for each kind of node. -/

namespace Klang

open Evaluator

def Evaluator.traceLine (n : Node) : String := s!"[eval] {n.tag} @ {spanText n.span}"

def Evaluator.runBody (inner : Evaluator) (context : Context) (closure : Closure) (count : Nat)
    (frame : FrameId) : Eval Value := do
  let name := if closure.name = "" then "<anonymous function>" else closure.name
  if context.policies.debug then Eval.log s!"[call] {name}({count} args)"
  match context.callsLeft with
  | 0 => throw .tooDeep
  | callsLeft + 1 =>
    callResult context.policies
      (statements inner { context with callsLeft } frame closure.body.statements .null)

lemma Evaluator.callClosure_eq (inner : Evaluator) (context : Context) (closure : Closure)
    (arguments : List Value) :
    callClosure inner context closure arguments = (do
      let name := if closure.name = "" then "<anonymous function>" else closure.name
      Eval.raiseIf (arityFault? name arguments closure.parameters.length)
      let frame ← Eval.child closure.frame
      bindParameters frame closure.parameters arguments
      runBody inner context closure arguments.length frame) := rfl

structure Simulation.Carries (R : Simulation) (inner inner' : Evaluator) : Prop where
  node : ∀ {w context context' f n n'}, R.context context context' → R.part w f n n' →
    R.Runs w R.Alike (inner.node context f n) (inner'.node context' f n')
  call : ∀ {w context context' g g' vs vs'} {caller : Option FrameId}, R.endless →
    R.context context context' → R.Alike w g g' → R.AllAlike w vs vs' →
    (∀ f ∈ caller, R.frame w f) →
    R.Runs w R.Alike (inner.call context g vs caller) (inner'.call context' g' vs' caller)

def Simulation.CarriesBinary (R : Simulation) (inner inner' : Evaluator) : Prop :=
  ∀ {w context context' f s s' operator left left' right right'}, R.context context context' →
    R.node w f (.binary s operator left right) (.binary s' operator left' right') →
    R.part w f left left' → R.part w f right right' →
    R.Runs w R.Alike (binary inner context f operator left right)
      (binary inner' context' f operator left' right')

def Simulation.CarriesBody (R : Simulation) (inner inner' : Evaluator) : Prop :=
  ∀ {w context context' f c c'}, R.context context context' → R.closure w c c' → R.fresh w f →
    R.Runs w R.Alike (callResult context.policies (statements inner context f c.body.statements .null))
      (callResult context'.policies (statements inner' context' f c'.body.statements .null))

namespace Simulation

variable {R : Simulation} {inner inner' : Evaluator} {w : R.World} {context context' : Context}
  {f : FrameId}

lemma Lawful.expectBoolean (hR : R.Lawful) (construct : Construct) {v v' : Value}
    (h : R.Alike w v v') :
    R.Same w (Evaluator.expectBoolean construct v) (Evaluator.expectBoolean construct v') := by
  cases h with
  | boolean b => exact hR.same b
  | _ => exact hR.refuse id

section

variable (h : R.Carries inner inner') (hR : R.Lawful) (hc : R.context context context')

include h hR hc

lemma runs_statements {nodes nodes' : List Node} (hn : List.Forall₂ (R.part w f) nodes nodes')
    {last last' : Value} (hl : R.Alike w last last') :
    R.Runs w R.Alike (statements inner context f nodes last)
      (statements inner' context' f nodes' last') := by
  induction nodes generalizing w nodes' last last' with
  | nil =>
    cases hn
    exact hR.value hl
  | cons node nodes ih =>
    cases hn with
    | cons hnode hnodes =>
      refine hR.bind (h.node hc hnode) fun u v v' hu hv => ?_
      exact ih (hnodes.imp fun _ _ => hR.part_later hu) hv

lemma runs_nodes {nodes nodes' : List Node} (hn : List.Forall₂ (R.part w f) nodes nodes') :
    R.Runs w R.AllAlike (nodes.mapM (inner.node context f)) (nodes'.mapM (inner'.node context' f)) :=
  hR.mapM (p := R.Alike) hR.alike_later (hn.imp fun _ _ hm _ hu => h.node hc (hR.part_later hu hm))

lemma runs_mapEntries {entries entries' : List (String × Node)}
    (hn : List.Forall₂ (fun e e' => e.1 = e'.1 ∧ R.part w f e.2 e'.2) entries entries')
    {found found' : Table Value} (hfound : R.EntriesAlike w found found') :
    R.Runs w R.EntriesAlike (mapEntries inner context f entries found)
      (mapEntries inner' context' f entries' found') := by
  induction entries generalizing w entries' found found' with
  | nil =>
    cases hn
    exact hR.pure fun u hu => hfound.imp fun _ _ => hR.alike_later hu
  | cons entry entries ih =>
    cases hn with
    | @cons _ entry' _ _ he hrest =>
      obtain ⟨key, node⟩ := entry
      obtain ⟨_, node'⟩ := entry'
      obtain ⟨rfl, hnode⟩ := he
      refine hR.bind (h.node hc hnode) fun u v v' hu hv => ?_
      refine ih (hrest.imp fun _ _ he => ⟨he.1, hR.part_later hu he.2⟩) ?_
      exact Table.Rel.insert (hfound.imp fun _ _ => hR.alike_later hu) hv key

/-- A smaller bound on the rounds gives the first run up. -/
lemma runs_whileRounds (he : R.endless) {condition condition' body body' : Node} (hf : R.frame w f)
    (hcondition : R.part w f condition condition')
    (hbody : ∀ u g, R.later w u → R.fresh u g → R.part u g body body') {rounds rounds' : Nat}
    (hr : rounds = rounds' ∨ R.lax ∧ rounds ≤ rounds') {last last' : Value}
    (hl : R.Alike w last last') :
    R.Runs w R.Alike (whileRounds inner context f condition body rounds last)
      (whileRounds inner' context' f condition' body' rounds' last') := by
  induction rounds' generalizing w rounds last last' with
  | zero =>
    obtain rfl : rounds = 0 := by omega
    exact hR.exhausted he
  | succ rounds' ih =>
    -- a round, with the rounds after it in whatever number they may be compared
    have hround {rounds : Nat} (hr : rounds = rounds' ∨ R.lax ∧ rounds ≤ rounds') :
        R.Runs w R.Alike (whileRounds inner context f condition body (rounds + 1) last)
          (whileRounds inner' context' f condition' body' (rounds' + 1) last') := by
      refine hR.bind (h.node hc hcondition) fun u verdict verdict' hu hverdict => ?_
      refine hR.bind_same (hR.expectBoolean _ hverdict) fun t go ht => ?_
      have hwt := hR.trans hu ht
      cases go with
      | false => exact hR.value (hR.alike_later hwt hl)
      | true =>
        refine hR.bind (hR.child (hR.frame_later hwt hf)) ?_
        rintro u g _ htu ⟨rfl, hg⟩
        have hwu := hR.trans hwt htu
        refine hR.bind (h.node hc (hbody u g hwu hg)) fun t v v' ht hv => ?_
        have hwt := hR.trans hwu ht
        exact ih (hR.frame_later hwt hf) (hR.part_later hwt hcondition)
          (fun t' g ht' => hbody t' g (hR.trans hwt ht')) hr hv
    cases rounds with
    | zero =>
      have hlax : R.lax := by
        rcases hr with hr | ⟨hlax, _⟩
        · cases hr
        · exact hlax
      exact hR.giveUp hlax (hround (.inl rfl))
    | succ rounds =>
      refine hround ?_
      rcases hr with hr | ⟨hlax, hr⟩
      · exact .inl (Nat.succ.inj hr)
      · exact .inr ⟨hlax, Nat.le_of_succ_le_succ hr⟩

lemma runs_forRounds {iterator : String} (hi : R.name iterator) {body body' : Node}
    (hf : R.frame w f) (hbody : ∀ u g, R.later w u → R.fresh u g → R.part u g body body')
    {items items' : List Value} (hitems : R.AllAlike w items items') {last last' : Value}
    (hl : R.Alike w last last') :
    R.Runs w R.Alike (forRounds inner context f iterator body items last)
      (forRounds inner' context' f iterator body' items' last') := by
  induction items generalizing w items' last last' with
  | nil =>
    cases hitems
    exact hR.value hl
  | cons item items ih =>
    cases hitems with
    | cons hitem hrest =>
      refine hR.bind (hR.child hf) ?_
      rintro u g _ hu ⟨rfl, hg⟩
      refine hR.bind (hR.declare false none hg hi (hR.alike_later hu hitem)) fun t _ _ ht _ => ?_
      refine hR.bind (h.node hc (hbody t g (hR.trans hu ht) (hR.fresh_later ht hg))) ?_
      intro t' v v' ht' hv
      have hwt := hR.trans hu (hR.trans ht ht')
      exact ih (hR.frame_later hwt hf) (fun u' g hu' => hbody u' g (hR.trans hwt hu'))
        (hR.all_later hwt hrest) hv

lemma runs_shortCircuit {right right' : Node} (hr : R.part w f right right')
    (operator : BinaryOperator) {left left' : Value} (hl : R.Alike w left left') :
    R.Runs w R.Alike (shortCircuit inner context f operator left right)
      (shortCircuit inner' context' f operator left' right') := by
  refine hR.bind_same (hR.expectBoolean _ hl) fun u decided hu => ?_
  split
  · exact hR.value (.boolean decided)
  · refine hR.bind (h.node hc (hR.part_later hu hr)) fun t second second' ht hs => ?_
    cases hs with
    | boolean b => exact hR.value (.boolean b)
    | _ => exact hR.refuse id

omit hc in
lemma carriesBinary
    (hs : ∀ {c c'}, R.context c c' → c'.policies.shortCircuit = c.policies.shortCircuit) :
    R.CarriesBinary inner inner' := by
  intro w context context' f s s' operator left left' right right' hc _ hleft hright
  unfold binary
  rw [hs hc]
  refine hR.bind (h.node hc hleft) fun u first first' hu hfirst => ?_
  split
  · exact runs_shortCircuit h hR hc (hR.part_later hu hright) operator hfirst
  · refine hR.bind (h.node hc (hR.part_later hu hright)) fun t second second' ht hsecond => ?_
    exact hR.binaryApply operator (hR.alike_later ht hfirst) hsecond

omit hc in
lemma carriesBody
    (hbody : ∀ {w c c' f}, R.closure w c c' → R.fresh w f →
      List.Forall₂ (R.part w f) c.body.statements c'.body.statements)
    (hresult : ∀ {w c c' m m'}, R.context c c' → R.Runs w R.Alike m m' →
      R.Runs w R.Alike (callResult c.policies m) (callResult c'.policies m')) :
    R.CarriesBody inner inner' := by
  intro w context context' f c c' hc hclosure hf
  exact hresult hc (runs_statements h hR hc (hbody hclosure hf) .null)

lemma runs_conditional {n n' : Node} (hn : R.node w f n n') {s s' : Option Source.Span}
    {condition condition' thenBranch thenBranch' : Node} {elseBranch elseBranch' : Option Node}
    (hcondition : R.part w f condition condition')
    (hthen : ∀ u g, R.later w u → R.fresh u g → R.part u g thenBranch thenBranch')
    (helse : Option.Rel (fun m m' => ∀ u g, R.later w u → R.fresh u g → R.part u g m m') elseBranch
      elseBranch') (bound bound' : Nat) :
    R.Runs w R.Alike
      (meaning inner bound context f (.conditional s condition thenBranch elseBranch))
      (meaning inner' bound' context' f (.conditional s' condition' thenBranch' elseBranch')) := by
  have hbranch {u : R.World} (hu : R.later w u) {m m' : Node}
      (hm : ∀ u g, R.later w u → R.fresh u g → R.part u g m m') :
      R.Runs u R.Alike (do inner.node context (← Eval.child f) m)
        (do inner'.node context' (← Eval.child f) m') := by
    refine hR.bind (hR.child (hR.frame_later hu (hR.frame hn))) ?_
    rintro t g _ ht ⟨rfl, hg⟩
    exact h.node hc (hm t g (hR.trans hu ht) hg)
  refine hR.bind (h.node hc hcondition) fun u verdict verdict' hu hverdict => ?_
  refine hR.bind_same (hR.expectBoolean _ hverdict) fun t go ht => ?_
  have hwt := hR.trans hu ht
  cases go with
  | true => exact hbranch hwt hthen
  | false =>
    cases helse with
    | none => exact hR.value .null
    | some hm => exact hbranch hwt hm

omit h hc in
lemma runs_misassign {s : Option Source.Span} {target target' value value' n' : Node}
    {reason : Fault} (hn : R.node w f (.assignment s target value) n')
    (hm : (Node.assignment s target value).misuse? = some reason)
    {s' : Option Source.Span} (hm' : (Node.assignment s' target' value').misuse? = some reason) :
    R.Runs w R.Alike (assignment inner context f target value)
      (assignment inner' context' f target' value') := by
  have hraise {s : Option Source.Span} {target value : Node} {inner : Evaluator} {context : Context}
      (hm : (Node.assignment s target value).misuse? = some reason) :
      assignment inner context f target value = Eval.raise reason := by
    cases target <;> cases hm <;> rfl
  rw [hraise hm, hraise hm']
  exact hR.raise (hR.misuse hn hm)

/-- The meaning of a node runs alike if its parts do. -/
theorem runs_meaning (hbinary : R.CarriesBinary inner inner') {bound bound' : Nat}
    (hb : bound = bound' ∨ R.lax ∧ bound ≤ bound') {n n' : Node} (hn : R.node w f n n') :
    R.Runs w R.Alike (meaning inner bound context f n) (meaning inner' bound' context' f n') := by
  have hf : R.frame w f := hR.frame hn
  cases hR.parts hn with
  | unknown => exact hR.raise (hR.misuse hn rfl)
  | number x => exact hR.value (.number x)
  | string text => exact hR.value (.string text)
  | boolean b => exact hR.value (.boolean b)
  | list helements => exact hR.bind (runs_nodes h hR hc helements) fun _ _ _ _ hv => hR.newList hv
  | map hentries =>
    exact hR.bind (runs_mapEntries h hR hc hentries Table.rel_empty) fun _ _ _ _ he => hR.newMap he
  | identifier name => exact hR.lookup hf (hR.names hn List.mem_cons_self)
  | unary operator hoperand =>
    exact hR.bind (h.node hc hoperand) fun _ _ _ _ hv => hR.unaryApply hn hv
  | binary operator hleft hright => exact hbinary hc hn hleft hright
  | index htarget hkey =>
    refine hR.bind (h.node hc htarget) fun u t t' hu ht => ?_
    refine hR.bind (h.node hc (hR.part_later hu hkey)) fun _ k k' hk hkv => ?_
    exact hR.indexValue (hR.alike_later hk ht) hkv
  | assignName name hvalue =>
    refine hR.bind (h.node hc hvalue) fun u v v' hu hv => ?_
    exact hR.assign (hR.frame_later hu hf) (hR.names hn List.mem_cons_self) hv
  | assignIndex htarget hkey hvalue =>
    refine hR.bind (h.node hc htarget) fun u g g' hu hg => ?_
    refine hR.bind (h.node hc (hR.part_later hu hkey)) fun t k k' ht hk => ?_
    refine hR.bind (h.node hc (hR.part_later (hR.trans hu ht) hvalue)) fun t' v v' ht' hv => ?_
    exact hR.assignIndex (hR.node_later (hR.trans hu (hR.trans ht ht')) hn) trivial
      (hR.alike_later (hR.trans ht ht') hg) (hR.alike_later ht' hk) hv
  | misassign reason hm hm' => exact runs_misassign hR hn hm hm'
  | call hcallee harguments =>
    refine hR.bind (h.node hc hcallee) fun u g g' hu hg => ?_
    refine hR.bind (runs_nodes h hR hc (harguments.imp fun _ _ => hR.part_later hu)) ?_
    intro t vs vs' ht hvs
    refine h.call (hR.endless hn (.inl rfl)) hc (hR.alike_later ht hg) hvs ?_
    rintro _ ⟨⟩
    exact hR.frame_later (hR.trans hu ht) hf
  | function parameters => exact hR.value (.function (hR.made hn rfl rfl))
  | block hnodes =>
    refine hR.bind (hR.child hf) ?_
    rintro u g _ hu ⟨rfl, hg⟩
    exact runs_statements h hR hc (hnodes.imp fun _ _ hm => hm u g hu hg) .null
  | expressionStatement hexpression => exact h.node hc hexpression
  | declaration name isFinal ascription hvalue =>
    refine hR.bind (h.node hc hvalue) fun u v v' hu hv => ?_
    exact hR.declare isFinal ascription (hR.fresh_later hu (hR.declares hn rfl))
      (hR.names hn List.mem_cons_self) hv
  | definition name parameters =>
    exact hR.declare true none (hR.declares hn rfl) (hR.names hn List.mem_cons_self)
      (.function (hR.made hn rfl rfl))
  | conditional hcondition hthen helse =>
    exact runs_conditional h hR hc hn hcondition hthen helse bound bound'
  | whileLoop hcondition hbody =>
    exact runs_whileRounds h hR hc (hR.endless hn (.inr rfl)) hf hcondition hbody hb .null
  | forLoop iterator hiterable hbody =>
    refine hR.bind (h.node hc hiterable) fun u v v' hu hv => ?_
    refine hR.bind (hR.iterationItems hv) fun t items items' ht hitems => ?_
    have hwt := hR.trans hu ht
    exact runs_forRounds h hR hc (hR.names hn List.mem_cons_self) (hR.frame_later hwt hf)
      (fun u' g hu' => hbody u' g (hR.trans hwt hu')) hitems .null
  | returnStatement hvalue =>
    cases hvalue with
    | none => exact hR.returning hn rfl .null
    | some hvalue =>
      refine hR.bind (h.node hc hvalue) fun u v v' hu hv => ?_
      exact hR.returning (hR.node_later hu hn) rfl hv
  | program hnodes => exact runs_statements h hR hc hnodes .null

theorem runs_visit (hbinary : R.CarriesBinary inner inner')
    (htrace : ∀ {w f n n'}, R.node w f n n' →
      R.Same w (Eval.log (traceLine n)) (Eval.log (traceLine n')))
    (hplace : ∀ {w u f n n'} {m m' : Eval Value}, R.node w f n n' → R.Runs u R.Alike m m' →
      R.Runs u R.Alike (Eval.located n.span m) (Eval.located n'.span m'))
    {bound bound' : Nat} (hb : bound = bound' ∨ R.lax ∧ bound ≤ bound') {n n' : Node}
    (hn : R.node w f n n') :
    R.Runs w R.Alike (visit inner bound context f n) (visit inner' bound' context' f n') := by
  unfold visit
  rw [hR.debug hc]
  split
  · refine hR.bind_same (htrace hn) fun u _ hu => ?_
    exact hplace hn (runs_meaning h hR hc hbinary hb (hR.node_later hu hn))
  · exact hplace hn (runs_meaning h hR hc hbinary hb hn)

omit h hc in
lemma runs_bindParameters {parameters : List Parameter} (hp : ∀ p ∈ parameters, R.name p.name)
    (hf : R.fresh w f) {vs vs' : List Value} (hv : R.AllAlike w vs vs') :
    R.Same w (bindParameters f parameters vs) (bindParameters f parameters vs') := by
  induction parameters generalizing w vs vs' with
  | nil => exact hR.same ()
  | cons parameter parameters ih =>
    cases hv with
    | nil => exact hR.same ()
    | cons hv hvs =>
      refine hR.bind (hR.declare false parameter.ascription hf (hp parameter List.mem_cons_self) hv)
        fun u _ _ hu _ => ?_
      exact ih (fun p hm => hp p (List.mem_cons_of_mem _ hm)) (hR.fresh_later hu hf)
        (hR.all_later hu hvs)

omit h in
lemma runs_runBody (he : R.endless) (hbody : R.CarriesBody inner inner') {c c' : Closure}
    (hclosure : R.closure w c c') (hf : R.fresh w f) (count : Nat) :
    R.Runs w R.Alike (runBody inner context c count f) (runBody inner' context' c' count f) := by
  have hrest {u : R.World} (hu : R.later w u) : R.Runs u R.Alike
      (match context.callsLeft with
      | 0 => throw .tooDeep
      | callsLeft + 1 => callResult context.policies
        (statements inner { context with callsLeft } f c.body.statements .null))
      (match context.callsLeft with
      | 0 => throw .tooDeep
      | callsLeft + 1 => callResult context'.policies
        (statements inner' { context' with callsLeft } f c'.body.statements .null)) := by
    cases context.callsLeft with
    | zero => exact hR.tooDeep he
    | succ callsLeft =>
      exact hbody (hR.deeper callsLeft hc) (hR.closure_later hu hclosure) (hR.fresh_later hu hf)
  unfold runBody
  rw [(hR.closure hclosure).1, hR.debug hc, hR.callsLeft hc]
  dsimp only
  split
  · exact hR.bind_same (hR.log _) fun _ _ hu => hrest hu
  · exact hrest (hR.refl w)

omit h in
lemma runs_callClosure (he : R.endless) (hbody : R.CarriesBody inner inner') {c c' : Closure}
    (hclosure : R.closure w c c') {vs vs' : List Value} (hv : R.AllAlike w vs vs') :
    R.Runs w R.Alike (callClosure inner context c vs) (callClosure inner' context' c' vs') := by
  obtain ⟨hname, hparameters, hframe, hf, hp⟩ := hR.closure hclosure
  have harity (name : String) : R.Same w
      (Eval.raiseIf (arityFault? name vs c.parameters.length))
      (Eval.raiseIf (arityFault? name vs' c.parameters.length)) := by
    rw [hv.arityFault?_eq]
    exact hR.raiseIf fun _ => not_isDefensive_of_arityFault?
  rw [callClosure_eq, callClosure_eq, hname, hparameters, hframe, ← hv.length_eq]
  refine hR.bind_same (harity _) fun u _ hu => ?_
  refine hR.bind (hR.child (hR.frame_later hu hf)) ?_
  rintro t g _ ht ⟨rfl, hg⟩
  have hwt := hR.trans hu ht
  refine hR.bind_same (runs_bindParameters hR hp hg (hR.all_later hwt hv)) fun t' _ ht' => ?_
  exact runs_runBody hR hc he hbody (hR.closure_later (hR.trans hwt ht') hclosure)
    (hR.fresh_later ht' hg) _

theorem runs_perform (he : R.endless) (hbody : R.CarriesBody inner inner') {bound bound' : Nat}
    (hb : bound = bound' ∨ R.lax ∧ bound ≤ bound') {g g' : Value} (hg : R.Alike w g g')
    {vs vs' : List Value} (hv : R.AllAlike w vs vs') {caller : Option FrameId}
    (hf : ∀ f ∈ caller, R.frame w f) :
    R.Runs w R.Alike (perform inner bound context g vs caller)
      (perform inner' bound' context' g' vs' caller) := by
  have hcall (u context context' g g' vs vs') (caller : Option FrameId)
      (hc : R.context context context') (hg : R.Alike u g g') (hv : R.AllAlike u vs vs')
      (hf : ∀ f ∈ caller, R.frame u f) :
      R.Runs u R.Alike (inner.call context g vs caller) (inner'.call context' g' vs' caller) :=
    h.call he hc hg hv hf
  cases hg with
  | builtin hbuiltin => exact hR.invoke he hcall hb hc hbuiltin hv hf
  | function hclosure => exact runs_callClosure hR hc he hbody hclosure hv
  | _ => exact hR.refuse id

end

end Simulation

end Klang
