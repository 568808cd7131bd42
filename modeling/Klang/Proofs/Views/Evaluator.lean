import Klang.Proofs.Interruption.Evaluator
import Klang.Proofs.Simulation.Images
import Klang.Proofs.Views.Rules

/-! The evaluator in a view: one step of it stays in view if what lies inside does, and so do whole
runs. -/

namespace Klang

namespace View

variable (d : View)

def simulation : Simulation where
  World := Store
  later := Store.Grows
  frame := d.frame
  fresh := d.frame
  cell := d.cell
  name := d.name
  closure w c c' := c = c' ∧ d.closure c ∧ d.frame w c.frame
  builtin b b' := b = b' ∧ d.builtin b
  context := Eq
  node w f n n' := n = n' ∧ d.frame w f ∧ d.node n
  part w f n n' := n = n' ∧ d.frame w f ∧ d.node n
  Runs := d.Stays

variable {d} {w : Store} {v v' : Value}

lemma alike_iff : d.simulation.Alike w v v' ↔ v = v' ∧ d.value w v := by
  constructor
  · intro h
    cases h with
    | list hc => exact ⟨rfl, hc⟩
    | map hc => exact ⟨rfl, hc⟩
    | function hc => exact ⟨congrArg Value.function hc.1, hc.2⟩
    | builtin hb => exact ⟨congrArg Value.builtin hb.1, hb.2⟩
    | _ => exact ⟨rfl, trivial⟩
  · rintro ⟨rfl, hv⟩
    cases v with
    | list => exact .list hv
    | map => exact .map hv
    | function => exact .function ⟨rfl, hv⟩
    | builtin => exact .builtin ⟨rfl, hv⟩
    | _ => constructor

lemma alike_eq : d.simulation.Alike = both d.value := by
  funext w v v'
  exact propext alike_iff

lemma allAlike_iff {vs vs' : List Value} :
    d.simulation.AllAlike w vs vs' ↔ vs = vs' ∧ ∀ v ∈ vs, d.value w v := by
  rw [Simulation.allAlike_iff (e := id) (g := id) fun _ _ => alike_iff, List.map_id, List.map_id]

lemma itemsAlike_iff {items items' : Array Value} :
    d.simulation.ItemsAlike w items items' ↔ items = items' ∧ ∀ v ∈ items, d.value w v := by
  rw [Simulation.itemsAlike_iff (e := id) (g := id) fun _ _ => alike_iff, Array.map_id, Array.map_id]

lemma entriesAlike_iff {entries entries' : Table Value} :
    d.simulation.EntriesAlike w entries entries' ↔
      entries = entries' ∧ entries.All (d.value w) := by
  rw [Simulation.entriesAlike_iff (e := id) (g := id) fun _ _ => alike_iff, Table.map_id,
    Table.map_id]

variable (hd : d.Lawful)

include hd

lemma computes : d.simulation.Computes where
  refl := Store.Grows.refl
  trans := Store.Grows.trans
  frame_later := hd.frame_mono
  fresh_later := hd.frame_mono
  cell_later := hd.cell_mono
  closure_later hw hc := ⟨hc.1, hc.2.1, hd.frame_mono hw hc.2.2⟩
  node_later hw hn := ⟨hn.1, hd.frame_mono hw hn.2.1, hn.2.2⟩
  part_later hw hn := ⟨hn.1, hd.frame_mono hw hn.2.1, hn.2.2⟩
  pure := stays_pure
  bind := Stays.bind
  ordinary _ _ := trivial
  raise _ := stays_raise _
  tooDeep _ := stays_throw fun _ _ => trivial
  exhausted _ := stays_throw fun _ _ => trivial
  giveUp := False.elim

lemma stores : d.simulation.Stores where
  log := stays_log hd
  print := stays_print hd
  display _ hv := by
    obtain ⟨rfl, hgood⟩ := alike_iff.1 hv
    exact stays_display hd hgood
  scope hb hhost hf := by
    rw [alike_eq]
    exact goes_scopeOf hd hb.2 hhost hf
  child := stays_child hd
  newList hi := by
    obtain ⟨rfl, hgood⟩ := itemsAlike_iff.1 hi
    rw [alike_eq]
    exact goes_newList hd hgood
  newMap he := by
    obtain ⟨rfl, hgood⟩ := entriesAlike_iff.1 he
    rw [alike_eq]
    exact goes_newMap hd hgood
  items hc := by
    have hitems : d.simulation.ItemsAlike = both fun t items => ∀ v ∈ items, d.value t v := by
      funext w items items'
      exact propext itemsAlike_iff
    rw [hitems]
    exact stays_items hd hc
  entries hc := by
    have hentries : d.simulation.EntriesAlike = both fun t entries => entries.All (d.value t) := by
      funext w entries entries'
      exact propext entriesAlike_iff
    rw [hentries]
    exact stays_entries hd hc
  declare isFinal ascription hf hx hv := by
    obtain ⟨rfl, hgood⟩ := alike_iff.1 hv
    rw [alike_eq]
    exact goes_declare hd hf hx hgood isFinal ascription
  lookup hf hx := by
    rw [alike_eq]
    exact goes_lookup hd hf hx
  assign hf hx hv := by
    obtain ⟨rfl, hgood⟩ := alike_iff.1 hv
    rw [alike_eq]
    exact goes_assign hd hf hx hgood
  setItem index hn ha hc hv := by
    obtain ⟨rfl, hgood⟩ := alike_iff.1 hv
    exact fun s s' hw hs => .ok (s.grows_setItem _ index _)
      (hd.setItem index hn.2.2 ha hs (hd.cell_mono hw hc) (hd.value_mono hw hgood)) rfl
  setEntry key hn ha hc hv := by
    obtain ⟨rfl, hgood⟩ := alike_iff.1 hv
    exact fun s s' hw hs => .ok (s.grows_setEntry _ key _)
      (hd.setEntry key hn.2.2 ha hs (hd.cell_mono hw hc) (hd.value_mono hw hgood)) rfl

lemma lawful : d.simulation.Lawful where
  toComputes := computes hd
  toStores := stores hd
  callsLeft hc := congrArg Context.callsLeft hc.symm
  debug hc := congrArg (fun c : Context => c.policies.debug) hc.symm
  deeper _ hc := by
    cases hc
    rfl
  back hb hc := by
    cases hb.1
    cases hc
    rfl
  host hb := congrArg Builtin.host hb.1.symm
  closure hc := by
    obtain ⟨rfl, hcode, hf⟩ := hc
    exact ⟨rfl, rfl, rfl, hf, fun p hp => hd.parameters hcode hp⟩
  frame hn := hn.2.1
  parts hn := by
    obtain ⟨rfl, hf, hn⟩ := hn
    exact .refl (fun m hm => ⟨rfl, hf, hd.here hn hm⟩)
      fun m hm _ _ _ hg => ⟨rfl, hg, hd.inside hn hm⟩
  names hn hx := hd.names hn.2.2 hx
  declares hn _ := hn.2.1
  made hn hc hc' := by
    obtain ⟨rfl, hf, hn⟩ := hn
    obtain rfl := Option.mem_unique hc hc'
    refine ⟨rfl, hd.made hn hc, ?_⟩
    rwa [Node.frame_of_closure? hc]
  misuse _ _ := trivial
  endless _ _ := trivial
  returning hn _ hv := by
    obtain ⟨rfl, hgood⟩ := alike_iff.1 hv
    exact stays_throw fun t ht => hd.value_mono ht hgood

end View

structure Evaluator.Respects (inner : Evaluator) (d : View) : Prop where
  node : ∀ {w context f n}, d.frame w f → d.node n → d.Goes w (inner.node context f n)
  call : ∀ {w context g arguments caller}, d.value w g → d.values w arguments →
    (∀ f ∈ caller, d.frame w f) → d.Goes w (inner.call context g arguments caller)

namespace View

open Evaluator Simulation

variable {d : View} {inner : Evaluator} {w : Store} {context : Context} {f : FrameId}

section

variable (h : inner.Respects d) (hd : d.Lawful)

include h

lemma carries : d.simulation.Carries inner inner := by
  constructor
  · rintro w context _ f n _ rfl ⟨rfl, hf, hn⟩
    rw [alike_eq]
    exact h.node hf hn
  · rintro w context _ g g' vs vs' caller - rfl hg hvs hf
    obtain ⟨rfl, hfunction⟩ := alike_iff.1 hg
    obtain ⟨rfl, hvalues⟩ := allAlike_iff.1 hvs
    rw [alike_eq]
    exact h.call hfunction hvalues hf

include hd

lemma goes_visit (hf : d.frame w f) (bound : Nat) {n : Node} (hn : d.node n) :
    d.Goes w (visit inner bound context f n) := by
  have hbinary : d.simulation.CarriesBinary inner inner := carriesBinary (carries h) (lawful hd)
    fun hc => congrArg (fun c : Context => c.policies.shortCircuit) hc.symm
  have hvisit : d.simulation.Runs w d.simulation.Alike (visit inner bound context f n)
      (visit inner bound context f n) := by
    apply runs_visit (carries h) (lawful hd) rfl hbinary _ _ (.inl rfl) ⟨rfl, hf, hn⟩
    · rintro w f n _ ⟨rfl, -⟩
      exact stays_log hd _
    · rintro w u f n _ m m' ⟨rfl, -⟩ hm
      exact hm.located n.span
  rwa [alike_eq] at hvisit

lemma goes_perform (bound : Nat) {g : Value} (hg : d.value w g) {arguments : List Value}
    (ha : d.values w arguments) {caller : Option FrameId} (hf : ∀ f ∈ caller, d.frame w f) :
    d.Goes w (perform inner bound context g arguments caller) := by
  have hbody : d.simulation.CarriesBody inner inner := by
    apply carriesBody (carries h) (lawful hd)
    · rintro w c _ f ⟨rfl, hcode, -⟩ hf
      exact List.forall₂_same.2 fun m hm => ⟨rfl, hf, hd.body hcode hm⟩
    · rintro w context _ m m' rfl hm
      rw [alike_eq] at hm ⊢
      exact hm.callResult context.policies
  have hperform : d.simulation.Runs w d.simulation.Alike
      (perform inner bound context g arguments caller)
      (perform inner bound context g arguments caller) :=
    runs_perform (carries h) (lawful hd) rfl trivial hbody (.inl rfl) (alike_iff.2 ⟨rfl, hg⟩)
      (allAlike_iff.2 ⟨rfl, ha⟩) hf
  rwa [alike_eq] at hperform

end

lemma Goes.stopping {stop : Store → Bool} (hstop : ∀ {s s'}, d.alike s s' → stop s' = stop s)
    {m : Eval Value} (h : d.Goes w m) : d.Goes w (Eval.stopping stop m) := by
  intro s s' hw hs
  have he := h s s' hw hs
  unfold Eval.stopping
  rw [hstop hs]
  split
  · exact .error (.refl s) hs trivial
  · dsimp only
    rw [hstop he.alike]
    split
    · exact .error he.grows he.alike trivial
    · exact he

/-- A whole run stays in view if one step does, also if it is stopped on the way by a test that cannot
tell apart stores that look alike. -/
lemma respects_until (hd : d.Lawful) {stop : Store → Bool}
    (hstop : ∀ {s s'}, d.alike s s' → stop s' = stop s) (bound : Nat) :
    Evaluator.Respects ⟨evaluateUntil stop bound, callUntil stop bound⟩ d := by
  -- Nodes and calls go together: each spends a step and leaves the rest to the others.
  induction bound with
  | zero =>
    constructor
    · intro w context f n _ _
      exact stays_throw fun _ _ => trivial
    · intro w context g arguments caller _ _ _
      exact stays_throw fun _ _ => trivial
  | succ bound ih =>
    constructor
    · intro w context f n hf hn
      exact (goes_visit ih hd hf bound hn).stopping hstop
    · intro w context g arguments caller hg ha hf
      exact (goes_perform ih hd bound hg ha hf).stopping hstop

lemma respects_within (hd : d.Lawful) (bound : Nat) :
    Evaluator.Respects ⟨evaluateWithin bound, callWithin bound⟩ d := by
  rw [← (until_never bound).1, ← (until_never bound).2]
  exact respects_until hd (fun _ => rfl) bound

lemma goes_runProgram (hd : d.Lawful) (policies : Policies) (hf : d.frame w f) {program : Node}
    (hn : d.node program) : d.Goes w (runProgram policies f program) := by
  intro s s' hw hs
  have he : d.Ends s (both d.value) (evaluate policies f program s)
      (evaluate policies f program s') :=
    (respects_within hd stepBound).node hf hn s s' hw hs
  unfold runProgram
  generalize evaluate policies f program s = r at he
  generalize evaluate policies f program s' = r' at he
  cases he with
  | ok ht ha hv => exact .ok ht ha hv
  | @error e t t' ht ha hi =>
    cases e with
    | returning v =>
      dsimp only
      split
      · exact .ok ht ha ⟨rfl, hi⟩
      · exact .error ht ha trivial
    | _ => exact .error ht ha trivial

end View

lemma holds_installBuiltins {p : Value → Prop} (policies : Policies) (frame : FrameId)
    {builtins : List (String × HostFunction)}
    (hp : ∀ e ∈ builtins, p (.builtin ⟨e.1, e.2, policies⟩)) {s : Store} (hs : s.Holds p) :
    (finalStore (installBuiltins policies frame builtins s)).Holds p := by
  induction builtins generalizing s with
  | nil => exact hs
  | cons entry rest ih =>
    obtain ⟨name, host⟩ := entry
    rw [List.forall_mem_cons] at hp
    have hdeclare := Eval.declare_apply frame name (.builtin ⟨name, host, policies⟩) true none s
    split at hdeclare
    · have hstop : installBuiltins policies frame ((name, host) :: rest) s = .error _ s :=
        Eval.bind_error hdeclare
      rw [hstop]
      exact hs
    · have hstep : installBuiltins policies frame ((name, host) :: rest) s =
          installBuiltins policies frame rest _ := Eval.bind_ok hdeclare
      rw [hstep]
      exact ih hp.2 (hs.setBinding hp.1 frame name)

lemma holds_newGlobal {p : Value → Prop} (policies : Policies) (extra : List (String × HostFunction))
    (hp : ∀ e ∈ standardBuiltins ++ (Table.ofList extra).entries, p (.builtin ⟨e.1, e.2, policies⟩)) :
    (finalStore (newGlobal policies extra {})).Holds p := by
  let root := ({} : Store).pushFrame none
  let install := installBuiltins policies rootFrame (standardBuiltins ++ (Table.ofList extra).entries)
  have hinstall : (finalStore (install root)).Holds p :=
    holds_installBuiltins policies rootFrame hp (Store.holds_empty.pushFrame none)
  have hroot : Eval.newRoot {} = .ok rootFrame root := rfl
  have hnew : newGlobal policies extra {} = (do install; return rootFrame : Eval FrameId) root :=
    Eval.bind_ok hroot
  rw [hnew]
  cases hr : install root with
  | ok _ t =>
    rw [Eval.bind_ok hr]
    rwa [hr] at hinstall
  | error _ t =>
    rw [Eval.bind_error hr]
    rwa [hr] at hinstall

end Klang
