import Klang.Proofs.Interruption.Evaluator

/-! The bindings of a session: from any moment of it to any later one they stay, and those that are
final or ascribed stay what they were declared to be. -/

namespace Klang

open Eval

def runProgramUntil (stop : Store → Bool) (policies : Policies) (frame : FrameId) (program : Node) :
    Eval Value := fun store =>
  match evaluateUntil stop stepBound (.ofPolicies policies) frame program store with
  | .error (.returning value) store =>
    if policies.topLevelReturn then .ok value store else .error (.fault .strayReturn none) store
  | result => result

/-- Runs programs one after the other in the outermost frame; a run that gives up ends the
session. -/
def sessionUntil (stop : Store → Bool) : List (Policies × Node) → Store → Store
  | [], store => store
  | (policies, program) :: rest, store =>
    match runProgramUntil stop policies rootFrame program store with
    | .error .exhausted store => store
    | result => sessionUntil stop rest (finalStore result)

lemma runProgramUntil_never : runProgramUntil (fun _ => false) = runProgram := by
  funext policies frame program store
  rw [runProgramUntil, runProgram, (until_never stepBound).1]
  rfl

lemma finalStore_runProgramUntil (stop : Store → Bool) (policies : Policies) (frame : FrameId)
    (program : Node) (s : Store) :
    finalStore (runProgramUntil stop policies frame program s) =
      finalStore (evaluateUntil stop stepBound (.ofPolicies policies) frame program s) := by
  unfold runProgramUntil
  split
  · split <;> simp_all
  · rfl

lemma cuts_runProgramUntil {earlier later : Store → Bool}
    (hstop : ∀ s, later s = true → earlier s = true) (policies : Policies) (frame : FrameId)
    (program : Node) :
    Cuts (runProgramUntil earlier policies frame program)
      (runProgramUntil later policies frame program) := by
  have h : Cuts (evaluateUntil earlier stepBound (.ofPolicies policies) frame program)
      (evaluateUntil later stepBound (.ofPolicies policies) frame program) :=
    (cuts_until hstop (Nat.le_refl stepBound)).node (.ofPolicies policies) frame program
  intro s
  rw [finalStore_runProgramUntil]
  rcases h s with ⟨he, hp⟩ | ⟨u, he, hu⟩
  · exact .inl ⟨by simp only [runProgramUntil, he], hp⟩
  · exact .inr ⟨u, by simp only [runProgramUntil, he], hu⟩

lemma path_sessionUntil (stop : Store → Bool) (programs : List (Policies × Node)) (s : Store) :
    s.Path (sessionUntil stop programs s) := by
  induction programs generalizing s with
  | nil => exact .refl
  | cons step rest ih =>
    have h : s.Path (finalStore (runProgramUntil stop step.1 rootFrame step.2 s)) :=
      (cuts_runProgramUntil (fun _ => id) step.1 rootFrame step.2).path s
    unfold sessionUntil
    split
    · rename_i he
      rw [he] at h
      exact h
    · exact h.trans (ih _)

lemma path_between {earlier later : Store → Bool} (hstop : ∀ s, later s = true → earlier s = true)
    (programs : List (Policies × Node)) (s : Store) :
    (sessionUntil earlier programs s).Path (sessionUntil later programs s) := by
  induction programs generalizing s with
  | nil => exact .refl
  | cons step rest ih =>
    have hlater (r : EStateM.Result Interrupt Store Value)
        (hr : runProgramUntil later step.1 rootFrame step.2 s = r) :
        (finalStore r).Path (sessionUntil later (step :: rest) s) := by
      unfold sessionUntil
      rw [hr]
      split
      · exact .refl
      · exact path_sessionUntil later rest _
    rcases cuts_runProgramUntil hstop step.1 rootFrame step.2 s with ⟨he, _⟩ | ⟨u, he, _, hp⟩
    · unfold sessionUntil
      rw [he]
      split
      · exact .refl
      · exact ih _
    · have hu : sessionUntil earlier (step :: rest) s = u := by
        unfold sessionUntil
        rw [he]
      rw [hu]
      exact hp.trans (hlater _ rfl)

def Store.HasBuiltins (s : Store) (policies : Policies) (builtins : List (String × HostFunction)) :
    Prop :=
  ∀ name host, (name, host) ∈ builtins →
    (s.bindings rootFrame).find? name = some ⟨.builtin ⟨name, host, policies⟩, true, none⟩

lemma Store.Keeps.find?_final {s t : Store} (h : s.Keeps t) {frame : FrameId} {name : String}
    {b : Binding} (hb : (s.bindings frame).find? name = some b) (hf : b.isFinal = true) :
    (t.bindings frame).find? name = some b := by
  obtain ⟨b', hb', hfinal, hasc, hvalue⟩ := h frame name b hb
  rw [hb']
  cases b
  cases b'
  simp_all

lemma Store.HasBuiltins.keeps {s t : Store} {policies : Policies}
    {builtins : List (String × HostFunction)} (hs : s.HasBuiltins policies builtins)
    (h : s.Keeps t) : t.HasBuiltins policies builtins :=
  fun name host hm => h.find?_final (hs name host hm) rfl

lemma cuts_installBuiltins (policies : Policies) (frame : FrameId)
    (builtins : List (String × HostFunction)) :
    Cuts (installBuiltins policies frame builtins) (installBuiltins policies frame builtins) := by
  induction builtins with
  | nil => exact cuts_pure ()
  | cons entry rest ih => exact (cuts_declare _ _ _ _ _).bind fun _ => ih

lemma declare_builtin (frame : FrameId) (name : String) (builtin : Builtin) (s : Store) :
    declare frame name (.builtin builtin) true none s =
      if (s.bindings frame).contains name then .error (.fault (.redeclared name) none) s
      else .ok (.builtin builtin) (s.setBinding frame name ⟨.builtin builtin, true, none⟩) :=
  declare_apply frame name (.builtin builtin) true none s

lemma installBuiltins_cases (policies : Policies) {frame : FrameId}
    (builtins : List (String × HostFunction)) {s : Store} (hf : frame < s.frames.size) :
    (∃ fault t, installBuiltins policies frame builtins s = .error (.fault fault none) t) ∨
      ∃ t, installBuiltins policies frame builtins s = .ok () t ∧
        ∀ name host, (name, host) ∈ builtins →
          (t.bindings frame).find? name = some ⟨.builtin ⟨name, host, policies⟩, true, none⟩ := by
  induction builtins generalizing s with
  | nil => exact .inr ⟨s, rfl, by simp⟩
  | cons entry rest ih =>
    obtain ⟨name, host⟩ := entry
    have hd := declare_builtin frame name ⟨name, host, policies⟩ s
    split at hd
    · exact .inl ⟨_, s, bind_error hd⟩
    · have hsize : frame < (s.setBinding frame name
          ⟨.builtin ⟨name, host, policies⟩, true, none⟩).frames.size := by
        simpa [Store.setBinding] using hf
      have hstep : installBuiltins policies frame ((name, host) :: rest) s =
          installBuiltins policies frame rest _ := bind_ok hd
      rw [hstep]
      rcases ih hsize with herr | ⟨t, ht, hbound⟩
      · exact .inl herr
      · refine .inr ⟨t, ht, ?_⟩
        intro name' host' hm
        rcases List.mem_cons.1 hm with he | hm
        · obtain ⟨rfl, rfl⟩ := Prod.mk.inj he
          have hk := (cuts_installBuiltins policies frame rest).path
            (s.setBinding frame name' ⟨.builtin ⟨name', host', policies⟩, true, none⟩)
          rw [ht] at hk
          exact hk.keeps.find?_final (by simp [Store.find?_setBinding, hf]) rfl
        · exact hbound name' host' hm

lemma newRoot_installBuiltins_cases (policies : Policies) (builtins : List (String × HostFunction)) :
    (∃ fault t, (newRoot >>= fun frame => do
      installBuiltins policies frame builtins
      return frame : Eval FrameId) {} = .error (.fault fault none) t) ∨
    ∃ t, (newRoot >>= fun frame => do
      installBuiltins policies frame builtins
      return frame : Eval FrameId) {} = .ok rootFrame t ∧ ({} : Store).Path t ∧
        t.HasBuiltins policies builtins := by
  have hroot : newRoot {} = .ok rootFrame (({} : Store).pushFrame none) := rfl
  have hsize : rootFrame < (({} : Store).pushFrame none).frames.size := by decide
  rw [bind_ok hroot]
  rcases installBuiltins_cases policies builtins hsize with ⟨fault, t, ht⟩ | ⟨t, ht, hb⟩
  · exact .inl ⟨fault, t, bind_error ht⟩
  · refine .inr ⟨t, bind_ok ht, ?_, hb⟩
    have hp := (cuts_installBuiltins policies rootFrame builtins).path (({} : Store).pushFrame none)
    rw [ht] at hp
    exact .head (.frame _ _) hp

lemma globalStore_spec {policies : Policies} {extra : List (String × HostFunction)} {start : Store}
    (h : globalStore policies extra = .ok start) :
    ({} : Store).Path start ∧
      start.HasBuiltins policies (standardBuiltins ++ (Table.ofList extra).entries) := by
  unfold globalStore newGlobal at h
  rcases newRoot_installBuiltins_cases policies (standardBuiltins ++ (Table.ofList extra).entries)
    with ⟨fault, t, ht⟩ | ⟨t, ht, hp⟩
  · rw [ht] at h
    cases h
  · rw [ht] at h
    cases h
    exact hp

lemma wellTyped_empty : ({} : Store).WellTyped := by
  intro frame name b hb
  simp [Store.bindings, Table.find?, Table.empty] at hb

/-- Two moments of a session are given by two tests of which the earlier one stops first; a session
that is never stopped is a plain one. The stores at both moments, and everything between them, lie on
a path of single writes, and along such a path from the start of the session the bindings of all
frames are kept. -/
theorem session_keeps_bindings (policies : Policies) (extra : List (String × HostFunction))
    {start : Store} (hstart : globalStore policies extra = .ok start)
    (programs : List (Policies × Node)) {earlier later : Store → Bool}
    (hstop : ∀ s, later s = true → earlier s = true) :
    let s := sessionUntil earlier programs start
    let t := sessionUntil later programs start
    runProgramUntil (fun _ => false) = runProgram ∧ (start.Path s ∧ s.Path t) ∧
      ∀ u v : Store, start.Path u → u.Path v → u.Keeps v ∧ v.WellTyped ∧
        v.HasBuiltins policies (standardBuiltins ++ (Table.ofList extra).entries) := by
  obtain ⟨hempty, hbuiltins⟩ := globalStore_spec hstart
  refine ⟨runProgramUntil_never, ⟨path_sessionUntil earlier programs start,
    path_between hstop programs start⟩, ?_⟩
  intro u v hu hv
  have hstartv : start.Path v := hu.trans hv
  have hemptyv : ({} : Store).Path v := hempty.trans hstartv
  exact ⟨hv.keeps, hemptyv.wellTyped wellTyped_empty, hbuiltins.keeps hstartv.keeps⟩

theorem session_keeps_bindings_reassigned :
    let programs : List (Policies × Node) :=
      [({}, .program none [.declaration none "x" (.boolean none true) true (some "bool")]),
        ({}, .program none [.expressionStatement none
          (.assignment none (.identifier none "x") (.boolean none false))])]
    let s := sessionUntil (fun s => (s.bindings rootFrame).contains "x") programs (standardStore {})
    let t := sessionUntil (fun _ => false) programs (standardStore {})
    globalStore {} [] = .ok (standardStore {}) ∧ s.Keeps t ∧ t.WellTyped := by
  intro programs s t
  have hstart : globalStore {} [] = .ok (standardStore {}) := rfl
  have hstop (s : Store) (h : (fun _ => false) s = true) :
      (s.bindings rootFrame).contains "x" = true := by cases h
  obtain ⟨-, ⟨hs, ht⟩, hall⟩ := session_keeps_bindings {} [] hstart programs hstop
  obtain ⟨hk, hw, _⟩ := hall s t hs ht
  exact ⟨hstart, hk, hw⟩

end Klang
