import Klang.Proofs.EvalSteps
import Klang.Proofs.StoreWrites

/-! Computations that may be stopped on the way, and the single writes that lead from the store in
which one is left to the store in which it would have ended. -/

namespace Klang

namespace Eval

variable {α β : Type}

/-- The computation `m` is `m'`, or `m'` stopped on the way. -/
def Cuts (m m' : Eval α) : Prop :=
  ∀ s : Store, (m s = m' s ∧ s.Path (finalStore (m' s))) ∨
    ∃ u : Store, m s = .error .exhausted u ∧ s.Path u ∧ u.Path (finalStore (m' s))

lemma Cuts.path {m m' : Eval α} (h : Cuts m m') (s : Store) : s.Path (finalStore (m' s)) := by
  rcases h s with ⟨_, hp⟩ | ⟨u, _, hu, hp⟩
  · exact hp
  · exact hu.trans hp

lemma cuts_of_path {m : Eval α} (h : ∀ s : Store, s.Path (finalStore (m s))) : Cuts m m :=
  fun s => .inl ⟨rfl, h s⟩

lemma cuts_of_finalStore_eq {m : Eval α} (h : ∀ s, finalStore (m s) = s) : Cuts m m :=
  cuts_of_path fun s => by rw [h]

lemma cuts_pure (a : α) : Cuts (pure a) (pure a) := cuts_of_finalStore_eq fun _ => rfl

lemma cuts_throw (e : Interrupt) : Cuts (throw e : Eval α) (throw e) :=
  cuts_of_finalStore_eq fun _ => rfl

lemma cuts_get : Cuts (get : Eval Store) get := cuts_of_finalStore_eq fun _ => rfl

lemma cuts_modify {f : Store → Store} (h : ∀ s : Store, s.Write (f s)) :
    Cuts (modify f : Eval PUnit) (modify f) :=
  cuts_of_path fun s => .single (h s)

lemma cuts_exhausted {m : Eval α} (h : Cuts m m) : Cuts (throw .exhausted) m :=
  fun s => .inr ⟨s, rfl, .refl, h.path s⟩

lemma Cuts.bind {m m' : Eval α} {k k' : α → Eval β} (h : Cuts m m')
    (hk : ∀ a, Cuts (k a) (k' a)) : Cuts (m >>= k) (m' >>= k') := by
  intro s
  rcases h s with ⟨he, hp⟩ | ⟨u, he, hu, hp⟩
  · cases hm : m' s with
    | error e t =>
      rw [bind_error (he.trans hm), bind_error hm]
      rw [hm] at hp
      exact .inl ⟨rfl, hp⟩
    | ok a t =>
      rw [bind_ok (he.trans hm), bind_ok hm]
      rw [hm] at hp
      rcases hk a t with ⟨hka, hpa⟩ | ⟨u, hka, hu, hpa⟩
      · exact .inl ⟨hka, hp.trans hpa⟩
      · exact .inr ⟨u, hka, hp.trans hu, hpa⟩
  · rw [bind_error he]
    refine .inr ⟨u, rfl, hu, ?_⟩
    cases hm : m' s with
    | error e t =>
      rw [bind_error hm]
      rw [hm] at hp
      exact hp
    | ok a t =>
      rw [bind_ok hm]
      rw [hm] at hp
      exact hp.trans ((hk a).path t)

lemma cuts_child (frame : FrameId) : Cuts (child frame) (child frame) :=
  cuts_of_path fun s => .single (.frame s _)

lemma cuts_newList (items : Array Value) : Cuts (newList items) (newList items) :=
  cuts_of_path fun s => .single (.cell s _)

lemma cuts_newMap (entries : Table Value) : Cuts (newMap entries) (newMap entries) :=
  cuts_of_path fun s => .single (.cell s _)

lemma cuts_print (text : String) : Cuts (print text) (print text) :=
  cuts_modify fun s => .print s text

lemma cuts_log (line : String) : Cuts (log line) (log line) := cuts_modify fun s => .log s line

lemma cuts_declare (frame : FrameId) (name : String) (value : Value) (isFinal : Bool)
    (ascription : Option String) :
    Cuts (declare frame name value isFinal ascription)
      (declare frame name value isFinal ascription) := by
  apply cuts_of_path
  intro s
  rw [declare_apply]
  split
  · exact .refl
  · rename_i hn
    cases hf : bindingFault? value ascription with
    | some fault => exact .refl
    | none => exact .single (.declare isFinal (by simpa [Table.contains] using hn) hf)

lemma cuts_assign (frame : FrameId) (name : String) (value : Value) :
    Cuts (assign frame name value) (assign frame name value) := by
  apply cuts_of_path
  intro s
  rw [assign_apply]
  split
  · exact .refl
  · split
    · exact .refl
    · rename_i hb
      split
      · exact .refl
      · rename_i hf
        split
        · exact .refl
        · rename_i hv
          exact .single (.assign hb (by simpa using hf) hv)

lemma Cuts.located {m m' : Eval α} (h : Cuts m m') (span : Option Source.Span) :
    Cuts (Eval.located span m) (Eval.located span m') := by
  have hstore (m : Eval α) (s : Store) :
      finalStore (Eval.located span m s) = finalStore (m s) := by
    unfold Eval.located
    split <;> simp_all
  intro s
  rw [hstore]
  rcases h s with ⟨he, hp⟩ | ⟨u, he, hu⟩
  · exact .inl ⟨by simp only [Eval.located, he], hp⟩
  · exact .inr ⟨u, by simp only [Eval.located, he], hu⟩

lemma Cuts.callResult {m m' : Eval Value} (h : Cuts m m') (policies : Policies) :
    Cuts (Evaluator.callResult policies m) (Evaluator.callResult policies m') := by
  have hstore (m : Eval Value) (s : Store) :
      finalStore (Evaluator.callResult policies m s) = finalStore (m s) := by
    unfold Evaluator.callResult
    split <;> simp_all
  intro s
  rw [hstore]
  rcases h s with ⟨he, hp⟩ | ⟨u, he, hu⟩
  · exact .inl ⟨by simp only [Evaluator.callResult, he], hp⟩
  · exact .inr ⟨u, by simp only [Evaluator.callResult, he], hu⟩

end Eval

end Klang
