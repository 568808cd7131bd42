import Klang.Proofs.EvalSteps
import Klang.Proofs.StoreInvariants

/-! Frames inside each other. A write through one frame is seen from exactly those frames that reach
the written one before any other frame with the same name; a write that fails changes nothing. -/

namespace Klang

open Eval

namespace Store

/-- Frames that grew out of one root by new frames inside older ones, declarations and assignments,
whether these succeeded or not. -/
inductive IsForest : Store → Prop
  | root {s : Store} : s.frames = #[] → IsForest (finalStore (newRoot s))
  | child {s : Store} {f : FrameId} : IsForest s → f < s.frames.size →
      IsForest (finalStore (child f s))
  | declare {s : Store} {f : FrameId} (x : String) (v : Value) (isFinal : Bool)
      (ascription : Option String) : IsForest s → f < s.frames.size →
      IsForest (finalStore (declare f x v isFinal ascription s))
  | assign {s : Store} {f : FrameId} (x : String) (v : Value) : IsForest s → f < s.frames.size →
      IsForest (finalStore (assign f x v s))

/-- Going outwards from a frame one comes to another one, and no frame before that binds the name. -/
inductive Sees (s : Store) (x : String) : FrameId → FrameId → Prop
  | here (f : FrameId) : Sees s x f f
  | outwards {g parent f : FrameId} : (s.bindings g).contains x = false →
      s.parent? g = some parent → Sees s x parent f → Sees s x g f

def Owner (s : Store) (x : String) (g owner : FrameId) : Prop :=
  s.Sees x g owner ∧ (s.bindings owner).contains x = true

/-- A name has the same value in a frame of both stores, or is undefined there in both. -/
def ShowsAlike (s t : Store) (g : FrameId) (y : String) : Prop :=
  (Outcome.of (lookup g y t)).1 = (Outcome.of (lookup g y s)).1

variable {s t : Store} {f g owner : FrameId} {x y : String}

lemma parent?_pushFrame (s : Store) (parent : Option FrameId) (g : FrameId) :
    (s.pushFrame parent).parent? g = if g = s.frames.size then parent else s.parent? g := by
  simp only [parent?, pushFrame, Array.getElem?_push]
  split <;> rfl

def Nested (s : Store) : Prop := ∀ g parent, s.parent? g = some parent → parent < g

lemma Nested.setBinding (hs : s.Nested) (f : FrameId) (x : String) (b : Binding) :
    (s.setBinding f x b).Nested := by
  intro g parent hg
  rw [parent?_setBinding] at hg
  exact hs g parent hg

lemma IsForest.nested (hs : s.IsForest) : s.Nested := by
  induction hs with
  | @root s hs =>
    intro g parent hg
    have hnone : s.parent? g = none := by simp [parent?, hs]
    change (s.pushFrame none).parent? g = some parent at hg
    rw [parent?_pushFrame, hnone, ite_self] at hg
    cases hg
  | @child s f _ hf ih =>
    intro g parent hg
    change (s.pushFrame (some f)).parent? g = some parent at hg
    rw [parent?_pushFrame] at hg
    split at hg
    · rename_i hsize
      obtain rfl := Option.some.inj hg
      exact hsize ▸ hf
    · exact ih g parent hg
  | declare x v isFinal ascription _ _ ih =>
    rw [declare_apply]
    split
    · exact ih
    · split
      · exact ih
      · exact ih.setBinding _ _ _
  | assign x v _ _ ih =>
    rw [assign_apply]
    split
    · exact ih
    · split
      · exact ih
      · split
        · exact ih
        · split
          · exact ih
          · exact ih.setBinding _ _ _

lemma sees_iff : s.Sees x g f ↔ g = f ∨
    (s.bindings g).contains x = false ∧ ∃ parent, s.parent? g = some parent ∧ s.Sees x parent f := by
  constructor
  · rintro (_ | ⟨hx, hparent, hsees⟩)
    · exact .inl rfl
    · exact .inr ⟨hx, _, hparent, hsees⟩
  · rintro (rfl | ⟨hx, parent, hparent, hsees⟩)
    · exact .here g
    · exact .outwards hx hparent hsees

lemma owner?_of_contains (h : (s.bindings g).contains x = true) : s.owner? x g = some g := by
  rw [owner?, if_pos h]

lemma Nested.owner?_of_not_contains (hs : s.Nested) (h : (s.bindings g).contains x = false) :
    s.owner? x g = (s.parent? g).bind (s.owner? x) := by
  rw [owner?, if_neg (by simp [h])]
  cases hparent : s.parent? g with
  | none => rfl
  | some parent => simp [hs g parent hparent]

lemma Nested.owner?_eq_some (hs : s.Nested) : s.owner? x g = some owner ↔ s.Owner x g owner := by
  induction g using Nat.strongRecOn with
  | ind g ih =>
    rw [Owner, sees_iff]
    cases hx : (s.bindings g).contains x with
    | true =>
      rw [owner?_of_contains hx, Option.some_inj]
      constructor
      · rintro rfl
        exact ⟨.inl rfl, hx⟩
      · rintro ⟨rfl | ⟨hfalse, -⟩, -⟩
        · rfl
        · cases hfalse
    | false =>
      rw [hs.owner?_of_not_contains hx, Option.bind_eq_some_iff]
      constructor
      · rintro ⟨parent, hparent, ho⟩
        obtain ⟨hsees, hbinds⟩ := (ih parent (hs g parent hparent)).1 ho
        exact ⟨.inr ⟨rfl, parent, hparent, hsees⟩, hbinds⟩
      · rintro ⟨rfl | ⟨-, parent, hparent, hsees⟩, hbinds⟩
        · rw [hx] at hbinds
          cases hbinds
        · exact ⟨parent, hparent, (ih parent (hs g parent hparent)).2 ⟨hsees, hbinds⟩⟩

lemma contains_setBinding (s : Store) (f g : FrameId) (x y : String) (b : Binding) :
    ((s.setBinding f x b).bindings g).contains y =
      (decide ((g = f ∧ f < s.frames.size) ∧ y = x) || (s.bindings g).contains y) := by
  rw [Table.contains, find?_setBinding]
  split
  · rename_i h
    simp [h]
  · rename_i h
    rw [decide_eq_false h, Bool.false_or]
    rfl

lemma lt_size_of_contains (h : (s.bindings g).contains x = true) : g < s.frames.size := by
  apply Nat.lt_of_not_le
  intro hle
  rw [bindings, Array.getElem?_eq_none hle] at h
  cases h

lemma owner?_congr (hparent : ∀ g, t.parent? g = s.parent? g)
    (h : ∀ g, (t.bindings g).contains y = (s.bindings g).contains y) (g : FrameId) :
    t.owner? y g = s.owner? y g := by
  induction g using Nat.strongRecOn with
  | ind g ih =>
    rw [owner?, owner?, h, hparent]
    cases s.parent? g with
    | none => rfl
    | some parent =>
      by_cases hlt : parent < g
      · simp only [hlt, if_true, ih parent hlt]
      · simp only [hlt, if_false]

lemma owner?_setBinding_of_contains (h : (s.bindings f).contains x = true) (b : Binding)
    (y : String) (g : FrameId) : (s.setBinding f x b).owner? y g = s.owner? y g := by
  refine owner?_congr (fun g => parent?_setBinding s f g x b) (fun g => ?_) g
  rw [contains_setBinding]
  by_cases hw : (g = f ∧ f < s.frames.size) ∧ y = x
  · obtain ⟨⟨rfl, _⟩, rfl⟩ := hw
    rw [h, Bool.or_true]
  · rw [decide_eq_false hw, Bool.false_or]

lemma owner?_setBinding_of_ne (f : FrameId) (b : Binding) (hy : y ≠ x) (g : FrameId) :
    (s.setBinding f x b).owner? y g = s.owner? y g := by
  refine owner?_congr (fun g => parent?_setBinding s f g x b) (fun g => ?_) g
  rw [contains_setBinding, decide_eq_false fun hw => hy hw.2, Bool.false_or]

lemma Nested.owner?_setBinding_of_sees (hs : s.Nested) (hf : f < s.frames.size) (b : Binding)
    (hsees : s.Sees x g f) : (s.setBinding f x b).owner? x g = some f := by
  have hself : ((s.setBinding f x b).bindings f).contains x = true := by
    rw [contains_setBinding, decide_eq_true ⟨⟨rfl, hf⟩, rfl⟩, Bool.true_or]
  induction hsees with
  | here => exact owner?_of_contains hself
  | @outwards g parent f hx hparent _ ih =>
    by_cases hg : g = f
    · subst hg
      exact owner?_of_contains hself
    · have hx' : ((s.setBinding f x b).bindings g).contains x = false := by
        rw [contains_setBinding, decide_eq_false fun hw => hg hw.1.1, hx, Bool.false_or]
      rw [(hs.setBinding f x b).owner?_of_not_contains hx', parent?_setBinding, hparent]
      exact ih hf hself

lemma Nested.owner?_setBinding_of_not_sees (hs : s.Nested) (b : Binding) (h : ¬ s.Sees x g f) :
    (s.setBinding f x b).owner? x g = s.owner? x g := by
  induction g using Nat.strongRecOn with
  | ind g ih =>
    have hg : g ≠ f := by
      rintro rfl
      exact h (.here g)
    have hx' : ((s.setBinding f x b).bindings g).contains x = (s.bindings g).contains x := by
      rw [contains_setBinding, decide_eq_false fun hw => hg hw.1.1, Bool.false_or]
    cases hx : (s.bindings g).contains x with
    | true => rw [owner?_of_contains hx, owner?_of_contains (hx'.trans hx)]
    | false =>
      rw [hs.owner?_of_not_contains hx, (hs.setBinding f x b).owner?_of_not_contains (hx'.trans hx),
        parent?_setBinding]
      cases hparent : s.parent? g with
      | none => rfl
      | some parent => exact ih parent (hs g parent hparent) fun hp => h (.outwards hx hparent hp)

lemma lookup_of_binding? {b : Binding} (h : s.binding? g y = some b) : lookup g y s = .ok b.value s := by
  simp only [lookup, get_bind, h, Eval.pure_apply]

lemma showsAlike_of_binding?_eq (h : t.binding? g y = s.binding? g y) : s.ShowsAlike t g y := by
  simp only [ShowsAlike, lookup, get_bind, h]
  cases s.binding? g y <;> rfl

lemma showsAlike_setBinding {b : Binding}
    (ho : (s.setBinding f x b).owner? y g = s.owner? y g) (h : y = x → s.owner? y g ≠ some f) :
    s.ShowsAlike (s.setBinding f x b) g y := by
  apply showsAlike_of_binding?_eq
  rw [binding?, binding?, ho]
  cases howner : s.owner? y g with
  | none => rfl
  | some owner =>
    rw [Option.bind_some, Option.bind_some, find?_setBinding, if_neg]
    rintro ⟨⟨rfl, -⟩, hy⟩
    exact h hy howner

lemma lookup_setBinding_of_owner? {b : Binding} (hf : f < s.frames.size)
    (ho : (s.setBinding f x b).owner? x g = some f) :
    lookup g x (s.setBinding f x b) = .ok b.value (s.setBinding f x b) := by
  apply lookup_of_binding?
  rw [binding?, ho, Option.bind_some, find?_setBinding, if_pos ⟨⟨rfl, hf⟩, rfl⟩]

end Store

def Interrupt.IsScopeError : Interrupt → Prop
  | .fault cause _ => cause.category ∈
      [.redeclaredVariable, .undefinedVariable, .constReassignment, .typeMismatch]
  | _ => False

lemma isScopeError_of_bindingFault? {v : Value} {ascription : Option String} {fault : Fault}
    (h : bindingFault? v ascription = some fault) (span : Option Source.Span) :
    (Interrupt.fault fault span).IsScopeError := by
  unfold bindingFault? ascriptionFault? resolveAscription at h
  split at h
  · cases h
  · cases h
  · split at h
    · rename_i hr
      split at hr
      · cases hr
      · cases hr
        cases h
        simp [Interrupt.IsScopeError, Fault.category]
    · split at h
      · cases h
      · cases h
        simp [Interrupt.IsScopeError, Fault.category]

namespace Eval

variable {s t : Store} {f : FrameId} {x : String} {v result : Value} {isFinal : Bool}
  {ascription : Option String} {interrupt : Interrupt}

lemma declare_eq_ok (h : declare f x v isFinal ascription s = .ok result t) :
    result = v ∧ (s.bindings f).contains x = false ∧
      t = s.setBinding f x ⟨v, isFinal, ascription⟩ := by
  rw [declare_apply] at h
  split at h
  · cases h
  · rename_i hx
    split at h
    · cases h
    · cases h
      exact ⟨rfl, Bool.eq_false_iff.2 hx, rfl⟩

lemma declare_eq_error (h : declare f x v isFinal ascription s = .error interrupt t) :
    t = s ∧ interrupt.IsScopeError := by
  rw [declare_apply] at h
  split at h
  · cases h
    exact ⟨rfl, by simp [Interrupt.IsScopeError, Fault.category]⟩
  · split at h
    · rename_i hfault
      cases h
      exact ⟨rfl, isScopeError_of_bindingFault? hfault none⟩
    · cases h

lemma assign_eq_ok (h : assign f x v s = .ok result t) : ∃ owner b, result = v ∧
    s.owner? x f = some owner ∧ (s.bindings owner).find? x = some b ∧
      t = s.setBinding owner x { b with value := v } := by
  rw [assign_apply] at h
  split at h
  · cases h
  · rename_i owner ho
    split at h
    · cases h
    · rename_i b hb
      split at h
      · cases h
      · split at h
        · cases h
        · cases h
          exact ⟨owner, b, rfl, ho, hb, rfl⟩

lemma assign_eq_error (h : assign f x v s = .error interrupt t) : t = s ∧ interrupt.IsScopeError := by
  rw [assign_apply] at h
  split at h
  · cases h
    exact ⟨rfl, by simp [Interrupt.IsScopeError, Fault.category]⟩
  · split at h
    · cases h
      exact ⟨rfl, by simp [Interrupt.IsScopeError, Fault.category]⟩
    · split at h
      · cases h
        exact ⟨rfl, by simp [Interrupt.IsScopeError, Fault.category]⟩
      · split at h
        · rename_i hfault
          cases h
          exact ⟨rfl, isScopeError_of_bindingFault? hfault none⟩
        · cases h

end Eval

/-- An assignment is seen from all frames with the same owner of the name, a declaration from all
frames that see the declaring one, and neither from anywhere else; an error leaves the store as it
was. -/
theorem scope_laws {s : Store} (hs : s.IsForest) {f : FrameId} (hf : f < s.frames.size) (x : String)
    (v : Value) (isFinal : Bool) (ascription : Option String) :
    (∀ result t, assign f x v s = .ok result t → ∃ owner, s.Owner x f owner ∧ ∀ g y,
      (y = x ∧ s.Owner x g owner → lookup g y t = .ok v t) ∧
        (¬(y = x ∧ s.Owner x g owner) → s.ShowsAlike t g y)) ∧
    (∀ result t, declare f x v isFinal ascription s = .ok result t → ∀ g y,
      (y = x ∧ s.Sees x g f → lookup g y t = .ok v t) ∧
        (¬(y = x ∧ s.Sees x g f) → s.ShowsAlike t g y)) ∧
    (∀ interrupt t, assign f x v s = .error interrupt t → t = s ∧ interrupt.IsScopeError) ∧
    (∀ interrupt t, declare f x v isFinal ascription s = .error interrupt t →
      t = s ∧ interrupt.IsScopeError) := by
  have hnested := hs.nested
  refine ⟨?_, ?_, fun _ _ => assign_eq_error, fun _ _ => declare_eq_error⟩
  · intro result t h
    obtain ⟨owner, b, -, ho, hb, rfl⟩ := assign_eq_ok h
    have hbinds : (s.bindings owner).contains x = true := by rw [Table.contains, hb, Option.isSome_some]
    refine ⟨owner, hnested.owner?_eq_some.1 ho, fun g y => ⟨?_, fun hother => ?_⟩⟩
    · rintro ⟨rfl, hg⟩
      refine Store.lookup_setBinding_of_owner? (Store.lt_size_of_contains hbinds) ?_
      rw [Store.owner?_setBinding_of_contains hbinds, hnested.owner?_eq_some.2 hg]
    · refine Store.showsAlike_setBinding (Store.owner?_setBinding_of_contains hbinds _ y g) ?_
      rintro rfl hg
      exact hother ⟨rfl, hnested.owner?_eq_some.1 hg⟩
  · intro result t h g y
    obtain ⟨-, hfree, rfl⟩ := declare_eq_ok h
    refine ⟨?_, fun hother => ?_⟩
    · rintro ⟨rfl, hsees⟩
      exact Store.lookup_setBinding_of_owner? hf (hnested.owner?_setBinding_of_sees hf _ hsees)
    · refine Store.showsAlike_setBinding ?_ ?_
      · by_cases hy : y = x
        · subst hy
          exact hnested.owner?_setBinding_of_not_sees _ fun hsees => hother ⟨rfl, hsees⟩
        · exact Store.owner?_setBinding_of_ne f _ hy g
      · rintro rfl ho
        rw [(hnested.owner?_eq_some.1 ho).2] at hfree
        cases hfree

theorem scope_laws_shadowed :
    let root := finalStore (declare 0 "x" (.string "a") false none (finalStore (newRoot {})))
    let frames := finalStore (child 0 (finalStore (child 0 root)))
    let s := finalStore (declare 2 "x" (.string "b") true (some "str") frames)
    s.IsForest ∧ 1 < s.frames.size ∧ ∃ t, assign 1 "x" (.string "c") s = .ok (.string "c") t ∧
      lookup 0 "x" t = .ok (.string "c") t ∧ lookup 1 "x" t = .ok (.string "c") t ∧
        s.ShowsAlike t 2 "x" := by
  intro root frames s
  have hs : s.IsForest := by
    refine .declare _ _ _ _ (.child (.child (.declare _ _ _ _ (.root rfl) ?_) ?_) ?_) ?_ <;> decide
  have hsize : 1 < s.frames.size := by decide
  have hroot : s.Owner "x" 0 0 := ⟨.here 0, rfl⟩
  have hinner : s.Owner "x" 1 0 := ⟨.outwards rfl rfl (.here 0), rfl⟩
  have hself : s.owner? "x" 2 = some 2 := Store.owner?_of_contains rfl
  have hassign : assign 1 "x" (.string "c") s =
      .ok (.string "c") (s.setBinding 0 "x" ⟨.string "c", false, none⟩) := by
    rw [assign_apply, hs.nested.owner?_eq_some.2 hinner]
    rfl
  obtain ⟨hlaw, -⟩ := scope_laws hs hsize "x" (.string "c") false none
  obtain ⟨owner, howner, hseen⟩ := hlaw _ _ hassign
  obtain rfl : 0 = owner := Option.some.inj
    ((hs.nested.owner?_eq_some.2 hinner).symm.trans (hs.nested.owner?_eq_some.2 howner))
  refine ⟨hs, hsize, _, hassign, (hseen 0 "x").1 ⟨rfl, hroot⟩, (hseen 1 "x").1 ⟨rfl, hinner⟩, ?_⟩
  refine (hseen 2 "x").2 fun hother => ?_
  rw [← hs.nested.owner?_eq_some, hself] at hother
  cases hother.2

end Klang
