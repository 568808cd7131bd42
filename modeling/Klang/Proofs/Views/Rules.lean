import Klang.Proofs.StoreInvariants
import Klang.Proofs.Simulation.Evaluator

/-! Views of a store. A run that only comes across the frames, cells, names and functions of a view
cannot tell apart two stores that look alike in it: it ends in the same way on both and leaves stores
that look alike again. -/

namespace Klang

structure Store.Grows (s t : Store) : Prop where
  frames : s.frames.size ≤ t.frames.size
  cells : s.cells.size ≤ t.cells.size

namespace Store

variable {s t u : Store}

lemma Grows.refl (s : Store) : s.Grows s := ⟨Nat.le_refl _, Nat.le_refl _⟩

lemma Grows.trans (hst : s.Grows t) (htu : t.Grows u) : s.Grows u :=
  ⟨Nat.le_trans hst.frames htu.frames, Nat.le_trans hst.cells htu.cells⟩

lemma grows_pushFrame (s : Store) (parent : Option FrameId) : s.Grows (s.pushFrame parent) :=
  ⟨by simp [pushFrame], Nat.le_refl _⟩

lemma grows_pushCell (s : Store) (cell : Cell) : s.Grows (s.pushCell cell) :=
  ⟨Nat.le_refl _, by simp [pushCell]⟩

lemma grows_setBinding (s : Store) (frame : FrameId) (name : String) (b : Binding) :
    s.Grows (s.setBinding frame name b) :=
  ⟨by simp [setBinding], Nat.le_refl _⟩

lemma grows_setItem (s : Store) (cell : CellId) (index : Nat) (v : Value) :
    s.Grows (s.setItem cell index v) :=
  ⟨Nat.le_refl _, by simp [setItem]⟩

lemma grows_setEntry (s : Store) (cell : CellId) (key : String) (v : Value) :
    s.Grows (s.setEntry cell key v) :=
  ⟨Nat.le_refl _, by simp [setEntry]⟩

end Store

/-- What a run may come across. Frames and cells may come into view while a store grows. -/
structure View where
  alike : Store → Store → Prop
  frame : Store → FrameId → Prop := fun _ _ => True
  cell : Store → CellId → Prop := fun _ _ => True
  name : String → Prop := fun _ => True
  closure : Closure → Prop := fun _ => True
  builtin : Builtin → Prop := fun _ => True
  node : Node → Prop := fun _ => True

namespace View

variable (d : View)

def value (s : Store) : Value → Prop
  | .list c | .map c => d.cell s c
  | .function c => d.closure c ∧ d.frame s c.frame
  | .builtin b => d.builtin b
  | _ => True

abbrev values (s : Store) (vs : List Value) : Prop := ∀ v ∈ vs, d.value s v

def interrupt (s : Store) : Interrupt → Prop
  | .returning v => d.value s v
  | _ => True

/-- Laws of a view: what is in view stays in view and leads to what is in view, stores that look alike
give the same answers about it, and they look alike after the same write. Lists and maps are only
written to if a node in view asks for it. -/
structure Lawful : Prop where
  frame_mono : ∀ {s t f}, s.Grows t → d.frame s f → d.frame t f
  cell_mono : ∀ {s t c}, s.Grows t → d.cell s c → d.cell t c
  sizes : ∀ {s s'}, d.alike s s' → s'.frames.size = s.frames.size ∧ s'.cells.size = s.cells.size
  parent : ∀ {s s' f}, d.alike s s' → d.frame s f →
    s'.parent? f = s.parent? f ∧ ∀ p ∈ s.parent? f, d.frame s p
  find : ∀ {s s' f x}, d.alike s s' → d.frame s f → d.name x →
    (s'.bindings f).find? x = (s.bindings f).find? x
  bound : ∀ {s s' f x b}, d.alike s s' → d.frame s f → (s.bindings f).find? x = some b →
    d.value s b.value
  items : ∀ {s s' c}, d.alike s s' → d.cell s c →
    s'.items c = s.items c ∧ ∀ v ∈ s.items c, d.value s v
  entries : ∀ {s s' c}, d.alike s s' → d.cell s c →
    s'.entries c = s.entries c ∧ (s.entries c).All (d.value s)
  scope : ∀ {s s' f b}, d.alike s s' → d.frame s f → d.builtin b → b.host = .callerScope →
    s'.describeFrame f = s.describeFrame f
  pushFrame : ∀ {s s' f}, d.alike s s' → d.frame s f →
    d.alike (s.pushFrame (some f)) (s'.pushFrame (some f)) ∧
      d.frame (s.pushFrame (some f)) s.frames.size
  pushCell : ∀ {s s' cell}, d.alike s s' → cell.All (d.value s) →
    d.alike (s.pushCell cell) (s'.pushCell cell) ∧ d.cell (s.pushCell cell) s.cells.size
  setBinding : ∀ {s s' f x b}, d.alike s s' → d.frame s f → d.name x → d.value s b.value →
    d.alike (s.setBinding f x b) (s'.setBinding f x b)
  setItem : ∀ {n s s' c v} index, d.node n → n.AssignsIndex → d.alike s s' → d.cell s c →
    d.value s v → d.alike (s.setItem c index v) (s'.setItem c index v)
  setEntry : ∀ {n s s' c v} key, d.node n → n.AssignsIndex → d.alike s s' → d.cell s c →
    d.value s v → d.alike (s.setEntry c key v) (s'.setEntry c key v)
  print : ∀ {s s'} text, d.alike s s' → d.alike (s.print text) (s'.print text)
  log : ∀ {s s'} line, d.alike s s' → d.alike (s.log line) (s'.log line)
  here : ∀ {n m}, d.node n → m ∈ n.here → d.node m
  inside : ∀ {n m}, d.node n → m ∈ n.inside → d.node m
  names : ∀ {n x}, d.node n → x ∈ n.names → d.name x
  made : ∀ {n f c}, d.node n → c ∈ n.closure? f → d.closure c
  body : ∀ {c m}, d.closure c → m ∈ c.body.statements → d.node m
  parameters : ∀ {c p}, d.closure c → p ∈ c.parameters → d.name p.name

variable {d} {α β : Type} {w u s s' : Store} {v : Value}

lemma Lawful.value_mono (hd : d.Lawful) (hw : s.Grows u) (hv : d.value s v) : d.value u v := by
  cases v with
  | list c => exact hd.cell_mono hw hv
  | map c => exact hd.cell_mono hw hv
  | function c => exact ⟨hv.1, hd.frame_mono hw hv.2⟩
  | builtin b => exact hv
  | _ => trivial

lemma Lawful.owner (hd : d.Lawful) (hs : d.alike s s') {x : String} (hx : d.name x) {f : FrameId}
    (hf : d.frame s f) :
    s'.owner? x f = s.owner? x f ∧ ∀ owner ∈ s.owner? x f, d.frame s owner := by
  -- the search goes outwards, where the frames are older
  induction f using Nat.strongRecOn with
  | ind f ih =>
    obtain ⟨hparent, hup⟩ := hd.parent hs hf
    rw [Store.owner?, Store.owner?, Table.contains, Table.contains, hd.find hs hf hx, hparent]
    split
    · refine ⟨rfl, fun owner ho => ?_⟩
      cases ho
      exact hf
    · cases hp : s.parent? f with
      | none => exact ⟨rfl, fun _ ho => absurd ho (Option.not_mem_none _)⟩
      | some p =>
        dsimp only
        split
        · rename_i hlt
          exact ih p hlt (hup p hp)
        · exact ⟨rfl, fun _ ho => absurd ho (Option.not_mem_none _)⟩

lemma Lawful.binding (hd : d.Lawful) (hs : d.alike s s') {x : String} (hx : d.name x) {f : FrameId}
    (hf : d.frame s f) :
    s'.binding? f x = s.binding? f x ∧ ∀ b ∈ s.binding? f x, d.value s b.value := by
  obtain ⟨howner, hup⟩ := hd.owner hs hx hf
  rw [Store.binding?, Store.binding?, howner]
  cases ho : s.owner? x f with
  | none => simp
  | some owner =>
    have hframe : d.frame s owner := hup owner ho
    exact ⟨hd.find hs hframe hx, fun b hb => hd.bound hs hframe hb⟩

lemma mapM_congr {f g : α → Option β} {xs : List α} (h : ∀ x ∈ xs, f x = g x) :
    xs.mapM f = xs.mapM g := by
  induction xs with
  | nil => rfl
  | cons x xs ih =>
    rw [List.mapM_cons, List.mapM_cons, h x List.mem_cons_self,
      ih fun y hy => h y (List.mem_cons_of_mem _ hy)]

lemma Lawful.unfoldWithin (hd : d.Lawful) (hs : d.alike s s') (bound : Nat) (path : List CellId)
    (hv : d.value s v) : s'.unfoldWithin bound path v = s.unfoldWithin bound path v := by
  induction bound generalizing path v with
  | zero => cases v <;> simp [Store.unfoldWithin]
  | succ bound ih =>
    cases v with
    | list c =>
      obtain ⟨hitems, hall⟩ := hd.items hs hv
      simp only [Store.unfoldWithin, hitems]
      rw [mapM_congr fun item hm => ih _ (hall item (Array.mem_toList_iff.1 hm))]
    | map c =>
      obtain ⟨hentries, hall⟩ := hd.entries hs hv
      simp only [Store.unfoldWithin, hentries]
      rw [mapM_congr fun entry hm => by rw [ih _ (hall entry hm)]]
    | _ => simp [Store.unfoldWithin]

lemma Lawful.display (hd : d.Lawful) (hs : d.alike s s') (hv : d.value s v) :
    s'.display? v = s.display? v := by
  rw [Store.display?, Store.display?, Store.datum?, Store.datum?, (hd.sizes hs).2,
    hd.unfoldWithin hs _ _ hv]

abbrev both (p : Store → α → Prop) (t : Store) (a a' : α) : Prop := a = a' ∧ p t a

variable (d) in
inductive Ends (s : Store) (p : Store → α → α → Prop) :
    EStateM.Result Interrupt Store α → EStateM.Result Interrupt Store α → Prop
  | ok {a a' : α} {t t' : Store} : s.Grows t → d.alike t t' → p t a a' →
      Ends s p (.ok a t) (.ok a' t')
  | error {e : Interrupt} {t t' : Store} : s.Grows t → d.alike t t' → d.interrupt t e →
      Ends s p (.error e t) (.error e t')

variable (d) in
/-- Computations that stay in view, started when a store has grown at least to `w`. -/
def Stays (w : Store) (p : Store → α → α → Prop) (m m' : Eval α) : Prop :=
  ∀ s s', w.Grows s → d.alike s s' → d.Ends s p (m s) (m' s')

variable (d) in
abbrev Goes (w : Store) (m : Eval Value) : Prop := d.Stays w (both d.value) m m

variable {p : Store → α → α → Prop} {q : Store → β → β → Prop} {m m' : Eval α}

lemma Ends.alike {r r' : EStateM.Result Interrupt Store α} (h : d.Ends s p r r') :
    d.alike (finalStore r) (finalStore r') := by
  cases h with
  | ok _ ha _ => exact ha
  | error _ ha _ => exact ha

lemma Ends.grows {r r' : EStateM.Result Interrupt Store α} (h : d.Ends s p r r') :
    s.Grows (finalStore r) := by
  cases h with
  | ok hg _ _ => exact hg
  | error hg _ _ => exact hg

lemma Ends.outcome {p : Store → Value → Prop} {r r' : EStateM.Result Interrupt Store Value}
    (h : d.Ends s (both p) r r') : (Outcome.of r').1 = (Outcome.of r).1 := by
  cases h with
  | ok _ _ hp => rw [Outcome.of, Outcome.of, hp.1]
  | error => rfl

lemma stays_pure {a a' : α} (h : ∀ t, w.Grows t → p t a a') : d.Stays w p (pure a) (pure a') :=
  fun s _ hw hs => .ok (.refl s) hs (h s hw)

lemma stays_throw {e : Interrupt} (h : ∀ t, w.Grows t → d.interrupt t e) :
    d.Stays w p (throw e : Eval α) (throw e) :=
  fun s _ hw hs => .error (.refl s) hs (h s hw)

lemma stays_raise (reason : Fault) :
    d.Stays w p (Eval.raise reason : Eval α) (Eval.raise reason) :=
  stays_throw fun _ _ => trivial

lemma Stays.bind {k k' : α → Eval β} (h : d.Stays w p m m')
    (hk : ∀ u a a', w.Grows u → p u a a' → d.Stays u q (k a) (k' a')) :
    d.Stays w q (m >>= k) (m' >>= k') := by
  intro s s' hw hs
  have he := h s s' hw hs
  generalize hr : m s = r at he
  generalize hr' : m' s' = r' at he
  cases he with
  | @ok a a' t t' ht ha hp =>
    rw [Eval.bind_ok hr, Eval.bind_ok hr']
    have hends := hk t a a' (hw.trans ht) hp t t' (.refl _) ha
    generalize k a t = r at hends
    generalize k' a' t' = r' at hends
    cases hends with
    | ok hu hb hq => exact .ok (ht.trans hu) hb hq
    | error hu hb hi => exact .error (ht.trans hu) hb hi
  | error ht ha hi =>
    rw [Eval.bind_error hr, Eval.bind_error hr']
    exact .error ht ha hi

lemma Stays.located (h : d.Stays w p m m') (span : Option Source.Span) :
    d.Stays w p (Eval.located span m) (Eval.located span m') := by
  intro s s' hw hs
  have he := h s s' hw hs
  unfold Eval.located
  generalize m s = r at he
  generalize m' s' = r' at he
  cases he with
  | ok ht ha hp => exact .ok ht ha hp
  | @error e t t' ht ha hi =>
    cases e with
    | fault reason place => cases place <;> exact .error ht ha trivial
    | _ => exact .error ht ha hi

lemma Stays.callResult {m m' : Eval Value} (h : d.Stays w (both d.value) m m')
    (policies : Policies) :
    d.Stays w (both d.value) (Evaluator.callResult policies m)
      (Evaluator.callResult policies m') := by
  intro s s' hw hs
  have he := h s s' hw hs
  unfold Evaluator.callResult
  generalize m s = r at he
  generalize m' s' = r' at he
  cases he with
  | ok ht ha hv =>
    dsimp only
    split
    · exact .ok ht ha hv
    · exact .ok ht ha ⟨rfl, trivial⟩
  | @error e t t' ht ha hi =>
    cases e with
    | returning v => exact .ok ht ha ⟨rfl, hi⟩
    | _ => exact .error ht ha trivial

section

variable (hd : d.Lawful)

include hd

lemma stays_log (line : String) : d.Stays w (fun _ => Eq) (Eval.log line) (Eval.log line) :=
  fun _ _ _ hs => .ok ⟨Nat.le_refl _, Nat.le_refl _⟩ (hd.log line hs) rfl

lemma stays_print (text : String) : d.Stays w (fun _ => Eq) (Eval.print text) (Eval.print text) :=
  fun _ _ _ hs => .ok ⟨Nat.le_refl _, Nat.le_refl _⟩ (hd.print text hs) rfl

lemma stays_child {f : FrameId} (hf : d.frame w f) :
    d.Stays w (both d.frame) (Eval.child f) (Eval.child f) := by
  intro s s' hw hs
  obtain ⟨ha, hframe⟩ := hd.pushFrame hs (hd.frame_mono hw hf)
  simp only [Eval.child, (hd.sizes hs).1]
  exact .ok (s.grows_pushFrame _) ha ⟨rfl, hframe⟩

lemma stays_alloc {cell : Cell} (hc : cell.All (d.value w)) :
    d.Stays w (both d.cell) (Eval.alloc cell) (Eval.alloc cell) := by
  intro s s' hw hs
  have hcell : cell.All (d.value s) := by
    cases cell with
    | list items => exact fun v hv => hd.value_mono hw (hc v hv)
    | map entries => exact fun e he => hd.value_mono hw (hc e he)
  obtain ⟨ha, hmade⟩ := hd.pushCell hs hcell
  simp only [Eval.alloc, (hd.sizes hs).2]
  exact .ok (s.grows_pushCell _) ha ⟨rfl, hmade⟩

lemma goes_newList {items : Array Value} (h : ∀ v ∈ items, d.value w v) :
    d.Goes w (Eval.newList items) := by
  have hcell : Cell.All (d.value w) (.list items) := h
  apply (stays_alloc hd hcell).bind
  rintro u c _ _ ⟨rfl, hc⟩
  exact stays_pure fun t ht => ⟨rfl, hd.cell_mono ht hc⟩

lemma goes_newMap {entries : Table Value} (h : entries.All (d.value w)) :
    d.Goes w (Eval.newMap entries) := by
  have hcell : Cell.All (d.value w) (.map entries) := h
  apply (stays_alloc hd hcell).bind
  rintro u c _ _ ⟨rfl, hc⟩
  exact stays_pure fun t ht => ⟨rfl, hd.cell_mono ht hc⟩

lemma stays_items {c : CellId} (hc : d.cell w c) :
    d.Stays w (both fun t items => ∀ v ∈ items, d.value t v) (Eval.items c) (Eval.items c) := by
  intro s s' hw hs
  obtain ⟨hitems, hall⟩ := hd.items hs (hd.cell_mono hw hc)
  have hrun (t : Store) : Eval.items c t = .ok (t.items c) t := rfl
  rw [hrun, hrun, hitems]
  exact .ok (.refl s) hs ⟨rfl, hall⟩

lemma stays_entries {c : CellId} (hc : d.cell w c) :
    d.Stays w (both fun t entries => entries.All (d.value t)) (Eval.entries c) (Eval.entries c) := by
  intro s s' hw hs
  obtain ⟨hentries, hall⟩ := hd.entries hs (hd.cell_mono hw hc)
  have hrun (t : Store) : Eval.entries c t = .ok (t.entries c) t := rfl
  rw [hrun, hrun, hentries]
  exact .ok (.refl s) hs ⟨rfl, hall⟩

lemma stays_display (hv : d.value w v) :
    d.Stays w (fun _ => Eq) (Eval.display v) (Eval.display v) := by
  intro s s' hw hs
  have htext := hd.display hs (hd.value_mono hw hv)
  simp only [Eval.display, Eval.get_bind, htext]
  cases s.display? v with
  | some text => exact .ok (.refl s) hs rfl
  | none => exact .error (.refl s) hs trivial

lemma goes_scopeOf {b : Builtin} (hb : d.builtin b) (hhost : b.host = .callerScope)
    {caller : Option FrameId} (hf : ∀ f ∈ caller, d.frame w f) :
    d.Goes w (Builtin.scopeOf caller) := by
  cases caller with
  | none => exact stays_pure fun _ _ => ⟨rfl, trivial⟩
  | some f =>
    intro s s' hw hs
    have htext := hd.scope hs (hd.frame_mono hw (hf f rfl)) hb hhost
    have hrun (t : Store) :
        Builtin.scopeOf (some f) t = .ok (.string (t.describeFrame f)) t := rfl
    rw [hrun, hrun, htext]
    exact .ok (.refl s) hs ⟨rfl, trivial⟩

lemma goes_declare {f : FrameId} (hf : d.frame w f) {x : String} (hx : d.name x)
    (hv : d.value w v) (isFinal : Bool) (ascription : Option String) :
    d.Goes w (Eval.declare f x v isFinal ascription) := by
  intro s s' hw hs
  have hframe : d.frame s f := hd.frame_mono hw hf
  have hvalue : d.value s v := hd.value_mono hw hv
  rw [Eval.declare_apply, Eval.declare_apply, Table.contains, Table.contains,
    hd.find hs hframe hx]
  split
  · exact .error (.refl s) hs trivial
  · cases bindingFault? v ascription with
    | some reason => exact .error (.refl s) hs trivial
    | none =>
      have hgrows := s.grows_setBinding f x ⟨v, isFinal, ascription⟩
      exact .ok hgrows (hd.setBinding hs hframe hx hvalue) ⟨rfl, hd.value_mono hgrows hvalue⟩

lemma goes_lookup {f : FrameId} (hf : d.frame w f) {x : String} (hx : d.name x) :
    d.Goes w (Eval.lookup f x) := by
  intro s s' hw hs
  obtain ⟨hbinding, hgood⟩ := hd.binding hs hx (hd.frame_mono hw hf)
  simp only [Eval.lookup, Eval.get_bind, hbinding]
  cases hb : s.binding? f x with
  | none => exact .error (.refl s) hs trivial
  | some b => exact .ok (.refl s) hs ⟨rfl, hgood b hb⟩

lemma goes_assign {f : FrameId} (hf : d.frame w f) {x : String} (hx : d.name x)
    (hv : d.value w v) : d.Goes w (Eval.assign f x v) := by
  intro s s' hw hs
  have hvalue : d.value s v := hd.value_mono hw hv
  obtain ⟨howner, hup⟩ := hd.owner hs hx (hd.frame_mono hw hf)
  have hfails (reason : Fault) : d.Ends s (both d.value) (.error (.fault reason none) s)
      (.error (.fault reason none) s') := .error (.refl s) hs trivial
  rw [Eval.assign_apply, Eval.assign_apply, howner]
  cases ho : s.owner? x f with
  | none => exact hfails _
  | some owner =>
    have hframe : d.frame s owner := hup owner ho
    dsimp only
    rw [hd.find hs hframe hx]
    cases (s.bindings owner).find? x with
    | none => exact hfails _
    | some b =>
      dsimp only
      split
      · exact hfails _
      · cases bindingFault? v b.ascription with
        | some reason => exact hfails reason
        | none =>
          have hgrows := s.grows_setBinding owner x { b with value := v }
          exact .ok hgrows (hd.setBinding hs hframe hx hvalue) ⟨rfl, hd.value_mono hgrows hvalue⟩

end

end View

end Klang
