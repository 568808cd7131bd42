import Klang.Session
import Mathlib.Logic.Relation
import Mathlib.Tactic.Lemma

/-! The single writes that a run makes to its store, and what every sequence of them keeps: bindings
stay, with their finality and their ascription, and an ascribed binding holds a value of its type.
Printing and tracing change nothing else. -/

namespace Klang

def Binding.Keeps (old new : Binding) : Prop :=
  new.isFinal = old.isFinal ∧ new.ascription = old.ascription ∧
    (old.isFinal = true → new.value = old.value)

def Binding.WellTyped (binding : Binding) : Prop :=
  ∀ type, binding.ascription = some type → type ≠ "" →
    resolveAscription type = .ok binding.value.tag

lemma Binding.Keeps.refl (b : Binding) : b.Keeps b := ⟨rfl, rfl, fun _ => rfl⟩

lemma Binding.Keeps.trans {a b c : Binding} (hab : a.Keeps b) (hbc : b.Keeps c) : a.Keeps c := by
  obtain ⟨hf, ha, hv⟩ := hab
  obtain ⟨hf', ha', hv'⟩ := hbc
  refine ⟨hf'.trans hf, ha'.trans ha, ?_⟩
  intro h
  rw [hv' (hf.trans h), hv h]

lemma ascriptionFault?_eq_none {value : Value} {type : String} :
    ascriptionFault? value type = none ↔ resolveAscription type = .ok value.tag := by
  unfold ascriptionFault?
  cases resolveAscription type with
  | error fault => simp
  | ok tag =>
    by_cases h : value.tag = tag
    · simp [h]
    · simp [h, Ne.symm h]

lemma bindingFault?_eq_none {value : Value} {ascription : Option String} :
    bindingFault? value ascription = none ↔
      ∀ type, ascription = some type → type ≠ "" → resolveAscription type = .ok value.tag := by
  unfold bindingFault?
  split
  · simp
  · simp
  · rename_i type hne
    rw [ascriptionFault?_eq_none]
    constructor
    · rintro h _ ⟨⟩ _
      exact h
    · intro h
      exact h type rfl (by rintro rfl; exact hne rfl)

namespace Store

@[simp] lemma bindings_pushFrame (s : Store) (parent : Option FrameId) (frame : FrameId) :
    (s.pushFrame parent).bindings frame = s.bindings frame := by
  simp only [bindings, pushFrame, Array.getElem?_push]
  by_cases h : frame = s.frames.size <;> simp [h]

@[simp] lemma bindings_pushCell (s : Store) (cell : Cell) :
    (s.pushCell cell).bindings = s.bindings := rfl

@[simp] lemma bindings_setItem (s : Store) (cell : CellId) (index : Nat) (value : Value) :
    (s.setItem cell index value).bindings = s.bindings := rfl

@[simp] lemma bindings_setEntry (s : Store) (cell : CellId) (key : String) (value : Value) :
    (s.setEntry cell key value).bindings = s.bindings := rfl

@[simp] lemma bindings_print (s : Store) (text : String) : (s.print text).bindings = s.bindings := rfl

@[simp] lemma bindings_log (s : Store) (line : String) : (s.log line).bindings = s.bindings := rfl

lemma bindings_setBinding (s : Store) (frame other : FrameId) (name : String) (b : Binding) :
    (s.setBinding frame name b).bindings other =
      if other = frame ∧ frame < s.frames.size then (s.bindings frame).insert name b
      else s.bindings other := by
  simp only [bindings, setBinding, Array.getElem?_modify]
  by_cases ho : other = frame
  · subst ho
    by_cases hs : other < s.frames.size
    · simp [hs]
    · simp [hs]
  · simp [ho, Ne.symm ho]

lemma find?_setBinding (s : Store) (frame other : FrameId) (name key : String) (b : Binding) :
    ((s.setBinding frame name b).bindings other).find? key =
      if (other = frame ∧ frame < s.frames.size) ∧ key = name then some b
      else (s.bindings other).find? key := by
  rw [bindings_setBinding]
  by_cases h : other = frame ∧ frame < s.frames.size
  · obtain ⟨rfl, hs⟩ := h
    simp [hs]
  · simp [h]

/-- One write of a run. A name is bound once in a frame; later writes only change the value of a
binding that is not final, and every bound value fits its ascription. -/
inductive Write : Store → Store → Prop
  | frame (s : Store) (parent : Option FrameId) : Write s (s.pushFrame parent)
  | cell (s : Store) (cell : Cell) : Write s (s.pushCell cell)
  | declare {s : Store} {frame : FrameId} {name : String} {value : Value} (isFinal : Bool)
      {ascription : Option String} : (s.bindings frame).find? name = none →
      bindingFault? value ascription = none →
      Write s (s.setBinding frame name ⟨value, isFinal, ascription⟩)
  | assign {s : Store} {frame : FrameId} {name : String} {binding : Binding} {value : Value} :
      (s.bindings frame).find? name = some binding → binding.isFinal = false →
      bindingFault? value binding.ascription = none →
      Write s (s.setBinding frame name { binding with value })
  | item (s : Store) (cell : CellId) (index : Nat) (value : Value) :
      Write s (s.setItem cell index value)
  | entry (s : Store) (cell : CellId) (key : String) (value : Value) :
      Write s (s.setEntry cell key value)
  | print (s : Store) (text : String) : Write s (s.print text)
  | log (s : Store) (line : String) : Write s (s.log line)

abbrev Path : Store → Store → Prop := Relation.ReflTransGen Write

def Keeps (old new : Store) : Prop :=
  ∀ frame name b, (old.bindings frame).find? name = some b →
    ∃ b', (new.bindings frame).find? name = some b' ∧ b.Keeps b'

def WellTyped (s : Store) : Prop :=
  ∀ frame name b, (s.bindings frame).find? name = some b → b.WellTyped

lemma Keeps.of_bindings_eq {s t : Store} (h : ∀ frame, t.bindings frame = s.bindings frame) :
    s.Keeps t := by
  intro frame name b hb
  exact ⟨b, by rw [h, hb], .refl b⟩

lemma Keeps.trans {s t u : Store} (hst : s.Keeps t) (htu : t.Keeps u) : s.Keeps u := by
  intro frame name b hb
  obtain ⟨b', hb', hk⟩ := hst frame name b hb
  obtain ⟨b'', hb'', hk'⟩ := htu frame name b' hb'
  exact ⟨b'', hb'', hk.trans hk'⟩

lemma WellTyped.of_bindings_eq {s t : Store} (hs : s.WellTyped)
    (h : ∀ frame, t.bindings frame = s.bindings frame) : t.WellTyped := by
  intro frame name b hb
  rw [h] at hb
  exact hs frame name b hb

lemma keeps_setBinding {s : Store} {frame : FrameId} {name : String} {b : Binding}
    (h : ∀ old, (s.bindings frame).find? name = some old → old.Keeps b) :
    s.Keeps (s.setBinding frame name b) := by
  intro other key old hold
  rw [find?_setBinding]
  split
  · rename_i hc
    obtain ⟨⟨rfl, _⟩, rfl⟩ := hc
    exact ⟨b, rfl, h old hold⟩
  · exact ⟨old, hold, .refl old⟩

lemma WellTyped.setBinding {s : Store} (hs : s.WellTyped) {b : Binding} (hb : b.WellTyped)
    (frame : FrameId) (name : String) : (s.setBinding frame name b).WellTyped := by
  intro other key found hf
  rw [find?_setBinding] at hf
  split at hf
  · obtain rfl : b = found := Option.some.inj hf
    exact hb
  · exact hs other key found hf

lemma Write.keeps {s t : Store} (h : Write s t) : s.Keeps t := by
  cases h with
  | declare isFinal hn _ =>
    apply keeps_setBinding
    intro old hold
    rw [hn] at hold
    cases hold
  | assign hb hf _ =>
    apply keeps_setBinding
    intro old hold
    obtain rfl := Option.some.inj (hold.symm.trans hb)
    exact ⟨rfl, rfl, fun h => by rw [hf] at h; cases h⟩
  | frame | cell | item | entry | print | log => exact .of_bindings_eq (by simp)

lemma Write.wellTyped {s t : Store} (h : Write s t) (hs : s.WellTyped) : t.WellTyped := by
  cases h with
  | declare isFinal _ hv => exact hs.setBinding (bindingFault?_eq_none.1 hv) _ _
  | assign _ _ hv => exact hs.setBinding (bindingFault?_eq_none.1 hv) _ _
  | frame | cell | item | entry | print | log => exact hs.of_bindings_eq (by simp)

lemma Path.keeps {s t : Store} (h : s.Path t) : s.Keeps t := by
  induction h with
  | refl => exact .of_bindings_eq fun _ => rfl
  | tail _ hw ih => exact ih.trans hw.keeps

lemma Path.wellTyped {s t : Store} (h : s.Path t) (hs : s.WellTyped) : t.WellTyped := by
  induction h with
  | refl => exact hs
  | tail _ hw ih => exact hw.wellTyped ih

def SaysMore (s t : Store) : Prop :=
  ∃ text lines, t = { s with output := s.output ++ text, trace := s.trace ++ lines }

lemma SaysMore.refl (s : Store) : s.SaysMore s := ⟨"", #[], by simp⟩

lemma SaysMore.trans {s t u : Store} (hst : s.SaysMore t) (htu : t.SaysMore u) : s.SaysMore u := by
  obtain ⟨text, lines, rfl⟩ := hst
  obtain ⟨text', lines', rfl⟩ := htu
  exact ⟨text ++ text', lines ++ lines', by simp [String.append_assoc]⟩

lemma saysMore_print (s : Store) (text : String) : s.SaysMore (s.print text) :=
  ⟨text, #[], by simp [print]⟩

lemma saysMore_printLines (s : Store) (lines : List String) : s.SaysMore (s.printLines lines) := by
  induction lines generalizing s with
  | nil => exact .refl s
  | cons line lines ih => exact (s.saysMore_print _).trans (ih _)

lemma saysMore_log (s : Store) (line : String) : s.SaysMore (s.log line) :=
  ⟨"", #[line], by simp [log]⟩

lemma saysMore_logAll (s : Store) (debug : Bool) (lines : List String) :
    s.SaysMore (s.logAll debug lines) := by
  unfold logAll
  split
  · induction lines generalizing s with
    | nil => exact .refl s
    | cons line lines ih => exact (s.saysMore_log line).trans (ih _)
  · exact .refl s

end Store

end Klang
