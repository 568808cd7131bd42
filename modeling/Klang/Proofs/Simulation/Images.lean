import Klang.Proofs.StoreInvariants
import Klang.Proofs.Masks
import Klang.Proofs.Simulation.Operations

/-! Simulations in which values belong together if they have one image. -/

namespace Klang

namespace Simulation

variable {R : Simulation} {w : R.World} {e g : Value → Value} {p : Value → Prop} {vs vs' : List Value}
  {items items' : Array Value} {entries entries' : Table Value}

section

variable (h : ∀ v v', R.Alike w v v' ↔ e v = g v' ∧ p v)

include h

lemma allAlike_iff : R.AllAlike w vs vs' ↔ vs.map e = vs'.map g ∧ ∀ v ∈ vs, p v := by
  have halike : R.Alike w = fun v v' => p v ∧ e v = g v' := by
    funext v v'
    rw [h, and_comm]
  unfold AllAlike
  rw [halike, List.forall₂_and_left, ← List.forall₂_eq_eq_eq, List.forall₂_map_left_iff,
    List.forall₂_map_right_iff, and_comm]

lemma itemsAlike_iff :
    R.ItemsAlike w items items' ↔ items.map e = items'.map g ∧ ∀ v ∈ items, p v := by
  refine (allAlike_iff h).trans ?_
  simp only [← Array.toList_inj, Array.toList_map, Array.mem_toList_iff]

lemma entriesAlike_iff :
    R.EntriesAlike w entries entries' ↔ entries.map e = entries'.map g ∧ entries.All p := by
  have halike : (fun a b : String × Value => a.1 = b.1 ∧ R.Alike w a.2 b.2) =
      fun a b => p a.2 ∧ (a.1, e a.2) = (b.1, g b.2) := by
    funext a b
    rw [h, Prod.mk.injEq]
    exact propext ⟨fun ⟨hk, hv, hp⟩ => ⟨hp, hk, hv⟩, fun ⟨hp, hk, hv⟩ => ⟨hk, hv, hp⟩⟩
  have hmap : entries.map e = entries'.map g ↔
      List.Forall₂ (fun a b => (a.1, e a.2) = (b.1, g b.2)) entries.entries entries'.entries := by
    rw [← List.forall₂_map_right_iff, ← List.forall₂_map_left_iff, List.forall₂_eq_eq_eq]
    exact ⟨congrArg Table.entries, fun he => Table.ext_entries he⟩
  unfold EntriesAlike Table.Rel
  rw [halike, List.forall₂_and_left, ← hmap, and_comm]
  rfl

end

section

variable (h : ∀ v v', R.Alike w v v' ↔ v' = e v ∧ p v)

include h

lemma alike_iff_of_image (v v' : Value) : R.Alike w v v' ↔ e v = id v' ∧ p v := by
  rw [h, eq_comm, id]

lemma allAlike_iff_image : R.AllAlike w vs vs' ↔ vs' = vs.map e ∧ ∀ v ∈ vs, p v := by
  rw [allAlike_iff (alike_iff_of_image h), List.map_id, eq_comm]

lemma itemsAlike_iff_image :
    R.ItemsAlike w items items' ↔ items' = items.map e ∧ ∀ v ∈ items, p v := by
  rw [itemsAlike_iff (alike_iff_of_image h), Array.map_id, eq_comm]

lemma entriesAlike_iff_image :
    R.EntriesAlike w entries entries' ↔ entries' = entries.map e ∧ entries.All p := by
  rw [entriesAlike_iff (alike_iff_of_image h), Table.map_id, eq_comm]

end

end Simulation

end Klang
