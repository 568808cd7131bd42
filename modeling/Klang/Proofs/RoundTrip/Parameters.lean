import Klang.Proofs.RoundTrip.Openings
import Klang.Proofs.RoundTrip.Precedence

/-! Reading back parameters. However the names and types of parameters are spelled, they are read as
these parameters. -/

namespace Klang

namespace Parser

variable {t : Token} {ts rest : List Token}

lemma not_isSymbol_of_isSymbol {value other : String} (h : t.isSymbol value = true)
    (hne : value ≠ other) : t.isSymbol other = false := by
  have hvalue := value_of_isSymbol h
  simp_all [Token.isSymbol]

lemma ascription_of_spelled {type : Option String} (h : Grammar.Ascription ts type)
    (hrest : ∀ t ∈ rest.head?, t.isSymbol ":" = false) :
    ascription (ts ++ rest) = .ok (type, rest) := by
  cases h with
  | nothing =>
    simp only [List.nil_append, ascription, nextSymbol_bind, next_false hrest, Bool.false_eq_true,
      if_false, pure_apply]
  | type hcolon hname =>
    simp only [List.cons_append, List.nil_append, ascription, nextSymbol_bind, List.head?_cons,
      Option.map_some, Option.getD_some, hcolon, if_true, advance_bind_cons]
    exact bind_of_ok (expectIdentifier_eq_ok.2 ⟨_, rfl, hname, rfl⟩)

lemma any_name_of_distinct {found : List Parameter} {p : Parameter} {ps : List Parameter}
    (hd : DistinctNames (found ++ p :: ps)) : found.any (·.name = p.name) = false := by
  simp only [DistinctNames, List.map_append, List.map_cons, List.nodup_append] at hd
  rw [List.any_eq_false]
  intro q hq
  simpa using hd.2.2 q.name (List.mem_map_of_mem hq) p.name (by simp)

lemma moreParameters_of_separated (rest : List Token) {ps found : List Parameter}
    (h : Grammar.Separated Grammar.SpellsParameter ts ps) (hd : DistinctNames (found ++ ps))
    (hc : t.isSymbol ")" = true) {k : Nat} (hk : ps.length ≤ k) :
    moreParameters k found (ts ++ t :: rest) = .ok (found ++ ps, t :: rest) := by
  induction h generalizing found k with
  | @one us p hp =>
    obtain @⟨name, us, type, hname, htype⟩ := hp
    obtain ⟨k, rfl⟩ : ∃ k', k = k' + 1 := ⟨k - 1, by simp at hk; omega⟩
    have hcolon := not_isSymbol_of_isSymbol hc (show ")" ≠ ":" by decide)
    have hcomma := not_isSymbol_of_isSymbol hc (show ")" ≠ "," by decide)
    simp only [moreParameters, List.cons_append]
    rw [bind_of_ok (expectIdentifier_eq_ok.2 ⟨_, rfl, hname, rfl⟩),
      bind_of_ok (ascription_of_spelled htype (by simpa using hcolon)),
      any_name_of_distinct hd]
    simp [hcomma]
  | @more us p comma vs ps hp hcomma _ ih =>
    obtain @⟨name, us, type, hname, htype⟩ := hp
    obtain ⟨k, rfl⟩ : ∃ k', k = k' + 1 := ⟨k - 1, by simp at hk; omega⟩
    have hcolon := not_isSymbol_of_isSymbol hcomma (show "," ≠ ":" by decide)
    simp only [moreParameters, List.cons_append, List.append_assoc]
    rw [bind_of_ok (expectIdentifier_eq_ok.2 ⟨_, rfl, hname, rfl⟩),
      bind_of_ok (ascription_of_spelled htype (by simpa using hcolon)),
      any_name_of_distinct hd]
    have hd' : DistinctNames (found ++ [⟨name.value, type⟩] ++ ps) := by simpa using hd
    have hothers := ih hd' (show ps.length ≤ k by simpa using hk)
    simpa [hcomma] using hothers

lemma length_of_separated {α : Type} {phrase : List Token → α → Prop} {as : List α}
    (h : Grammar.Separated phrase ts as) : as.length ≤ ts.length + 1 := by
  induction h with
  | one _ => simp
  | more _ _ _ ih =>
    simp only [List.length_cons, List.length_append]
    omega

lemma parameters_of_spelled {ps : List Parameter} (h : Grammar.Parameters ts ps)
    (rest : List Token) : parameters (ts ++ rest) = .ok (ps, rest) := by
  cases h with
  | nothing ho hc =>
    simp only [List.cons_append, List.nil_append, parameters]
    rw [bind_of_ok (expectSymbol_eq_ok.2 ⟨rfl, ho⟩)]
    simp only [nextSymbol_bind, List.head?_cons, Option.map_some, Option.getD_some, hc, if_true,
      advance_bind_cons, pure_apply]
  | @some first closing us ps ho hs hd hc =>
    have hfirst : ∃ t vs, us = t :: vs ∧ t.isSymbol ")" = false := by
      cases hs with
      | one hp | more hp _ _ =>
        obtain ⟨hname, -⟩ := hp
        simp only [Token.isIdentifier, decide_eq_true_eq] at hname
        exact ⟨_, _, rfl, by simp [Token.isSymbol, hname]⟩
    have hmore : ((us ++ closing :: rest).head?.map (Token.isSymbol ")")).getD false = false := by
      obtain ⟨t, vs, rfl, ht⟩ := hfirst
      simpa using ht
    have hlength := length_of_separated hs
    have hread := moreParameters_of_separated rest hs (show DistinctNames ([] ++ ps) from hd) hc
      (show ps.length ≤ (us ++ closing :: rest).length + 1 by simp; omega)
    simp only [List.cons_append, List.append_assoc, List.nil_append, parameters]
    rw [bind_of_ok (expectSymbol_eq_ok.2 ⟨rfl, ho⟩)]
    simp only [nextSymbol_bind, hmore, Bool.false_eq_true, if_false, rounds_bind]
    rw [bind_of_ok hread, bind_of_ok (expectSymbol_eq_ok.2 ⟨rfl, hc⟩)]
    rfl

end Parser

end Klang
