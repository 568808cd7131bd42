import Klang.Proofs.ParserSteps
import Klang.Proofs.Respan
import Klang.Proofs.RoundTrip.Parameters
import Klang.Proofs.RoundTrip.Rendering

/-! Reading back what is written around expressions: lists with commas, parameters, and the
statements of blocks and programs. -/

namespace Klang

namespace Writer

open Klang.Parser

variable (w : Writer)

section

variable {α : Type} {item : Parser α} {spell : α → List Token} {image : α → α} {close : String}

def AfterItem (close : String) (us : List Token) : Prop :=
  ∃ value us', us = w.delimiter value :: us' ∧ (value = "," ∨ value = close)

@[simp] lemma isSymbol_delimiter (value symbol : String) :
    (w.delimiter value).isSymbol symbol = decide (value = symbol) := rfl

@[simp] lemma isSymbol_operator (value symbol : String) :
    (w.operator value).isSymbol symbol = decide (value = symbol) := rfl

lemma read_identifier (complaint : Complaint) (name : String) (rest : List Token) :
    expectIdentifier complaint (w.identifier name :: rest) = .ok (name, rest) :=
  expectIdentifier_eq_ok.2 ⟨_, rfl, rfl, rfl⟩

lemma read_delimiter (complaint : Complaint) (value : String) (rest : List Token) :
    expectSymbol value complaint (w.delimiter value :: rest) = .ok (w.delimiter value, rest) :=
  expectSymbol_eq_ok.2 ⟨rfl, by simp⟩

lemma length_le_flatMap_cons (spell : α → List Token) (t : Token) (as : List α) :
    as.length ≤ (as.flatMap (fun a => t :: spell a)).length := by
  induction as with
  | nil => simp
  | cons a as ih =>
    simp only [List.flatMap_cons, List.length_append, List.length_cons]
    omega

lemma separated_map_cons (a : α) (as : List α) : w.separated ((a :: as).map spell) =
    spell a ++ as.flatMap (fun a => w.delimiter "," :: spell a) := by
  simp only [List.map_cons, separated, List.flatMap_map]

lemma read_moreItems (hclose : close ≠ ",") (as : List α)
    (hitem : ∀ a ∈ as, ∀ us, w.AfterItem close us → item (spell a ++ us) = .ok (image a, us))
    (rest : List Token) (k : Nat) (hk : as.length < k) :
    moreItems item k (as.flatMap (fun a => w.delimiter "," :: spell a) ++ w.delimiter close :: rest) =
      .ok (as.map image, w.delimiter close :: rest) := by
  induction as generalizing k with
  | nil =>
    obtain ⟨k, rfl⟩ : ∃ k', k = k' + 1 := ⟨k - 1, by omega⟩
    simp [moreItems, hclose]
  | cons a as ih =>
    rw [List.length_cons] at hk
    obtain ⟨k, rfl⟩ : ∃ k', k = k' + 1 := ⟨k - 1, by omega⟩
    have hafter : w.AfterItem close
        (as.flatMap (fun a => w.delimiter "," :: spell a) ++ w.delimiter close :: rest) := by
      cases as with
      | nil => exact ⟨close, rest, rfl, .inr rfl⟩
      | cons b bs => exact ⟨",", _, rfl, .inl rfl⟩
    have hfirst := hitem a (by simp) _ hafter
    have hothers := ih (fun b hb => hitem b (by simp [hb])) k (by omega)
    simp only [List.flatMap_cons, List.cons_append, List.append_assoc, moreItems, nextSymbol_bind,
      List.head?_cons, Option.map_some, Option.getD_some, isSymbol_delimiter, decide_true, if_true,
      advance_bind_cons]
    rw [bind_of_ok hfirst, bind_of_ok hothers]
    rfl

lemma read_items (hclose : close ≠ ",") (complaint : Complaint) (as : List α)
    (hopen : ∀ a ∈ as, ∀ us, ((spell a ++ us).head?.map (Token.isSymbol close)).getD false = false)
    (hitem : ∀ a ∈ as, ∀ us, w.AfterItem close us → item (spell a ++ us) = .ok (image a, us))
    (rest : List Token) :
    items item close complaint (w.separated (as.map spell) ++ w.delimiter close :: rest) =
      .ok (as.map image, rest) := by
  cases as with
  | nil =>
    simp only [List.map_nil, separated, List.nil_append, items, nextSymbol_bind, List.head?_cons,
      Option.map_some, Option.getD_some, isSymbol_delimiter, decide_true, if_true, advance_bind_cons,
      pure_apply]
  | cons a as =>
    have hafter : w.AfterItem close
        (as.flatMap (fun a => w.delimiter "," :: spell a) ++ w.delimiter close :: rest) := by
      cases as with
      | nil => exact ⟨close, rest, rfl, .inr rfl⟩
      | cons b bs => exact ⟨",", _, rfl, .inl rfl⟩
    have hfirst := hitem a (by simp) _ hafter
    have hlength : as.length <
        (as.flatMap (fun a => w.delimiter "," :: spell a) ++ w.delimiter close :: rest).length + 1 := by
      have := length_le_flatMap_cons spell (w.delimiter ",") as
      rw [List.length_append]
      omega
    have hothers := w.read_moreItems hclose as (fun b hb => hitem b (by simp [hb])) rest _ hlength
    rw [separated_map_cons, List.append_assoc]
    simp only [items, nextSymbol_bind, hopen a (by simp), Bool.false_eq_true, if_false]
    rw [bind_of_ok hfirst, rounds_bind, bind_of_ok hothers, bind_of_ok (w.read_delimiter _ _ _)]
    rfl

end

lemma ascription_spelled (type : Option String) :
    Grammar.Ascription (w.ascription type) type := by
  cases type with
  | none => exact .nothing
  | some name => exact @Grammar.Ascription.type _ (w.identifier name) (by simp) rfl

lemma parameter_spelled (p : Parameter) : Grammar.SpellsParameter (w.parameter p) p :=
  .parameter rfl (w.ascription_spelled p.ascription)

lemma separated_spelled (p : Parameter) (ps : List Parameter) :
    Grammar.Separated Grammar.SpellsParameter (w.separated ((p :: ps).map w.parameter)) (p :: ps) := by
  induction ps generalizing p with
  | nil => simpa [separated] using .one (w.parameter_spelled p)
  | cons q ps ih =>
    simpa [separated] using .more (w.parameter_spelled p) (w.isSymbol_delimiter "," ",") (ih q)

lemma parameters_spelled {ps : List Parameter} (hd : DistinctNames ps) :
    Grammar.Parameters (w.parameters ps) ps := by
  cases ps with
  | nil => exact .nothing (by simp) (by simp)
  | cons p ps => exact .some (by simp) (w.separated_spelled p ps) hd (by simp)

lemma read_ascription (type : Option String) {rest : List Token}
    (hrest : (rest.head?.map (Token.isSymbol ":")).getD false = false) :
    Parser.ascription (w.ascription type ++ rest) = .ok (type, rest) := by
  refine ascription_of_spelled (w.ascription_spelled type) fun t ht => ?_
  rwa [ht] at hrest

lemma read_parameters {ps : List Parameter} (hd : DistinctNames ps) (rest : List Token) :
    Parser.parameters (w.parameters ps ++ rest) = .ok (ps, rest) :=
  parameters_of_spelled (w.parameters_spelled hd) rest

/-- What stands in the place of a statement is read back whole, and it cannot be mistaken for a
separator, the end of a block or an entry of a map. -/
structure Standing (statement : Parser Node) (node : Node) : Prop where
  first : ∃ t us, w.standing node (w.tokens node) = t :: us ∧ t.isSymbol ";" = false ∧
    t.isSymbol "\x7d" = false
  unmapped : ∀ brace us, Token.looksLikeMap (brace ::
    (w.standing node (w.tokens node) ++ w.delimiter ";" :: us)) = false
  reads : ∀ us, statement (w.standing node (w.tokens node) ++ w.delimiter ";" :: us) =
    .ok (node.respan w.span, w.delimiter ";" :: us)

section

variable {statement : Parser Node} {nodes : List Node}

lemma skip_statements (h : ∀ n ∈ nodes, w.Standing statement n) (rest : List Token)
    (hrest : ∀ t ∈ rest.head?, t.isSymbol ";" = false) :
    (w.statements nodes ++ rest).dropWhile (Token.isSymbol ";") = w.statements nodes ++ rest := by
  cases nodes with
  | nil =>
    cases rest with
    | nil => rfl
    | cons t rest => simp [Writer.statements, hrest t rfl]
  | cons n nodes =>
    obtain ⟨t, us, ht, hfirst, _⟩ := (h n (by simp)).first
    simp [Writer.statements, ht, hfirst]

lemma read_blockStatements (h : ∀ n ∈ nodes, w.Standing statement n) (opening : Token)
    (rest : List Token) (k : Nat) (hk : nodes.length < k) :
    blockStatements statement opening k (w.statements nodes ++ w.delimiter "\x7d" :: rest) =
      .ok (nodes.map (Node.respan w.span), rest) := by
  induction nodes generalizing k with
  | nil =>
    obtain ⟨k, rfl⟩ : ∃ k', k = k' + 1 := ⟨k - 1, by omega⟩
    rfl
  | cons n nodes ih =>
    rw [List.length_cons] at hk
    obtain ⟨k, rfl⟩ : ∃ k', k = k' + 1 := ⟨k - 1, by omega⟩
    have hn := h n (by simp)
    have hnodes : ∀ n ∈ nodes, w.Standing statement n := fun m hm => h m (by simp [hm])
    have hskip := w.skip_statements hnodes (w.delimiter "\x7d" :: rest) (by simp)
    obtain ⟨t, us, ht, _, hclose⟩ := hn.first
    have hread := hn.reads (w.statements nodes ++ w.delimiter "\x7d" :: rest)
    rw [ht, List.cons_append] at hread
    simp only [Writer.statements, ht, List.cons_append, List.append_assoc, blockStatements,
      nextSymbol_bind, List.head?_cons, Option.map_some, Option.getD_some, hclose, Bool.false_eq_true,
      if_false, atEnd_bind, List.isEmpty_cons]
    rw [bind_of_ok hread]
    simp only [skipSeparators_bind, List.dropWhile_cons, isSymbol_delimiter, decide_true, if_true]
    rw [hskip, bind_of_ok (ih hnodes k (by omega))]
    rfl

lemma length_le_statements (nodes : List Node) : nodes.length ≤ (w.statements nodes).length := by
  induction nodes with
  | nil => simp
  | cons n nodes ih =>
    simp only [Writer.statements, List.length_append, List.length_cons]
    omega

lemma length_le_statements_of_mem {n : Node} (h : n ∈ nodes) :
    (w.standing n (w.tokens n)).length ≤ (w.statements nodes).length := by
  induction nodes with
  | nil => cases h
  | cons m nodes ih =>
    simp only [Writer.statements, List.length_append, List.length_cons]
    rcases List.mem_cons.1 h with rfl | h
    · omega
    · have := ih h
      omega

lemma read_block {inner : Inner} (h : ∀ n ∈ nodes, w.Standing inner.statement n) (rest : List Token) :
    block inner (w.braced (w.statements nodes) ++ rest) =
      .ok (.block w.span (nodes.map (Node.respan w.span)), rest) := by
  have hskip := w.skip_statements h (w.delimiter "\x7d" :: rest) (by simp)
  have hread := w.read_blockStatements h (w.delimiter "\x7b") rest
    ((w.statements nodes ++ w.delimiter "\x7d" :: rest).length + 1) (by
      have := w.length_le_statements nodes
      rw [List.length_append]
      omega)
  simp only [braced, enclosed, List.cons_append, List.append_assoc, List.nil_append, block]
  rw [bind_of_ok (w.read_delimiter _ _ _), skipSeparators_bind, hskip, rounds_bind,
    bind_of_ok hread]
  rfl

lemma read_programStatements (h : ∀ n ∈ nodes, w.Standing statement n) (k : Nat)
    (hk : nodes.length < k) :
    programStatements statement k (w.statements nodes) =
      .ok (nodes.map (Node.respan w.span), []) := by
  induction nodes generalizing k with
  | nil =>
    obtain ⟨k, rfl⟩ : ∃ k', k = k' + 1 := ⟨k - 1, by omega⟩
    rfl
  | cons n nodes ih =>
    rw [List.length_cons] at hk
    obtain ⟨k, rfl⟩ : ∃ k', k = k' + 1 := ⟨k - 1, by omega⟩
    have hn := h n (by simp)
    have hnodes : ∀ n ∈ nodes, w.Standing statement n := fun m hm => h m (by simp [hm])
    have hskip := w.skip_statements hnodes [] (by simp)
    rw [List.append_nil] at hskip
    obtain ⟨t, us, ht, _⟩ := hn.first
    have hread := hn.reads (w.statements nodes)
    rw [ht, List.cons_append] at hread
    simp only [Writer.statements, ht, List.cons_append, programStatements, atEnd_bind,
      List.isEmpty_cons, Bool.false_eq_true, if_false]
    rw [bind_of_ok hread]
    simp only [skipSeparators_bind, List.dropWhile_cons, isSymbol_delimiter, decide_true, if_true]
    rw [hskip, bind_of_ok (ih hnodes k (by omega))]
    rfl

end

end Writer

end Klang
