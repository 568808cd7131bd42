import Klang.Proofs.NodeParts
import Klang.Proofs.ProgramSoundness

/-! Every node of a parsed tree is well-formed. -/

namespace Klang

lemma isProgram_of_parseProgram {tokens : List Token} {program : Node}
    (h : parseProgram tokens = .ok program) : program.IsProgram := by
  cases hsplit : Parser.splitInput? tokens with
  | none =>
    rw [parseProgram, hsplit] at h
    cases h
  | some input =>
    obtain ⟨body, last⟩ := input
    obtain ⟨nodes, rest, hp, rfl⟩ := (Parser.parseProgram_eq_ok hsplit).1 h
    simp only [Parser.program, Parser.rounds_bind, Parser.skipSeparators_bind] at hp
    obtain ⟨_, hs⟩ := Parser.reads_programStatements (Parser.sound_descend _).statement hp
    exact .program hs.all_isStatement

lemma everywhere_of_parseProgram {tokens : List Token} {program : Node}
    (h : parseProgram tokens = .ok program) : program.Everywhere Node.IsWellFormed :=
  Node.IsWellFormed.everywhere (.inr (.inr (isProgram_of_parseProgram h)))

lemma isExpression_of_parseExpression {tokens : List Token} {node : Node}
    (h : parseExpression tokens = .ok node) : node.IsExpression := by
  have hreads {body rest : List Token} (hp : Parser.singleExpression body = .ok (node, rest)) :
      node.IsExpression := by
    simp only [Parser.singleExpression, Parser.rounds_bind, Parser.bind_eq_ok,
      Parser.atEnd_bind, Parser.if_apply] at hp
    obtain ⟨value, mid, hv, hend⟩ := hp
    split at hend
    · cases hend
      obtain ⟨used, _, he⟩ := (Parser.sound_descend _).expression _ _ _ hv
      exact he.isExpression
    · cases hend
  unfold parseExpression Parser.run at h
  split at h
  · cases h
  · rename_i body last _
    split at h
    · rename_i result rest hp
      cases h
      exact hreads hp
    · cases h
    · cases h

def Node.IsParsed (node : Node) : Prop :=
  ∃ tokens root, (parseProgram tokens = .ok root ∨ parseExpression tokens = .ok root) ∧
    node ∈ root.preorder

lemma Node.IsParsed.isWellFormed {node : Node} (h : node.IsParsed) : node.IsWellFormed := by
  obtain ⟨tokens, root, hroot, hm⟩ := h
  have hwell : root.Everywhere IsWellFormed := by
    rcases hroot with h | h
    · exact everywhere_of_parseProgram h
    · exact IsWellFormed.everywhere (.inl (isExpression_of_parseExpression h))
  exact hwell.of_mem_preorder hm

end Klang
