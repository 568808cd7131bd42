import Klang.Proofs.Grammar

/-! Writing trees as tokens. An operand stands in parentheses only where its level is looser than
the one that its place asks for, and a semicolon stands behind every statement. -/

namespace Klang

open Source

namespace BinaryOperator

def level : BinaryOperator → Level
  | or => .disjunction
  | and => .conjunction
  | equal | unequal => .equality
  | less | lessEqual | greater | greaterEqual => .relational
  | add | subtract => .additive
  | multiply | divide | remainder => .multiplicative
  | other _ => .primary

end BinaryOperator

def Node.level : Node → Level
  | .assignment .. => .assignment
  | .binary _ operator _ _ => operator.level
  | .unary .. => .unary
  | .call .. | .index .. => .suffixed
  | _ => .primary

/-- A way to write tokens: a numeral for every number that has one, and a span for all tokens. -/
structure Writer where
  numeral : Float → String
  reads : ∀ x, Number.IsWritable x → Number.ofNumeral? (numeral x).toList = some x
  span : Span

namespace Writer

open scoped Classical in
noncomputable def standard (span : Span) : Writer where
  numeral x := if h : Number.IsWritable x then String.ofList h.choose else ""
  reads x h := by
    rw [dif_pos h, String.toList_ofList]
    exact h.choose_spec
  span := span

section

variable (w : Writer)

def token (kind : TokenKind) (value : String) : Token := ⟨kind, value, w.span⟩

def keyword : String → Token := w.token .keyword

def identifier : String → Token := w.token .identifier

def operator : String → Token := w.token .operator

def delimiter : String → Token := w.token .delimiter

def enclosed (opening closing : String) (ts : List Token) : List Token :=
  w.delimiter opening :: (ts ++ [w.delimiter closing])

def parenthesized : List Token → List Token := w.enclosed "(" ")"

def bracketed : List Token → List Token := w.enclosed "[" "]"

def braced : List Token → List Token := w.enclosed "\x7b" "\x7d"

def placed (level : Level) (node : Node) (ts : List Token) : List Token :=
  if node.level.rank < level.rank then w.parenthesized ts else ts

def separated : List (List Token) → List Token
  | [] => []
  | ts :: others => ts ++ others.flatMap (w.delimiter "," :: ·)

def ascription : Option String → List Token
  | none => []
  | some type => [w.delimiter ":", w.identifier type]

def parameter (p : Parameter) : List Token := w.identifier p.name :: w.ascription p.ascription

def parameters (ps : List Parameter) : List Token :=
  w.parenthesized (w.separated (ps.map w.parameter))

/-- Without a semicolon an empty block would be an empty map. -/
def standing (node : Node) (ts : List Token) : List Token :=
  match node with
  | .block _ [] => w.braced [w.delimiter ";"]
  | _ => ts

end

mutual

def tokens (w : Writer) : Node → List Token
  | .unknown _ => []
  | .number _ value => [w.token .number (w.numeral value)]
  | .string _ value => [w.token .string value]
  | .boolean _ value => [w.keyword (if value then "true" else "false")]
  | .list _ elements => w.bracketed (w.separated (w.each elements))
  | .map _ entries => w.braced (w.separated (w.entries entries))
  | .identifier _ name => [w.identifier name]
  | .unary _ operator operand =>
    w.operator operator.symbol :: w.placed .unary operand (w.tokens operand)
  | .binary _ operator left right =>
    w.placed operator.level left (w.tokens left) ++
      w.operator operator.symbol :: w.placed operator.level.tighter right (w.tokens right)
  | .index _ target key => w.placed .suffixed target (w.tokens target) ++ w.bracketed (w.tokens key)
  | .assignment _ target value =>
    w.placed .disjunction target (w.tokens target) ++ w.operator "=" :: w.tokens value
  | .call _ callee arguments =>
    w.placed .suffixed callee (w.tokens callee) ++ w.parenthesized (w.separated (w.each arguments))
  | .function _ parameters body => w.keyword "def" :: (w.parameters parameters ++ w.tokens body)
  | .block _ statements => w.braced (w.statements statements)
  | .expressionStatement _ expression => w.tokens expression
  | .declaration _ name value isFinal ascription =>
    w.keyword (if isFinal then "final" else "let") :: w.identifier name ::
      (w.ascription ascription ++ w.operator "=" :: w.tokens value)
  | .definition _ name parameters body =>
    w.keyword "def" :: w.identifier name :: (w.parameters parameters ++ w.tokens body)
  | .conditional _ condition thenBranch elseBranch =>
    w.keyword "if" :: (w.tokens condition ++ w.tokens thenBranch ++ w.otherwise elseBranch)
  | .whileLoop _ condition body => w.keyword "while" :: (w.tokens condition ++ w.tokens body)
  | .forLoop _ iterator iterable body =>
    w.keyword "for" :: w.identifier iterator :: w.keyword "in" ::
      (w.tokens iterable ++ w.tokens body)
  | .returnStatement _ value => w.keyword "return" :: w.optional value
  | .program _ statements => w.statements statements

def each (w : Writer) : List Node → List (List Token)
  | [] => []
  | node :: nodes => w.tokens node :: w.each nodes

def entry (w : Writer) : String × Node → List Token
  | (key, value) => w.token .string key :: w.delimiter ":" :: w.tokens value

def entries (w : Writer) : List (String × Node) → List (List Token)
  | [] => []
  | e :: others => w.entry e :: w.entries others

def optional (w : Writer) : Option Node → List Token
  | none => []
  | some node => w.tokens node

def otherwise (w : Writer) : Option Node → List Token
  | none => []
  | some node => w.keyword "else" :: w.tokens node

def statements (w : Writer) : List Node → List Token
  | [] => []
  | node :: nodes =>
    w.standing node (w.tokens node) ++ w.delimiter ";" :: w.statements nodes

end

section

variable (w : Writer)

def Wrote (ts : List Token) : Prop := ∀ t ∈ ts, t.span = w.span ∧ t.kind ≠ .eof

@[simp] lemma wrote_nil : w.Wrote [] := List.forall_mem_nil _

@[simp] lemma wrote_cons (t : Token) (ts : List Token) :
    w.Wrote (t :: ts) ↔ (t.span = w.span ∧ t.kind ≠ .eof) ∧ w.Wrote ts := List.forall_mem_cons

@[simp] lemma wrote_append (ts us : List Token) :
    w.Wrote (ts ++ us) ↔ w.Wrote ts ∧ w.Wrote us := List.forall_mem_append

@[simp] lemma wrote_enclosed (opening closing : String) (ts : List Token) :
    w.Wrote (w.enclosed opening closing ts) ↔ w.Wrote ts := by
  simp [enclosed, delimiter, token]

lemma wrote_placed {level : Level} {node : Node} {ts : List Token} (h : w.Wrote ts) :
    w.Wrote (w.placed level node ts) := by
  simp only [placed]
  split
  · simpa [parenthesized] using h
  · exact h

lemma wrote_standing {node : Node} {ts : List Token} (h : w.Wrote ts) :
    w.Wrote (w.standing node ts) := by
  simp only [standing]
  split
  · simp [braced, delimiter, token]
  · exact h

lemma wrote_separated {tss : List (List Token)} (h : ∀ ts ∈ tss, w.Wrote ts) :
    w.Wrote (w.separated tss) := by
  cases tss with
  | nil => simp [separated]
  | cons ts tss =>
    simp only [separated, wrote_append]
    refine ⟨h ts (by simp), fun t ht => ?_⟩
    obtain ⟨us, hus, ht⟩ := List.mem_flatMap.1 ht
    rcases List.mem_cons.1 ht with rfl | ht
    · exact ⟨rfl, by simp [delimiter, token]⟩
    · exact h us (by simp [hus]) t ht

lemma wrote_parameters (ps : List Parameter) : w.Wrote (w.parameters ps) := by
  simp only [parameters, parenthesized, wrote_enclosed]
  refine w.wrote_separated fun ts hts => ?_
  obtain ⟨p, _, rfl⟩ := List.mem_map.1 hts
  cases h : p.ascription <;> simp [parameter, ascription, h, identifier, delimiter, token]

lemma wrote_ascription (type : Option String) : w.Wrote (w.ascription type) := by
  cases type <;> simp [ascription, identifier, delimiter, token]

mutual

lemma wrote_tokens (node : Node) : w.Wrote (w.tokens node) := by
  cases node with
  | unknown | number | string | boolean | identifier =>
    simp [tokens, keyword, Writer.identifier, token]
  | list _ elements => simpa [tokens, bracketed] using w.wrote_separated (wrote_each elements)
  | map _ entries => simpa [tokens, braced] using w.wrote_separated (wrote_entries entries)
  | unary _ operator operand =>
    simpa [tokens, Writer.operator, token] using w.wrote_placed (wrote_tokens operand)
  | binary _ operator left right =>
    simpa [tokens, Writer.operator, token] using
      ⟨w.wrote_placed (wrote_tokens left), w.wrote_placed (wrote_tokens right)⟩
  | index _ target key =>
    simpa [tokens, bracketed] using ⟨w.wrote_placed (wrote_tokens target), wrote_tokens key⟩
  | assignment _ target value =>
    simpa [tokens, Writer.operator, token] using
      ⟨w.wrote_placed (wrote_tokens target), wrote_tokens value⟩
  | call _ callee arguments =>
    simpa [tokens, parenthesized] using
      ⟨w.wrote_placed (wrote_tokens callee), w.wrote_separated (wrote_each arguments)⟩
  | function _ parameters body | definition _ _ parameters body =>
    simpa [tokens, keyword, Writer.identifier, token] using
      ⟨w.wrote_parameters parameters, wrote_tokens body⟩
  | block _ nodes => simpa [tokens, braced] using wrote_statements nodes
  | expressionStatement _ expression => exact wrote_tokens expression
  | declaration _ _ value _ type =>
    simpa [tokens, keyword, Writer.identifier, Writer.operator, token] using
      ⟨w.wrote_ascription type, wrote_tokens value⟩
  | conditional _ condition thenBranch elseBranch =>
    simpa [tokens, keyword, token] using
      ⟨wrote_tokens condition, wrote_tokens thenBranch, wrote_otherwise elseBranch⟩
  | whileLoop _ condition body =>
    simpa [tokens, keyword, token] using ⟨wrote_tokens condition, wrote_tokens body⟩
  | forLoop _ _ iterable body =>
    simpa [tokens, keyword, Writer.identifier, token] using
      ⟨wrote_tokens iterable, wrote_tokens body⟩
  | returnStatement _ value => simpa [tokens, keyword, token] using wrote_optional value
  | program _ nodes => exact wrote_statements nodes

lemma wrote_each (nodes : List Node) : ∀ ts ∈ w.each nodes, w.Wrote ts := by
  cases nodes with
  | nil => simp [each]
  | cons node nodes => simpa [each] using ⟨wrote_tokens node, wrote_each nodes⟩

lemma wrote_entry (e : String × Node) : w.Wrote (w.entry e) := by
  obtain ⟨key, value⟩ := e
  simpa [entry, token, delimiter] using wrote_tokens value

lemma wrote_entries (entries : List (String × Node)) : ∀ ts ∈ w.entries entries, w.Wrote ts := by
  cases entries with
  | nil => simp [Writer.entries]
  | cons e entries => simpa [Writer.entries] using ⟨wrote_entry e, wrote_entries entries⟩

lemma wrote_optional (node : Option Node) : w.Wrote (w.optional node) := by
  cases node with
  | none => exact w.wrote_nil
  | some node => exact wrote_tokens node

lemma wrote_otherwise (node : Option Node) : w.Wrote (w.otherwise node) := by
  cases node with
  | none => exact w.wrote_nil
  | some node => simpa [otherwise, keyword, token] using wrote_tokens node

lemma wrote_statements (nodes : List Node) : w.Wrote (w.statements nodes) := by
  cases nodes with
  | nil => exact w.wrote_nil
  | cons node nodes =>
    simpa [Writer.statements, delimiter, token] using
      ⟨w.wrote_standing (wrote_tokens node), wrote_statements nodes⟩

end

end

end Writer

end Klang
