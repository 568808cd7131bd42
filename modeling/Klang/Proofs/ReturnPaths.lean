import Klang.Proofs.ParsedNodes
import Klang.Proofs.ReturnSignals

/-! The way of a `return`. Where evaluation comes to one through blocks, branches and the rounds of
loops, all of these end with it, and so does the call in whose function it stands. Nothing else of the
run ends. -/

namespace Klang

open Eval

namespace Node

variable {n : Node}

lemma IsExpression.returnsInside (h : n.IsExpression) : n.ReturnsInside := by
  induction hs : sizeOf n using Nat.strongRecOn generalizing n with
  | ind size ih =>
    subst hs
    refine .intro (by cases h <;> rfl) fun hf m hm => ?_
    exact ih (sizeOf m) (sizeOf_lt_of_mem_children hm) (h.child hf hm) rfl

end Node

namespace Eval

variable {α β : Type} {m : Eval α} {s u : Store} {v : Value}

lemma Contained.bind_returning {k : α → Eval β} (hm : Contained m)
    (h : (m >>= k) s = .error (.returning v) u) :
    ∃ a t, m s = .ok a t ∧ k a t = .error (.returning v) u := by
  cases hr : m s with
  | ok a t => exact ⟨a, t, rfl, (bind_ok hr).symm.trans h⟩
  | error e t =>
    rw [bind_error hr] at h
    cases h
    exact absurd hr (hm s v u)

lemma located_returning_iff {span : Option Source.Span} :
    located span m s = .error (.returning v) u ↔ m s = .error (.returning v) u := by
  rw [located]
  split
  · rename_i hr
    simp [hr]
  · exact Iff.rfl

end Eval

namespace Evaluator

section

variable (inner : Evaluator) (context : Context) (frame : FrameId)

inductive Reaches : List Node → Store → Node → Store → Prop
  | here {n rest s} : Reaches (n :: rest) s n s
  | later {n rest s v t m u} : inner.node context frame n s = .ok v t → Reaches rest t m u →
      Reaches (n :: rest) s m u

inductive WhileReaches (condition body : Node) : Nat → Store → FrameId → Store → Prop
  | here {rounds s t} : inner.node context frame condition s = .ok (.boolean true) t →
      WhileReaches condition body (rounds + 1) s t.frames.size (t.pushFrame (some frame))
  | later {rounds s t v u round w} : inner.node context frame condition s = .ok (.boolean true) t →
      inner.node context t.frames.size body (t.pushFrame (some frame)) = .ok v u →
      WhileReaches condition body rounds u round w →
      WhileReaches condition body (rounds + 1) s round w

inductive ForReaches (iterator : String) (body : Node) :
    List Value → Store → FrameId → Store → Prop
  | here {item items s v t} :
      declare s.frames.size iterator item false none (s.pushFrame (some frame)) = .ok v t →
      ForReaches iterator body (item :: items) s s.frames.size t
  | later {item items s v t w u round r} :
      declare s.frames.size iterator item false none (s.pushFrame (some frame)) = .ok v t →
      inner.node context s.frames.size body t = .ok w u →
      ForReaches iterator body items u round r →
      ForReaches iterator body (item :: items) s round r

/-- The meaning of a node comes to a statement in it: one of its statements, a branch, or the body of
a loop. -/
inductive Enters (bound : Nat) : Node → Store → FrameId → Node → Store → Prop
  | block {span nodes s m t} :
      Reaches inner context s.frames.size nodes (s.pushFrame (some frame)) m t →
      Enters bound (.block span nodes) s s.frames.size m t
  | program {span nodes s m t} : Reaches inner context frame nodes s m t →
      Enters bound (.program span nodes) s frame m t
  | thenBranch {span condition branch other s t} :
      inner.node context frame condition s = .ok (.boolean true) t →
      Enters bound (.conditional span condition branch other) s t.frames.size branch
        (t.pushFrame (some frame))
  | elseBranch {span condition branch other s t} :
      inner.node context frame condition s = .ok (.boolean false) t →
      Enters bound (.conditional span condition branch (some other)) s t.frames.size other
        (t.pushFrame (some frame))
  | whileLoop {span condition body s round t} :
      WhileReaches inner context frame condition body bound s round t →
      Enters bound (.whileLoop span condition body) s round body t
  | forLoop {span iterator iterable body s v t items u round r} :
      inner.node context frame iterable s = .ok v t → iterationItems v t = .ok items u →
      ForReaches inner context frame iterator body items u round r →
      Enters bound (.forLoop span iterator iterable body) s round body r

end

variable {inner : Evaluator} {context : Context} {frame round : FrameId} {n m condition body : Node}
  {nodes : List Node} {s t u : Store} {v last : Value} {e : Interrupt} {iterator : String}
  {items : List Value} {rounds bound : Nat}

lemma statements_of_reaches (h : Reaches inner context frame nodes s m t)
    (hm : inner.node context frame m t = .error e u) :
    statements inner context frame nodes last s = .error e u := by
  induction h generalizing last with
  | here => exact bind_error hm
  | later hn _ ih => exact (bind_ok hn).trans (ih hm)

lemma whileRounds_of_reaches
    (h : WhileReaches inner context frame condition body rounds s round t)
    (hm : inner.node context round body t = .error e u) :
    whileRounds inner context frame condition body rounds last s = .error e u := by
  induction h generalizing last with
  | @here rounds s t hc =>
    refine (bind_ok hc).trans ?_
    change (inner.node context t.frames.size body >>= _) (t.pushFrame (some frame)) = _
    exact bind_error hm
  | @later rounds s t v u round w hc hb _ ih =>
    refine (bind_ok hc).trans ?_
    change (inner.node context t.frames.size body >>= _) (t.pushFrame (some frame)) = _
    exact (bind_ok hb).trans (ih hm)

lemma forRounds_of_reaches (h : ForReaches inner context frame iterator body items s round t)
    (hm : inner.node context round body t = .error e u) :
    forRounds inner context frame iterator body items last s = .error e u := by
  induction h generalizing last with
  | here hd => exact (bind_ok hd).trans (bind_error hm)
  | later hd hb _ ih => exact (bind_ok hd).trans ((bind_ok hb).trans (ih hm))

lemma meaning_of_enters (h : Enters inner context frame bound n s round m t)
    (hm : inner.node context round m t = .error e u) :
    meaning inner bound context frame n s = .error e u := by
  cases h with
  | block hr | program hr => exact statements_of_reaches hr hm
  | thenBranch hc | elseBranch hc => exact (bind_ok hc).trans hm
  | whileLoop hr => exact whileRounds_of_reaches hr hm
  | forLoop hi hv hr => exact (bind_ok hi).trans ((bind_ok hv).trans (forRounds_of_reaches hr hm))

lemma reaches_of_statements (h : statements inner context frame nodes last s = .error e u) :
    ∃ m ∈ nodes, ∃ t, Reaches inner context frame nodes s m t ∧
      inner.node context frame m t = .error e u := by
  induction nodes generalizing last s with
  | nil => cases h
  | cons n nodes ih =>
    rw [statements] at h
    cases hn : inner.node context frame n s with
    | ok v t =>
      rw [bind_ok hn] at h
      obtain ⟨m, hm, w, hr, he⟩ := ih h
      exact ⟨m, List.mem_cons_of_mem _ hm, w, .later hn hr, he⟩
    | error e' t =>
      rw [bind_error hn] at h
      cases h
      exact ⟨n, List.mem_cons_self, s, .here, hn⟩

lemma expectBoolean_eq_ok {construct : Construct} {b : Bool}
    (h : expectBoolean construct v s = .ok b t) : v = .boolean b ∧ t = s := by
  cases v with
  | boolean =>
    cases h
    exact ⟨rfl, rfl⟩
  | _ => cases h

lemma whileReaches_of_rounds (hc : Contained (inner.node context frame condition))
    (h : whileRounds inner context frame condition body rounds last s = .error (.returning v) u) :
    ∃ round t, WhileReaches inner context frame condition body rounds s round t ∧
      inner.node context round body t = .error (.returning v) u := by
  induction rounds generalizing last s with
  | zero => cases h
  | succ rounds ih =>
    rw [whileRounds] at h
    obtain ⟨verdict, t, hverdict, h⟩ := hc.bind_returning h
    obtain ⟨go, t', hgo, h⟩ := (contained_expectBoolean _ _).bind_returning h
    obtain ⟨rfl, rfl⟩ := expectBoolean_eq_ok hgo
    cases go with
    | false => cases h
    | true =>
      change (inner.node context t'.frames.size body >>= _) (t'.pushFrame (some frame)) = _ at h
      cases hb : inner.node context t'.frames.size body (t'.pushFrame (some frame)) with
      | ok w r =>
        rw [bind_ok hb] at h
        obtain ⟨round, x, hr, hm⟩ := ih h
        exact ⟨round, x, .later hverdict hb hr, hm⟩
      | error e r =>
        rw [bind_error hb] at h
        cases h
        exact ⟨_, _, .here hverdict, hb⟩

lemma forReaches_of_rounds
    (h : forRounds inner context frame iterator body items last s = .error (.returning v) u) :
    ∃ round t, ForReaches inner context frame iterator body items s round t ∧
      inner.node context round body t = .error (.returning v) u := by
  induction items generalizing last s with
  | nil => cases h
  | cons item items ih =>
    change (declare s.frames.size iterator item false none >>= _) (s.pushFrame (some frame)) = _ at h
    obtain ⟨w, t, hd, h⟩ := (contained_declare _ _ _ _ _).bind_returning h
    cases hb : inner.node context s.frames.size body t with
    | ok w r =>
      rw [bind_ok hb] at h
      obtain ⟨round, x, hr, hm⟩ := ih h
      exact ⟨round, x, .later hd hb hr, hm⟩
    | error e r =>
      rw [bind_error hb] at h
      cases h
      exact ⟨_, _, .here hd, hb⟩

lemma entersBranch_of_meaning {span : Option Source.Span} {branch : Node} {other : Option Node}
    (hc : Contained (inner.node context frame condition))
    (h : meaning inner bound context frame (.conditional span condition branch other) s =
      .error (.returning v) u) :
    ∃ round t, ∃ m ∈ branch :: other.toList,
      Enters inner context frame bound (.conditional span condition branch other) s round m t ∧
      inner.node context round m t = .error (.returning v) u := by
  obtain ⟨verdict, t, hverdict, h⟩ := hc.bind_returning h
  obtain ⟨go, t', hgo, h⟩ := (contained_expectBoolean _ _).bind_returning h
  obtain ⟨rfl, rfl⟩ := expectBoolean_eq_ok hgo
  cases go with
  | true => exact ⟨_, _, branch, List.mem_cons_self, .thenBranch hverdict, h⟩
  | false =>
    cases other with
    | none => cases h
    | some other =>
      exact ⟨_, _, other, List.mem_cons_of_mem _ List.mem_cons_self, .elseBranch hverdict, h⟩

lemma enters_of_meaning (hi : inner.Contains) (hn : n.IsStatement ∨ n.IsProgram)
    (h : meaning inner bound context frame n s = .error (.returning v) u) :
    n.isReturn = true ∨ ∃ round m t, m.IsStatement ∧ Enters inner context frame bound n s round m t ∧
      inner.node context round m t = .error (.returning v) u := by
  have hcontained {m : Node} (hm : m.IsExpression) : Contained (inner.node context frame m) :=
    hi.node hm.returnsInside
  -- a statement that has only expressions in it lets no `return` out
  have hquiet (hq : n.ReturnsInside) {P : Prop} : P :=
    absurd h (contained_meaning hi bound hq s v u)
  rcases hn with hn | hn
  · have hinside {m : Node} (hm : m ∈ n.inside) : m.IsStatement := hn.inside hm
    cases hn with
    | expression he =>
      exact hquiet (.intro rfl fun _ => List.forall_mem_singleton.2 he.returnsInside)
    | declaration he =>
      exact hquiet (.intro rfl fun _ => List.forall_mem_singleton.2 he.returnsInside)
    | definition => exact hquiet (.intro rfl nofun)
    | returnNothing | returnValue => exact .inl rfl
    | conditional hn =>
      obtain ⟨span, condition, branch, other, rfl, hc⟩ : ∃ span condition branch other,
          n = .conditional span condition branch other ∧ condition.IsExpression := by
        cases hn with
        | ifOnly hc | ifElse hc | ifElseIf hc => exact ⟨_, _, _, _, rfl, hc⟩
      obtain ⟨round, t, m, hm, henters, he⟩ := entersBranch_of_meaning (hcontained hc) h
      exact .inr ⟨round, m, t, hinside hm, henters, he⟩
    | whileLoop hc _ =>
      obtain ⟨round, t, hr, he⟩ := whileReaches_of_rounds (hcontained hc) h
      exact .inr ⟨round, _, t, hinside List.mem_cons_self, .whileLoop hr, he⟩
    | forLoop hiterable _ =>
      obtain ⟨iterable, t, hiter, h⟩ := (hcontained hiterable).bind_returning h
      obtain ⟨items, t', hitems, h⟩ := (contained_iterationItems _).bind_returning h
      obtain ⟨round, r, hr, he⟩ := forReaches_of_rounds h
      exact .inr ⟨round, _, r, hinside List.mem_cons_self, .forLoop hiter hitems hr, he⟩
    | block hn =>
      cases hn with
      | block =>
        obtain ⟨m, hm, t, hr, he⟩ := reaches_of_statements h
        exact .inr ⟨_, m, t, hinside hm, .block hr, he⟩
  · cases hn with
    | program hs =>
      obtain ⟨m, hm, t, hr, he⟩ := reaches_of_statements h
      exact .inr ⟨_, m, t, hs m hm, .program hr, he⟩

def traced (context : Context) (n : Node) (s : Store) : Store :=
  s.logAll context.policies.debug [s!"[eval] {n.tag} @ {spanText n.span}"]

lemma visit_returning_iff : visit inner bound context frame n s = .error (.returning v) u ↔
    meaning inner bound context frame n (traced context n s) = .error (.returning v) u := by
  have hvisit : visit inner bound context frame n s =
      located n.span (meaning inner bound context frame n) (traced context n s) := by
    rw [visit, traced]
    cases context.policies.debug <;> rfl
  rw [hvisit, located_returning_iff]

end Evaluator

open Evaluator

/-- Evaluation of a node comes to a `return`, through blocks, branches and rounds of loops. -/
inductive Returns (context : Context) : Nat → FrameId → Node → Store → Value → Store → Prop
  | nothing {bound frame span s} : Returns context (bound + 1) frame (.returnStatement span none) s
      .null (traced context (.returnStatement span none) s)
  | value {bound frame span n s v t} : evaluateWithin bound context frame n
        (traced context (.returnStatement span (some n)) s) = .ok v t →
      Returns context (bound + 1) frame (.returnStatement span (some n)) s v t
  | inside {bound frame n s round m t v u} : Enters ⟨evaluateWithin bound, callWithin bound⟩ context
        frame bound n (traced context n s) round m t →
      Returns context bound round m t v u → Returns context (bound + 1) frame n s v u

variable {context : Context} {bound : Nat} {frame : FrameId} {n : Node} {s u : Store} {v : Value}

lemma Returns.evaluates (h : Returns context bound frame n s v u) :
    evaluateWithin bound context frame n s = .error (.returning v) u := by
  induction h with
  | nothing =>
    rw [evaluateWithin, visit_returning_iff]
    rfl
  | value hv =>
    rw [evaluateWithin, visit_returning_iff]
    exact bind_ok hv
  | inside he _ ih =>
    rw [evaluateWithin, visit_returning_iff]
    exact meaning_of_enters he ih

lemma returns_of_meaning (hn : n.IsStatement ∨ n.IsProgram) (hreturn : n.isReturn = true)
    (h : meaning ⟨evaluateWithin bound, callWithin bound⟩ bound context frame n
      (traced context n s) = .error (.returning v) u) :
    Returns context (bound + 1) frame n s v u := by
  cases n with
  | returnStatement span value =>
    cases value with
    | none =>
      cases h
      exact .nothing
    | some value =>
      have hvalue : value.IsExpression := by
        match hn with
        | .inl (.returnValue hv) => exact hv
      obtain ⟨w, t, hw, h⟩ := ((contains_within bound).node hvalue.returnsInside).bind_returning h
      cases h
      exact .value hw
  | _ => cases hreturn

lemma returns_iff (hn : n.IsWellFormed) : evaluateWithin bound context frame n s =
    .error (.returning v) u ↔ Returns context bound frame n s v u := by
  refine ⟨fun h => ?_, Returns.evaluates⟩
  rcases hn with hn | hn
  · exact absurd h ((contains_within bound).node hn.returnsInside s v u)
  · induction bound generalizing frame n s with
    | zero => cases h
    | succ bound ih =>
      rw [evaluateWithin, visit_returning_iff] at h
      obtain hreturn | ⟨round, m, t, hm, henters, he⟩ :=
        enters_of_meaning (contains_within bound) hn h
      · exact returns_of_meaning hn hreturn h
      · exact .inside henters (ih he (.inl hm))

def called (context : Context) (closure : Closure) (arguments : List Value) (s : Store) : Store :=
  let name := if closure.name = "" then "<anonymous function>" else closure.name
  s.logAll context.policies.debug [s!"[call] {name}({arguments.length} args)"]

/-- A call comes to a `return` in the body of its function, and to no further call on the way. -/
inductive CallReturns (context : Context) (closure : Closure) (arguments : List Value) :
    Nat → Store → Value → Store → Prop
  | body {bound callsLeft s t m u v w} : arguments.length = closure.parameters.length →
      bindParameters s.frames.size closure.parameters arguments (s.pushFrame (some closure.frame)) =
        .ok () t →
      context.callsLeft = callsLeft + 1 →
      Reaches ⟨evaluateWithin bound, callWithin bound⟩ { context with callsLeft } s.frames.size
        closure.body.statements (called context closure arguments t) m u →
      Returns { context with callsLeft } bound s.frames.size m u v w →
      CallReturns context closure arguments (bound + 1) s v w

lemma CallReturns.calls {closure : Closure} {arguments : List Value}
    (h : CallReturns context closure arguments bound s v u) (caller : Option FrameId) :
    callWithin bound context (.function closure) arguments caller s = .ok v u := by
  cases h with
  | @body bound callsLeft _ t _ _ _ _ harity hbind hleft hreaches hreturns =>
    have hbody : statements ⟨evaluateWithin bound, callWithin bound⟩ { context with callsLeft }
        s.frames.size closure.body.statements .null (called context closure arguments t) =
          .error (.returning v) u := statements_of_reaches hreaches hreturns.evaluates
    have hresult : callResult context.policies (statements ⟨evaluateWithin bound, callWithin bound⟩
        { context with callsLeft } s.frames.size closure.body.statements .null)
          (called context closure arguments t) = .ok v u := by
      rw [callResult, hbody]
    rw [callWithin, perform, callClosure]
    simp only [arityFault?, if_pos harity, hleft]
    change (bindParameters s.frames.size closure.parameters arguments >>= _)
      (s.pushFrame (some closure.frame)) = _
    rw [bind_ok hbind]
    rw [called] at hresult
    cases hdebug : context.policies.debug with
    | false | true =>
      rw [hdebug] at hresult
      exact hresult

/-- No `return` leaves a call, nor a node in which each stands in a function, as in all expressions. It
leaves other nodes just if evaluation comes to it, through whatever blocks, branches and rounds of
loops, and then it ends the call in whose function it stands: its value is that of the call, and
nothing happens behind it. -/
theorem return_ends_call (bound : Nat) (context : Context) :
    (∀ function arguments caller, Contained (callWithin bound context function arguments caller)) ∧
    (∀ n : Node, n.ReturnsInside → ∀ frame, Contained (evaluateWithin bound context frame n)) ∧
    (∀ n : Node, n.IsExpression ∨ (∃ tokens, parseExpression tokens = .ok n) → n.ReturnsInside) ∧
    (∀ n : Node, n.IsParsed → ∀ frame s v u, evaluateWithin bound context frame n s =
      .error (.returning v) u ↔ Returns context bound frame n s v u) ∧
    ∀ closure arguments s v u, CallReturns context closure arguments bound s v u →
      ∀ caller, callWithin bound context (.function closure) arguments caller s = .ok v u := by
  refine ⟨?_, ?_, ?_, ?_, ?_⟩
  · exact (contains_within bound).call context
  · exact fun n hn frame => (contains_within bound).node hn
  · rintro n (hn | ⟨tokens, hn⟩)
    · exact hn.returnsInside
    · exact (isExpression_of_parseExpression hn).returnsInside
  · exact fun n hn frame s v u => returns_iff hn.isWellFormed
  · exact fun closure arguments s v u h => h.calls

theorem return_ends_call_loop :
    let context := Context.ofPolicies {}
    let token (kind : TokenKind) (value : String) : Token := ⟨kind, value, default⟩
    let word : Node := .returnStatement (some default) none
    let function : Node := .function (some default) [] (.block (some default) [word])
    let loop : Node := .whileLoop none (.boolean none true) (.block none [.conditional none
      (.boolean none true) (.block none [.returnStatement none (some (.boolean none true))]) none])
    let closure : Closure := ⟨"", [], .block none [loop, word], rootFrame⟩
    parseExpression [token .keyword "forge", token .delimiter "(", token .delimiter ")",
      token .delimiter "\x7b", token .keyword "return", token .delimiter "\x7d", token .eof ""] =
        .ok function ∧
    Contained (evaluateWithin 8 context rootFrame function) ∧
    (∀ s, evaluateWithin 8 context rootFrame word s = .error (.returning .null) s) ∧
    ∃ after, callWithin 8 context (.function closure) [] none (standardStore {}) =
      .ok (.boolean true) after := by
  intro context token word function loop closure
  obtain ⟨-, hcontained, hexpression, hparsed, hcalls⟩ := return_ends_call 8 context
  have hread : parseExpression [token .keyword "forge", token .delimiter "(", token .delimiter ")",
    token .delimiter "\x7b", token .keyword "return", token .delimiter "\x7d", token .eof ""] =
      .ok function := rfl
  have hword : word.IsParsed := by
    refine ⟨_, function, .inr hread, Node.mem_preorder.2 (.inr ⟨_, List.mem_cons_self, ?_⟩)⟩
    exact Node.mem_preorder.2 (.inr ⟨_, List.mem_cons_self, Node.mem_preorder.2 (.inl rfl)⟩)
  have hreturns : ∃ after, CallReturns context closure [] 8 (standardStore {}) (.boolean true) after :=
    ⟨_, .body rfl rfl rfl .here (.inside (.whileLoop (.here rfl)) (.inside (.block .here)
      (.inside (.thenBranch rfl) (.inside (.block .here) (.value rfl)))))⟩
  obtain ⟨after, hreturns⟩ := hreturns
  exact ⟨hread, hcontained _ (hexpression _ (.inr ⟨_, hread⟩)) _,
    fun s => (hparsed _ hword _ _ _ _).2 .nothing, after, hcalls _ _ _ _ _ hreturns none⟩

end Klang
