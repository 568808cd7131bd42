import Klang.Proofs.Concatenation.Runs
import Klang.Proofs.Lockstep.Code
import Klang.Proofs.ParsedNodes

/-! Programs never reach the defences of the evaluator. No node is without meaning, and wherever a name
is bound in a frame that was made for it, the name is free. -/

namespace Klang

open Eval

def Eval.insisting {α : Type} (action : Eval α) : Eval α := fun store =>
  match action store with
  | .error (.fault (.redeclared _) _) store => .error .exhausted store
  | result => result

namespace Evaluator

variable (inner : Evaluator) (bound : Nat) (context : Context)

def insistentRounds (frame : FrameId) (iterator : String) (body : Node) :
    List Value → Value → Eval Value
  | [], last => return last
  | item :: rest, _ => do
    let round ← child frame
    let _ ← insisting (declare round iterator item false none)
    let value ← inner.node context round body
    insistentRounds frame iterator body rest value

def insistentMeaning (frame : FrameId) : Node → Eval Value
  | .forLoop _ iterator iterable body => do
    let values ← iterationItems (← inner.node context frame iterable)
    insistentRounds inner context frame iterator body values .null
  | node => meaning inner bound context frame node

def insistentVisit (frame : FrameId) (node : Node) : Eval Value := do
  if context.policies.debug then log s!"[eval] {node.tag} @ {spanText node.span}"
  located node.span (insistentMeaning inner bound context frame node)

def insistentPerform (function : Value) (arguments : List Value) (caller : Option FrameId) :
    Eval Value := do
  match function with
  | .function closure =>
    let name := if closure.name = "" then "<anonymous function>" else closure.name
    raiseIf (arityFault? name arguments closure.parameters.length)
    let frame ← child closure.frame
    insisting (bindParameters frame closure.parameters arguments)
    runBody inner context closure arguments.length frame
  | _ => perform inner bound context function arguments caller

end Evaluator

mutual

/-- Evaluation that gives up as soon as a parameter or the variable of a loop is taken. -/
def evaluateInsisting : Nat → Context → FrameId → Node → Eval Value
  | 0, _, _, _ => throw .exhausted
  | bound + 1, context, frame, node =>
    Evaluator.insistentVisit ⟨evaluateInsisting bound, callInsisting bound⟩ bound context frame node

def callInsisting : Nat → Context → Value → List Value → Option FrameId → Eval Value
  | 0, _, _, _, _ => throw .exhausted
  | bound + 1, context, function, arguments, caller =>
    Evaluator.insistentPerform ⟨evaluateInsisting bound, callInsisting bound⟩ bound context function
      arguments caller

end

def runInsisting (policies : Policies) (frame : FrameId) (program : Node) : Eval Value :=
  fun store => settle policies
    (evaluateInsisting stepBound (.ofPolicies policies) frame program store)

namespace Eval

lemma child_bind_congr {β : Type} {parent : FrameId} {k k' : FrameId → Eval β}
    (h : ∀ frame s, s.bindings frame = .empty → k frame s = k' frame s) :
    (child parent >>= k) = child parent >>= k' := by
  funext s
  have hchild : child parent s = .ok s.frames.size (s.pushFrame (some parent)) := rfl
  rw [bind_ok hchild, bind_ok hchild]
  apply h
  simp [Store.bindings, Store.pushFrame]

lemma insisting_bind {α β : Type} {m : Eval α} {s : Store}
    (h : ∀ name span t, m s ≠ .error (.fault (.redeclared name) span) t) (k : α → Eval β) :
    (insisting m >>= k) s = (m >>= k) s := by
  have hm : insisting m s = m s := by
    unfold insisting
    split
    · rename_i hr
      exact absurd hr (h _ _ _)
    · rfl
  cases hr : m s with
  | ok a t => rw [bind_ok hr, bind_ok (hm.trans hr)]
  | error e t => rw [bind_error hr, bind_error (hm.trans hr)]

lemma declare_ne_redeclared {frame : FrameId} {name : String} {s : Store}
    (hname : (s.bindings frame).contains name = false) (value : Value) (isFinal : Bool)
    (ascription : Option String) (name' : String) (span : Option Source.Span) (t : Store) :
    declare frame name value isFinal ascription s ≠ .error (.fault (.redeclared name') span) t := by
  rw [declare_apply, hname]
  simp only [Bool.false_eq_true, if_false]
  split
  · rename_i fault hfault
    intro h
    cases h
    unfold bindingFault? ascriptionFault? resolveAscription at hfault
    grind
  · intro h
    cases h

end Eval

namespace Evaluator

lemma bindParameters_ne_redeclared {frame : FrameId} {parameters : List Parameter}
    (hd : DistinctNames parameters) {s : Store}
    (hfree : ∀ parameter ∈ parameters, (s.bindings frame).contains parameter.name = false)
    (arguments : List Value) (name : String) (span : Option Source.Span) (t : Store) :
    bindParameters frame parameters arguments s ≠ .error (.fault (.redeclared name) span) t := by
  induction parameters generalizing s arguments with
  | nil => exact nofun
  | cons parameter parameters ih =>
    cases arguments with
    | nil => exact nofun
    | cons value values =>
      rw [DistinctNames, List.map_cons, List.nodup_cons] at hd
      have hfirst := hfree parameter List.mem_cons_self
      rw [bindParameters]
      cases hr : declare frame parameter.name value false parameter.ascription s with
      | error e u =>
        rw [bind_error hr]
        intro he
        cases he
        exact declare_ne_redeclared hfirst value false parameter.ascription name span t hr
      | ok v u =>
        rw [bind_ok hr]
        refine ih hd.2 (fun other ho => ?_) values
        have hne : other.name ≠ parameter.name := by
          rintro he
          exact hd.1 (he ▸ List.mem_map_of_mem ho)
        rw [declare_apply, hfirst] at hr
        simp only [Bool.false_eq_true, if_false] at hr
        split at hr
        · cases hr
        · cases hr
          rw [Table.contains, Store.find?_setBinding, if_neg fun h => hne h.2]
          exact hfree other (List.mem_cons_of_mem _ ho)

variable (inner : Evaluator) (bound : Nat) (context : Context) (frame : FrameId)

lemma insistentRounds_eq (iterator : String) (body : Node) (items : List Value) (last : Value) :
    insistentRounds inner context frame iterator body items last =
      forRounds inner context frame iterator body items last := by
  induction items generalizing last with
  | nil => rfl
  | cons item items ih =>
    refine child_bind_congr fun round s hs => ?_
    have hfree : (s.bindings round).contains iterator = false := by
      rw [hs]
      rfl
    rw [insisting_bind (declare_ne_redeclared hfree item false none)]
    simp only [ih]

lemma insistentVisit_eq (n : Node) :
    insistentVisit inner bound context frame n = visit inner bound context frame n := by
  have hmeaning : insistentMeaning inner bound context frame n =
      meaning inner bound context frame n := by
    cases n with
    | forLoop => simp only [insistentMeaning, meaning, insistentRounds_eq]
    | _ => rfl
  rw [insistentVisit, hmeaning, visit]

lemma insistentPerform_eq {closure : Closure} (hd : DistinctNames closure.parameters)
    (arguments : List Value) (caller : Option FrameId) :
    insistentPerform inner bound context (.function closure) arguments caller =
      perform inner bound context (.function closure) arguments caller := by
  have hcall : (child closure.frame >>= fun frame => do
        insisting (bindParameters frame closure.parameters arguments)
        runBody inner context closure arguments.length frame) =
      (child closure.frame >>= fun frame => do
        bindParameters frame closure.parameters arguments
        runBody inner context closure arguments.length frame) := by
    refine child_bind_congr fun frame s hs => ?_
    have hfree (parameter : Parameter) (_ : parameter ∈ closure.parameters) :
        (s.bindings frame).contains parameter.name = false := by
      rw [hs]
      rfl
    rw [insisting_bind (bindParameters_ne_redeclared hd hfree arguments)]
  rw [insistentPerform, hcall, perform, callClosure_eq]

end Evaluator

abbrev wellFormedCode : Lockstep := .code (fun _ => True) (fun _ => True) id (fun _ => True) True

lemma lawful_wellFormedCode : wellFormedCode.Lawful :=
  Lockstep.lawful_code (fun _ _ => trivial) fun _ => rfl

lemma follows_insisting (bound : Nat) :
    Evaluator.Follows wellFormedCode ⟨evaluateWithin bound, callWithin bound⟩
      ⟨evaluateInsisting bound, callInsisting bound⟩ := by
  have hd := lawful_wellFormedCode
  induction bound with
  | zero =>
    exact ⟨fun _ _ => Lockstep.along_throw .exhausted,
      fun _ _ _ _ => Lockstep.along_throw .exhausted⟩
  | succ bound ih =>
    constructor
    · intro context frame n hp hn
      simp only [evaluateWithin, evaluateInsisting, Evaluator.insistentVisit_eq]
      exact Lockstep.along_visit ih hd (Lockstep.carriesBinary ih hd fun _ => rfl) hp bound hn
    · intro context function arguments caller hp hf ha
      have h := Lockstep.goes_perform ih hd (Lockstep.carriesBody ih hd fun _ => rfl) hp bound hf ha
        caller
      simp only [callWithin, callInsisting]
      cases function with
      | function c =>
        -- Its parameters have distinct names, since all functions of the run come from its code.
        rw [show wellFormedCode.image (.function c) = .function c from rfl,
          Evaluator.insistentPerform_eq _ _ _ hf.1]
        exact h
      | _ => exact h

inductive Store.InSession (installed : Policies) (extra : List (String × HostFunction)) :
    Store → Prop
  | fresh {start : Store} : globalStore installed extra = .ok start → InSession installed extra start
  | next {s : Store} (debug : Bool) (policies : Policies) (file source : String) :
      InSession installed extra s → InSession installed extra (runSource debug policies file source s).2

lemma stores_wellFormedCode {s : Store} (hs : s.Holds wellFormedCode.value) :
    wellFormedCode.Stores s s :=
  .refl rfl hs (.empty s)

lemma everywhere_of_readProgram {file source : String} {program : Node}
    (h : (readProgram file source).result = .ok program) :
    program.Everywhere fun n => n.IsWellFormed ∧ True := by
  obtain ⟨tokens, _, hparse⟩ := readProgram_eq_ok h
  exact (everywhere_of_parseProgram hparse).mono fun n hn => ⟨hn, trivial⟩

lemma ends_evaluate {s : Store} (hs : s.Holds wellFormedCode.value) {file source : String}
    {program : Node} (hread : (readProgram file source).result = .ok program) (policies : Policies) :
    wellFormedCode.Ends (fun _ => True) wellFormedCode.Imaged
      (evaluate policies rootFrame program s)
      (evaluateInsisting stepBound (.ofPolicies policies) rootFrame program s) := by
  have hpolicy : wellFormedCode.policy (Context.ofPolicies policies).policies := trivial
  exact (follows_insisting stepBound).node hpolicy (everywhere_of_readProgram hread) s s
    (stores_wellFormedCode hs)

lemma finalStore_settle (policies : Policies) (r : EStateM.Result Interrupt Store Value) :
    finalStore (settle policies r) = finalStore r := by
  unfold settle
  split
  · split <;> rfl
  · rfl

lemma Outcome.snd_of (r : EStateM.Result Interrupt Store Value) : (Outcome.of r).2 = finalStore r := by
  cases r <;> rfl

lemma Store.Holds.runSource {place : Option Source.Span → Prop} {s : Store}
    (hs : s.Holds (Lockstep.placed place).value) {file source : String}
    (hplaced : ∀ {program}, (readProgram file source).result = .ok program →
      program.Everywhere fun n => n.IsWellFormed ∧ place n.span) (debug : Bool) (policies : Policies) :
    (Klang.runSource debug policies file source s).2.Holds (Lockstep.placed place).value := by
  have hlog := hs.logAll debug (readProgram file source).trace
  cases hread : (readProgram file source).result with
  | error diagnostic =>
    rw [Klang.runSource, hread]
    exact hlog
  | ok program =>
    rw [runSource_of_ok hread, Outcome.snd_of, finalStore_settle]
    have hends := Lockstep.ends_placed (hplaced hread) hlog policies rootFrame
    exact (hends.stores trivial).holds

lemma Store.InSession.holds {installed : Policies} {extra : List (String × HostFunction)} {s : Store}
    (h : s.InSession installed extra) : s.Holds wellFormedCode.value := by
  induction h with
  | fresh hstart =>
    obtain ⟨_, _, hs⟩ :=
      Lockstep.stores_globalStore (d := wellFormedCode) (fun _ h => h) trivial rfl trivial hstart
    exact hs.holds
  | @next s debug policies file source _ ih =>
    have hs : s.Holds (Lockstep.placed fun _ => True).value := ih
    exact hs.runSource everywhere_of_readProgram debug policies

/-- A program that runs in a session meets no fault of a defence, and its run is the same if it must
give up wherever a parameter or the variable of a loop is not free. -/
theorem session_never_defends {installed : Policies} {extra : List (String × HostFunction)}
    {s : Store} (hs : s.InSession installed extra) {file source : String} {program : Node}
    (hread : (readProgram file source).result = .ok program) (debug : Bool) (policies : Policies) :
    let start := s.logAll debug (readProgram file source).trace
    (∀ reason span t, runProgram policies rootFrame program start = .error (.fault reason span) t →
        ¬ reason.IsDefensive) ∧
      runInsisting policies rootFrame program start = runProgram policies rootFrame program start := by
  intro start
  have hstart : start.Holds wellFormedCode.value := hs.holds.logAll debug _
  have hends := ends_evaluate hstart hread policies
  rw [runProgram_eq_settle]
  constructor
  · intro reason span t hfault
    rcases settle_eq_fault hfault with hr | ⟨rfl, -⟩
    · rw [hr] at hends
      exact (hends.fault trivial).1
    · exact id
  · rw [runInsisting, hends.eq rfl trivial]

theorem session_never_defends_inversion :
    let start := (standardStore {}).logAll true (readProgram "f" "!true").trace
    ∃ program, (readProgram "f" "!true").result = .ok program ∧
      (standardStore {}).InSession {} [] ∧
        runInsisting {} rootFrame program start = runProgram {} rootFrame program start := by
  have hbang : Token.front (Token.layout "!true".toList).2 =
      .lexeme .operator "!".toList "true".toList := Token.front_layout_of_none rfl
  have hoperand : Token.front (Token.layout "true".toList).2 =
      .lexeme .keyword "true".toList "".toList := Token.front_layout_of_none rfl
  have hend : Token.front (Token.layout "".toList).2 = .done := Token.front_layout_of_none rfl
  have hpieces := Token.pieces_of_lexeme hbang
  rw [Token.pieces_of_lexeme hoperand, Token.pieces_of_done hend] at hpieces
  obtain ⟨place, htokens⟩ := Token.tokenize_of_pieces "f" hpieces
  obtain ⟨program, hread⟩ : ∃ program, (readProgram "f" "!true").result = .ok program :=
    ⟨_, readProgram_of_ok htokens rfl⟩
  have hsession : (standardStore {}).InSession {} [] := .fresh rfl
  exact ⟨program, hread, hsession, (session_never_defends hsession hread true {}).2⟩

end Klang
