import Klang.Proofs.EvalSteps

/-! Defensive faults, and why the operations of the language raise others only. -/

namespace Klang

def Fault.IsDefensive : Fault → Prop
  | .unknownNode _ | .invalidTarget _ | .unknownUnary _ | .concatenation _ => True
  | _ => False

lemma not_isDefensive_of_bindingFault? {v : Value} {ascription : Option String} {reason : Fault}
    (h : reason ∈ bindingFault? v ascription) : ¬ reason.IsDefensive := by
  unfold bindingFault? ascriptionFault? resolveAscription at h
  grind [Fault.IsDefensive]

lemma Value.not_isDefensive_of_sequenceIndex {v : Value} {length : Nat} {target : Tag}
    {reason : Fault} (h : v.sequenceIndex length target = .error reason) : ¬ reason.IsDefensive := by
  unfold sequenceIndex at h
  grind [Fault.IsDefensive]

lemma Value.concatText_of_isTextual {v : Value} (h : v.isTextual = true) :
    ∃ text, v.concatText = .ok text := by
  cases v with
  | string | number | boolean => exact ⟨_, rfl⟩
  | _ => cases h

lemma Value.not_isDefensive_of_mapKey {v : Value} {reason : Fault}
    (h : v.mapKey = .error reason) : ¬ reason.IsDefensive := by
  unfold mapKey at h
  split at h
  · rename_i ht
    obtain ⟨text, hc⟩ := concatText_of_isTextual ht
    rw [hc] at h
    cases h
  · cases h
    exact id

lemma UnaryOperator.not_isDefensive_of_apply {operator : UnaryOperator} {v : Value}
    {reason : Fault} (h : operator.apply v = .error reason) :
    ¬ reason.IsDefensive ∨ ∃ symbol, operator = .other symbol ∧ reason = .unknownUnary operator := by
  cases operator with
  | negate => cases v <;> cases h <;> exact .inl id
  | invert => cases v <;> cases h <;> exact .inl id
  | other symbol =>
    cases h
    exact .inr ⟨symbol, rfl, rfl⟩

lemma not_isDefensive_of_arityFault? {name : String} {arguments : List Value} {expected : Nat}
    {reason : Fault} (h : reason ∈ arityFault? name arguments expected) : ¬ reason.IsDefensive := by
  unfold arityFault? at h
  grind [Fault.IsDefensive]

lemma not_isDefensive_of_argumentsFault? {name : String} {arguments : List Value}
    {accepted : List (List Tag)} {reason : Fault}
    (h : reason ∈ argumentsFault? name arguments accepted) : ¬ reason.IsDefensive := by
  have htypes {arguments : List Value} {accepted : List (List Tag)} {position : Nat}
      (h : reason ∈ argumentFault? name position arguments accepted) : ¬ reason.IsDefensive := by
    induction arguments generalizing position accepted with
    | nil => cases h
    | cons argument arguments ih =>
      cases accepted with
      | nil => cases h
      | cons tags accepted =>
        rw [argumentFault?] at h
        split at h
        · exact ih h
        · cases h
          exact id
  unfold argumentsFault? at h
  split at h
  · cases h
    exact id
  · exact htypes h

lemma Builtin.not_isDefensive_of_addAll {values : List Value} {total : Float} {reason : Fault}
    (h : addAll values total = .error reason) : ¬ reason.IsDefensive := by
  induction values generalizing total with
  | nil => cases h
  | cons value values ih =>
    cases value with
    | number x => exact ih h
    | _ =>
      cases h
      exact id

lemma Builtin.not_isDefensive_of_functionAndList {name : String} {arguments : List Value}
    {reason : Fault} (h : functionAndList name arguments = .error reason) :
    ¬ reason.IsDefensive := by
  unfold functionAndList at h
  grind [Fault.IsDefensive]

end Klang
