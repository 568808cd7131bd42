import Klang.Node
import Klang.Number.Text
import Klang.Text.Quoted

/-! The outline of a tree: one line for each node, indented by its depth. -/

namespace Klang

def ascriptionText : Option String → String
  | none | some "" => ""
  | some ascription => s!": {ascription}"

def parametersText (parameters : List Parameter) : String :=
  ", ".intercalate (parameters.map fun p => p.name ++ ascriptionText p.ascription)

namespace Node

def Label.detail : Label → String
  | number value => Number.literalText value
  | string value => Text.quoted value
  | boolean value => if value then "True" else "False"
  | identifier name => name
  | unary operator => operator.symbol
  | binary operator => operator.symbol
  | declaration name isFinal ascription =>
    (if isFinal then "final " else "let ") ++ name ++ ascriptionText ascription
  | function parameters => s!"({parametersText parameters})"
  | definition name parameters => s!"{name}({parametersText parameters})"
  | forLoop iterator => s!"{iterator} in"
  | map keys => ", ".intercalate keys
  | _ => ""

def outlineLine (depth : Int) (label : Label) : String :=
  let detail := if label.detail = "" then "" else s!"({label.detail})"
  "".pushn ' ' (2 * depth.toNat) ++ label.tag ++ detail ++ "\n"

def outline (node : Node) (depth : Int) : String :=
  String.join ((node.walk depth).map fun (depth, part) => outlineLine depth part.label)

end Node

end Klang
