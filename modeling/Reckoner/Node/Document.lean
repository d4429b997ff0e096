import Reckoner.Json
import Reckoner.Node

/-!
Trees as documents: an object for each node, with its type, its place and its
parts in a fixed order; nothing for a missing child.
-/
namespace Reckoner

/-- The type that a bare node is given in a document. -/
def BareKind.label : BareKind → String
  | .node => "ASTNode"
  | .expression => "Expr"
  | .statement => "Stmt"

/-- A value as a number of its kind. -/
def Value.document : Value → Json
  | .int n => .int n
  | .float x => .float x

namespace Node

/-- The object of a node of the given type and place. -/
def object (type : String) (position : Int) (parts : List (String × Json)) : Json :=
  .object (("_type", .string type) :: ("position", .int position) :: parts)

/-- The document of a tree. -/
def document : Node → Json
  | .missing => .null
  | .bare kind position => object kind.label position []
  | .literal position value => object "LiteralExpr" position [("value", value.document)]
  | .reference position name => object "VarExpr" position [("name", .string name)]
  | .unary position op operand =>
    object "UnaryExpr" position [("op", .string op.symbol), ("operand", operand.document)]
  | .stepAfter position step operand =>
    object "PostfixExpr" position
      [("op", .string step.symbol), ("operand", operand.document)]
  | .binary position left op right =>
    object "BinaryExpr" position
      [("left", left.document), ("op", .string op.symbol), ("right", right.document)]
  | .assign position name op expression =>
    object "AssignStmt" position
      [("name", .string name), ("op", .string op.symbol),
        ("expr", expression.document)]

/-- The text of a list of trees. -/
def dump (nodes : List Node) : String :=
  (Json.array (nodes.map document)).text

end Node

end Reckoner
