import Reckoner.Proofs.Json.Printing

/-! The dump of trees tells the trees. Its text is a document of printed characters, and
the document has all that the trees have: their types and places, names, operators and
values, and the children in their order. -/
namespace Reckoner

/-! ## Operators and values -/

/-- The kind of a bare node that has this type. -/
def BareKind.ofLabel? (label : String) : Option BareKind :=
  [.node, .expression, .statement].find? fun kind => kind.label = label

/-- The step of this spelling. -/
def Step.ofSymbol? (symbol : String) : Option Step :=
  [.increment, .decrement].find? fun step => step.symbol = symbol

/-- The operator before an operand of this spelling. -/
def UnaryOp.ofSymbol? (symbol : String) : Option UnaryOp :=
  [.plus, .minus, .step .increment, .step .decrement].find? fun op => op.symbol = symbol

/-- The binary operator of this spelling. -/
def BinaryOp.ofSymbol? (symbol : String) : Option BinaryOp :=
  [.add, .subtract, .multiply, .divide, .modulo, .power].find? fun op => op.symbol = symbol

/-- The operator of an assignment of this spelling. -/
def AssignOp.ofSymbol? (symbol : String) : Option AssignOp :=
  [.plain, .compound .add, .compound .subtract, .compound .multiply, .compound .divide,
    .compound .modulo, .compound .power].find? fun op => op.symbol = symbol

@[simp] theorem BareKind.ofLabel?_label (kind : BareKind) : ofLabel? kind.label = some kind := by
  cases kind <;> decide

@[simp] theorem Step.ofSymbol?_symbol (step : Step) : ofSymbol? step.symbol = some step := by
  cases step <;> decide

@[simp] theorem UnaryOp.ofSymbol?_symbol (op : UnaryOp) : ofSymbol? op.symbol = some op := by
  rcases op with _ | _ | (_ | _) <;> decide

@[simp] theorem BinaryOp.ofSymbol?_symbol (op : BinaryOp) : ofSymbol? op.symbol = some op := by
  cases op <;> decide

@[simp] theorem AssignOp.ofSymbol?_symbol (op : AssignOp) : ofSymbol? op.symbol = some op := by
  rcases op with _ | (_ | _ | _ | _ | _ | _) <;> decide

/-- The value of a number. -/
def Value.ofDocument? : Json → Option Value
  | .int n => some (.int n)
  | .float x => some (.float x)
  | _ => none

@[simp] theorem Value.ofDocument?_document (v : Value) : ofDocument? v.document = some v := by
  cases v <;> rfl

namespace Node

/-! ## Trees -/

/-- The tree that a document stands for: the fields and the type decide its shape. -/
def ofDocument? : Json → Option Node
  | .null => some .missing
  | .object [(k₁, .string type), (k₂, .int position)] =>
    if [k₁, k₂] = ["_type", "position"] then
      (BareKind.ofLabel? type).map fun kind => .bare kind position
    else none
  | .object [(k₁, .string type), (k₂, .int position), (k₃, part)] =>
    if [k₁, k₂, k₃] = ["_type", "position", "value"] ∧ type = "LiteralExpr" then
      (Value.ofDocument? part).map fun value => .literal position value
    else if [k₁, k₂, k₃] = ["_type", "position", "name"] ∧ type = "VarExpr" then
      match part with
      | .string name => some (.reference position name)
      | _ => none
    else none
  | .object [(k₁, .string type), (k₂, .int position), (k₃, .string symbol), (k₄, operand)] =>
    if [k₁, k₂, k₃, k₄] = ["_type", "position", "op", "operand"] then do
      let operand ← ofDocument? operand
      if type = "UnaryExpr" then
        (UnaryOp.ofSymbol? symbol).map fun op => .unary position op operand
      else if type = "PostfixExpr" then
        (Step.ofSymbol? symbol).map fun step => .stepAfter position step operand
      else none
    else none
  | .object [(k₁, .string type), (k₂, .int position), (k₃, left), (k₄, .string symbol),
      (k₅, right)] =>
    if [k₁, k₂, k₃, k₄, k₅] = ["_type", "position", "left", "op", "right"] ∧
        type = "BinaryExpr" then do
      let left ← ofDocument? left
      let right ← ofDocument? right
      (BinaryOp.ofSymbol? symbol).map fun op => .binary position left op right
    else if [k₁, k₂, k₃, k₄, k₅] = ["_type", "position", "name", "op", "expr"] ∧
        type = "AssignStmt" then do
      let expression ← ofDocument? right
      match left with
      | .string name =>
        (AssignOp.ofSymbol? symbol).map fun op => .assign position name op expression
      | _ => none
    else none
  | _ => none

/-- The document of a tree stands for it. -/
theorem ofDocument?_document (n : Node) : ofDocument? n.document = some n := by
  induction n with
  | missing => rfl
  | bare kind position => simp [document, object, ofDocument?]
  | literal position value => simp [document, object, ofDocument?]
  | reference position name => simp [document, object, ofDocument?]
  | unary position op operand ih => simp [document, object, ofDocument?, ih]
  | stepAfter position step operand ih => simp [document, object, ofDocument?, ih]
  | binary position left op right ihLeft ihRight =>
    simp [document, object, ofDocument?, ihLeft, ihRight]
  | assign position name op expression ih => simp [document, object, ofDocument?, ih]

/-- The trees that a text dumps. -/
def load? (text : String) : Option (List Node) :=
  match Json.read? text with
  | some (.array items) => items.mapM ofDocument?
  | _ => none

theorem load?_dump (nodes : List Node) : load? (dump nodes) = some nodes := by
  have hnodes : ofDocument? ∘ document = fun n => pure (id n) := funext ofDocument?_document
  rw [load?, dump, Json.read?_text]
  dsimp only
  rw [List.mapM_map, hnodes, List.mapM_pure, List.map_id]
  rfl

/-- The dump is made of ends of lines and printed ASCII characters alone. It is a text of
the document of the trees and of no other; the trees are loaded from it, and so no other
trees have it. -/
theorem dump_lossless (nodes : List Node) :
    (∀ c ∈ (dump nodes).toList, c = '\n' ∨ (0x20 ≤ c.toNat ∧ c.toNat ≤ 0x7E)) ∧
      (∀ d, Json.IsText (dump nodes) d ↔ d = .array (nodes.map document)) ∧
      load? (dump nodes) = some nodes ∧
      ∀ others, dump others = dump nodes → others = nodes := by
  have htext := Json.text_isText (.array (nodes.map document))
  refine ⟨Json.text_printed _, fun d => ⟨fun h => h.unique htext, fun h => h ▸ htext⟩,
    load?_dump nodes, fun others h => ?_⟩
  have hload := load?_dump others
  rw [h, load?_dump nodes] at hload
  exact (Option.some.inj hload).symm

example :
    dump [.missing, .reference 4 "é\n"] =
      "[\n  null,\n  \x7b\n    \"_type\": \"VarExpr\",\n    \"position\": 4,\n" ++
        "    \"name\": \"\\u00e9\\n\"\n  \x7d\n]" := by
  decide +kernel

end Node

end Reckoner
