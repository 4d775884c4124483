import FormulaLint.Json.Reading
import FormulaLint.Tree.Concrete

/-! Concrete trees as JSON documents. A node is an array of its label, one or zero for a named node
or a token, its field or null, the offsets of its ends in bytes, and the array of its children. -/

namespace FormulaLint

namespace ConcreteNode

mutual

def ofJson? : Json → Option ConcreteNode
  | .array [.text label, .whole named, .text field, .whole start, .whole stop, .array children] =>
      (ofJsonAll? children).map fun children =>
        ⟨label, named ≠ 0, some field, start.toNat, stop.toNat, children⟩
  | .array [.text label, .whole named, .null, .whole start, .whole stop, .array children] =>
      (ofJsonAll? children).map fun children =>
        ⟨label, named ≠ 0, none, start.toNat, stop.toNat, children⟩
  | _ => none

def ofJsonAll? : List Json → Option (List ConcreteNode)
  | [] => some []
  | document :: rest => do
      let node ← ofJson? document
      let others ← ofJsonAll? rest
      return node :: others

end

end ConcreteNode

namespace ConcreteTree

/-- A recorded tree is an object with the text that it is the tree of, its root, and whether the
grammar found an error. -/
def ofJson? : Json → Option (String × ConcreteTree)
  | .object members => do
      let source ← members.lookup "source"
      let root ← (members.lookup "tree").bind ConcreteNode.ofJson?
      let hasError := (members.lookup "has_error").any fun flag => flag matches .flag true
      match source with
      | .text source => return (source, ⟨root, hasError⟩)
      | _ => none
  | _ => none

def unknown (text : String) : ConcreteTree where
  root := ⟨"program", true, none, 0, text.utf8ByteSize, []⟩
  hasError := true

end ConcreteTree

end FormulaLint
