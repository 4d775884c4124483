import FormulaLint.Text.Slice
import FormulaLint.Tree.Node

/-! Method calls: their names, receivers, arguments and blocks. -/

namespace FormulaLint

inductive ReceiverDemand where
  | anything
  | nothing
  | written (text : String)
  deriving DecidableEq, Repr

def ReceiverDemand.isMet : ReceiverDemand → Option Node → Bool
  | .anything, _ => true
  | .nothing, receiver => receiver.isNone
  | .written text, receiver => receiver.any fun node => node.text == text

namespace Node

def method? (node : Node) : Option String :=
  (node.child? "method").map (·.text)

def receiver? (node : Node) : Option Node :=
  node.child? "receiver"

def block? (node : Node) : Option Node :=
  node.child? "block"

def callsOn (node : Node) (receiver : ReceiverDemand) : Bool :=
  node.kind = .methodCall && receiver.isMet node.receiver?

def calls (node : Node) (methods : List String) (receiver : ReceiverDemand) : Bool :=
  node.callsOn receiver && node.method?.any methods.contains

def isComment (node : Node) : Bool :=
  node.label == "comment"

/-- The arguments of a call, or the indices of an element reference; comments do not count. -/
def arguments (node : Node) : List Node :=
  let candidates :=
    if node.label = "element_reference" then
      node.children.eraseP fun child => child.field == some "object"
    else
      ((node.child? "arguments").map (·.children)).getD []
  candidates.filter fun child => child.named && !child.isComment

def firstArgument? (node : Node) : Option Node :=
  node.arguments.head?

/-! ## Queries of the build -/

def asksBuild (node : Node) (queries : List String) : Bool :=
  node.calls queries (.written "build")

/-- The query that holds exactly when the given one does not. -/
def complement? : String → Option String
  | "with?" => some "without?"
  | "without?" => some "with?"
  | _ => none

/-- The text of a call with its query exchanged for the complement; other calls are left as they
are. -/
def withComplement (call : Node) : String :=
  match call.child? "method" with
  | none => call.text
  | some method =>
      match complement? method.text with
      | none => call.text
      | some other =>
          Text.slice call.text 0 (method.start - call.start) ++ other ++
            Text.slice call.text (method.stop - call.start) call.text.length

end Node

end FormulaLint
