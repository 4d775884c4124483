import FormulaLint.Configuration.Packaged
import FormulaLint.Policy
import FormulaLint.Tables

/-! A configuration: the tables and the exemption policy, built up in layers. -/

namespace FormulaLint

structure Configuration where
  tables : Tables := {}
  policy : Policy := {}
  deriving Repr

namespace Configuration

def packaged : Except ConfigFault Configuration := do
  let tables ← Tables.ofDocument Packaged.tables
  let policy ← Policy.ofDocument Packaged.policy
  return ⟨tables, policy⟩

def policyKeys : List String := ["exemptions", "restrictions"]

def isPolicyKey (key : Scalar) : Bool :=
  policyKeys.any fun name => key.same (.text name)

/-- Put a document on top: its tables are merged, its policy entries added. -/
def layer (configuration : Configuration) (document : Entries) :
    Except ConfigFault Configuration := do
  let tableEntries := document.filter fun entry => !isPolicyKey entry.1
  let tables ←
    if tableEntries.isEmpty then pure configuration.tables
    else configuration.tables.merge tableEntries
  let policy ← Policy.ofDocument document
  return ⟨tables, configuration.policy.merge policy⟩

end Configuration

end FormulaLint
