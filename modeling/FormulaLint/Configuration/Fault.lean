import FormulaLint.Pattern
import FormulaLint.Value

/-! What can be wrong with a configuration. -/

namespace FormulaLint

inductive ConfigFault where
  | invalidDocument (path reason : String)
  | documentNotMapping (path : String)
  | tableNotMapping (key : String)
  | tableNotList (key : String)
  | unsupportedValue (key name : String) (value : Value)
  | shortcutsNotList (helper : String)
  | invalidShortcut (value : Value) (fault : Pattern.Fault)
  | shortcutWithoutGroup (value : Value)
  | entriesNotMappings (key : String)
  | entryWithoutRule (entry : Entries)
  | restrictionWithoutPath (rules : Value)
  | invalidPattern (value : Value) (fault : Pattern.Fault)
  deriving Repr

def ConfigFault.inPattern? : ConfigFault → Option Pattern.Fault
  | .invalidShortcut _ fault => some fault
  | .invalidPattern _ fault => some fault
  | _ => none

/-- Whether a fault is reported as one of the configuration. A pattern whose bounds no repetition
can have is not turned down in this way: it breaks off whatever reads it. -/
def ConfigFault.isReported (fault : ConfigFault) : Bool :=
  fault.inPattern?.all fun found => found.cause != .repeatTooLarge

def ConfigFault.message : ConfigFault → String
  | .invalidDocument path reason => "Invalid YAML in " ++ path ++ ": " ++ reason
  | .documentNotMapping path => "Configuration at " ++ path ++ " is not a mapping"
  | .tableNotMapping key => "'" ++ key ++ "' must be a mapping"
  | .tableNotList key => "'" ++ key ++ "' must be a list"
  | .unsupportedValue key name value =>
      "'" ++ key ++ "." ++ name ++ "' has unsupported value " ++ value.shown
  | .shortcutsNotList helper => "'path_shortcuts." ++ helper ++ "' must be a list of patterns"
  | .invalidShortcut value fault =>
      "Invalid path shortcut pattern " ++ value.shown ++ ": " ++ fault.message value.display
  | .shortcutWithoutGroup value =>
      "Path shortcut pattern " ++ value.shown ++ " lacks a 'shortcut' group"
  | .entriesNotMappings key => "'" ++ key ++ "' must be a list of mappings"
  | .entryWithoutRule entry =>
      "Exemption entry " ++ (Value.mapping entry).shown ++ " does not name any rule"
  | .restrictionWithoutPath rules => "Restriction for " ++ rules.shown ++ " needs a path pattern"
  | .invalidPattern value fault =>
      "Invalid pattern " ++ value.shown ++ ": " ++ fault.message value.display

end FormulaLint
