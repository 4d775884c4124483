import FormulaLint.Configuration.Fault
import FormulaLint.Glob
import FormulaLint.Provenance
import FormulaLint.Notice

/-! The exemption policy: which rules are left out for which files. -/

namespace FormulaLint

/-- Leave out the rules that a glob covers for the files that meet every pattern given. -/
structure Exemption where
  rules : String
  path : Option Pattern
  className : Option Pattern
  deriving DecidableEq, Repr

/-- Keep the rules that a glob covers to the files whose path holds a match of a pattern. -/
structure Restriction where
  rules : String
  path : Pattern
  deriving DecidableEq, Repr

structure Policy where
  exemptions : List Exemption := []
  restrictions : List Restriction := []
  deriving DecidableEq, Repr

namespace Exemption

def covers (exemption : Exemption) (rule : String) : Bool :=
  Glob.covers exemption.rules rule

/-- Whether a file is meant: a pattern for the path is looked for in it, one for the class has to
match the whole name, and an entry without any pattern means no file. -/
def concerns (exemption : Exemption) (provenance : Provenance) : Bool :=
  (exemption.path.isSome || exemption.className.isSome) &&
    exemption.path.all (fun pattern =>
      provenance.path.any fun path => (pattern.search path).isSome) &&
    exemption.className.all fun pattern => provenance.className.any pattern.matchesWhole

end Exemption

namespace Restriction

def covers (restriction : Restriction) (rule : String) : Bool :=
  Glob.covers restriction.rules rule

def admits (restriction : Restriction) (provenance : Provenance) : Bool :=
  provenance.path.any fun path => (restriction.path.search path).isSome

end Restriction

namespace Policy

/-- A rule is left out for a file that an exemption concerns, and for one that no restriction of the
rule admits although there is one. -/
def exempts (policy : Policy) (rule : String) (provenance : Provenance) : Bool :=
  policy.exemptions.any (fun exemption => exemption.covers rule && exemption.concerns provenance) ||
    let restrictions := policy.restrictions.filter (·.covers rule)
    !restrictions.isEmpty && !restrictions.any (·.admits provenance)

def merge (policy later : Policy) : Policy :=
  ⟨policy.exemptions ++ later.exemptions, policy.restrictions ++ later.restrictions⟩

def globs (policy : Policy) : List String :=
  policy.exemptions.map (·.rules) ++ policy.restrictions.map (·.rules)

def unknownEntries (policy : Policy) (rules : List String) : List Notice :=
  (policy.globs.filter fun glob => !rules.any (Glob.covers glob)).map fun glob =>
    .unknownEntry (Text.quoted glob)

/-! ## Reading a policy -/

def readPattern : Option Value → Except ConfigFault (Option Pattern)
  | none => .ok none
  | some (.scalar .null) => .ok none
  | some value =>
      match Pattern.ofText value.display with
      | .ok pattern => .ok (some pattern)
      | .error fault => .error (.invalidPattern value fault)

/-- The entries under a key: a list of mappings, or nothing. -/
def readEntries (document : Entries) (key : String) : Except ConfigFault (List Entries) :=
  match document.get? key with
  | none => .ok []
  | some value =>
      if value.isEmpty then .ok []
      else
        match value with
        | .list items => items.mapM fun
            | .mapping entries => .ok entries
            | _ => .error (.entriesNotMappings key)
        | _ => .error (.entriesNotMappings key)

def readGlobs (entry : Entries) : Except ConfigFault (List String) :=
  let named := match entry.get? "rules" with
    | some value => some value
    | none => entry.get? "rule"
  match named with
  | some (.scalar (.text glob)) => .ok [glob]
  | some (.list (first :: others)) => .ok ((first :: others).map (·.display))
  | _ => .error (.entryWithoutRule entry)

def readExemption (entry : Entries) : Except ConfigFault (List Exemption) := do
  let globs ← readGlobs entry
  let path ← readPattern (entry.get? "path")
  let className ← readPattern (entry.get? "class_name")
  return globs.map fun glob => ⟨glob, path, className⟩

def readRestriction (entry : Entries) : Except ConfigFault (List Restriction) := do
  match ← readPattern (entry.get? "path") with
  | none => throw (.restrictionWithoutPath ((entry.get? "rules").getD .null))
  | some path => return (← readGlobs entry).map fun glob => ⟨glob, path⟩

def ofDocument (document : Entries) : Except ConfigFault Policy := do
  let exemptions ← (← readEntries document "exemptions").mapM readExemption
  let restrictions ← (← readEntries document "restrictions").mapM readRestriction
  return ⟨exemptions.flatten, restrictions.flatten⟩

end Policy

end FormulaLint
