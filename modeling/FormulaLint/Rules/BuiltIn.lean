import FormulaLint.Catalogue
import FormulaLint.Rules.Assertion
import FormulaLint.Rules.BuildQuery
import FormulaLint.Rules.Command
import FormulaLint.Rules.Comment
import FormulaLint.Rules.Declaration
import FormulaLint.Rules.Dependency
import FormulaLint.Rules.Deprecated
import FormulaLint.Rules.FilePath

/-! The built-in rules in catalogue order. -/

namespace FormulaLint

namespace Rules

def builtIn : List Rule := [
  deprecatedDependency,
  inheritanceSpacing,
  templateComment,
  commentedDependency,
  assertInclude,
  assertPredicate,
  unlessQuery,
  negatedQuery,
  duplicatedFlagPrefix,
  includeQuery,
  dashedFlag,
  legacyOptionsMethod,
  fileUtilsNamespace,
  inreplaceBlockVariable,
  zeroRebuild,
  linuxCheck,
  llvmFailure,
  legacyTestMethod,
  topLevelMethod,
  skipCleanAll,
  universalBinary,
  deprecatedEnvMethod,
  installNameTool,
  npmInstallArgs,
  requirementInstance,
  legacyMacOSCheck,
  nonGlobDir,
  systemFileUtils,
  argvOptions,
  argvHeadFlag,
  manPathConcatenation,
  hardcodedCompiler,
  pathShortcut,
  vendoredDependency,
  shellEnvironment,
  dependencyOption,
  versionHeadComparison,
  deprecatedConstant,
  conditionalDependency]

theorem builtIn_faultless : (RuleIndex.ofRules builtIn).isOk = true := by
  decide +kernel

end Rules

def Catalogue.builtIn : Catalogue :=
  .ofFaultless Rules.builtIn Rules.builtIn_faultless

end FormulaLint
