import FormulaLint.Text.Quoted

/-! What can be wrong with a pattern. -/

namespace FormulaLint.Pattern

inductive FaultCause where
  | danglingEscape
  | badEscape (written : String)
  | incompleteEscape (written : String)
  | octalTooLarge (written : String)
  | unterminatedSet
  | badRange (first last : String)
  | nothingToRepeat
  | multipleRepeat
  | repeatBounds
  | repeatTooLarge
  | unterminatedGroup
  | unterminatedComment
  | unbalancedParenthesis
  | endOfPattern
  | missingGroupName
  | unterminatedName (terminator : Char)
  | badGroupName (name : String)
  | unknownGroup (name : String)
  | redefinedGroup (name : String) (again before : Nat)
  | openGroup
  | invalidReference (number : Nat)
  | unknownExtension (written : String)
  | misplacedFlags
  | unknownFlag
  | missingFlag
  | missingFlagEnd
  | missingColon
  | fixedFlag
  | contradictoryFlag
  deriving DecidableEq, Repr

def FaultCause.text : FaultCause → String
  | .danglingEscape => "bad escape (end of pattern)"
  | .badEscape written => "bad escape " ++ written
  | .incompleteEscape written => "incomplete escape " ++ written
  | .octalTooLarge written => "octal escape value " ++ written ++ " outside of range 0-0o377"
  | .unterminatedSet => "unterminated character set"
  | .badRange first last => "bad character range " ++ first ++ "-" ++ last
  | .nothingToRepeat => "nothing to repeat"
  | .multipleRepeat => "multiple repeat"
  | .repeatBounds => "min repeat greater than max repeat"
  | .repeatTooLarge => "the repetition number is too large"
  | .unterminatedGroup => "missing ), unterminated subpattern"
  | .unterminatedComment => "missing ), unterminated comment"
  | .unbalancedParenthesis => "unbalanced parenthesis"
  | .endOfPattern => "unexpected end of pattern"
  | .missingGroupName => "missing group name"
  | .unterminatedName terminator => "missing " ++ terminator.toString ++ ", unterminated name"
  | .badGroupName name => "bad character in group name " ++ Text.quoted name
  | .unknownGroup name => "unknown group name " ++ Text.quoted name
  | .redefinedGroup name again before =>
      "redefinition of group name " ++ Text.quoted name ++ " as group " ++ toString again ++
        "; was group " ++ toString before
  | .openGroup => "cannot refer to an open group"
  | .invalidReference number => "invalid group reference " ++ toString number
  | .unknownExtension written => "unknown extension ?" ++ written
  | .misplacedFlags => "global flags not at the start of the expression"
  | .unknownFlag => "unknown flag"
  | .missingFlag => "missing flag"
  | .missingFlagEnd => "missing -, : or )"
  | .missingColon => "missing :"
  | .fixedFlag => "bad inline flags: cannot turn off flags 'a', 'u' and 'L'"
  | .contradictoryFlag => "bad inline flags: flag turned on and off"

structure Fault where
  cause : FaultCause
  position : Nat
  deriving DecidableEq, Repr

def Fault.message (fault : Fault) (pattern : String) : String :=
  let before := pattern.toList.take fault.position
  let place := fault.cause.text ++ " at position " ++ toString fault.position
  if pattern.toList.contains '\n' then
    let column := (before.reverse.takeWhile (· != '\n')).length + 1
    place ++ " (line " ++ toString (before.count '\n' + 1) ++ ", column " ++ toString column ++ ")"
  else
    place

end FormulaLint.Pattern
