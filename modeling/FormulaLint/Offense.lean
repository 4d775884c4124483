import FormulaLint.Phrase

/-! Offenses: what an audit reports, and the fix that would remove it. -/

namespace FormulaLint

/-! ## Severity -/

inductive Severity where
  | convention
  | warning
  | error
  | fatal
  deriving DecidableEq, Repr

namespace Severity

def all : List Severity := [.fatal, .error, .warning, .convention]

def name : Severity → String
  | .convention => "convention"
  | .warning => "warning"
  | .error => "error"
  | .fatal => "fatal"

def letter : Severity → String
  | .convention => "C"
  | .warning => "W"
  | .error => "E"
  | .fatal => "F"

/-- How much a severity weighs when a run is judged. -/
def weight : Severity → Nat
  | .convention => 0
  | .warning => 1
  | .error => 2
  | .fatal => 3

def ofName? (name : String) : Option Severity :=
  all.find? fun severity => severity.name == name

end Severity

/-! ## Fixes -/

/-- Put a replacement in the place of the characters from one offset up to another. -/
structure Fix where
  start : Int
  stop : Int
  replacement : Phrase
  deriving Repr

namespace Fix

def write (start stop : Int) (text : String) : Fix :=
  ⟨start, stop, .text text⟩

/-- Two insertions collide only at the same place; otherwise fixes collide if their stretches share
more than an end. -/
def overlaps (fix other : Fix) : Bool :=
  if fix.start = fix.stop && other.start = other.stop then fix.start = other.start
  else fix.start < other.stop && other.start < fix.stop

end Fix

/-! ## Drafts and offenses -/

/-- What a rule finds at one place. Lines count from one, columns from zero. -/
structure Draft where
  message : Phrase
  line : Int
  column : Int
  fix : Option Fix := none
  deriving Repr

def Draft.permit (draft : Draft) (correctable : Bool) : Draft :=
  if correctable then draft else { draft with fix := none }

structure Offense where
  rule : String
  message : Phrase
  severity : Severity
  line : Int
  column : Int
  sourceLine : String
  fix : Option Fix := none
  corrected : Bool := false
  deriving Repr

def Offense.correctable (offense : Offense) : Bool :=
  offense.fix.isSome

end FormulaLint
