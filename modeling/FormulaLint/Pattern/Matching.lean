import FormulaLint.Pattern.Expression

/-! Matching an expression against a text. Alternatives are tried in order, and the first that lets
the rest of the expression match is taken. -/

namespace FormulaLint.Pattern

/-! ## States of a match -/

/-- A remembered piece of the text, last character first, and where it starts. -/
structure Capture where
  start : Nat
  chars : List Char
  deriving DecidableEq, Repr

/-- How far a match has come: the characters before, last one first, those still ahead, and the
groups closed so far, the latest in front. -/
structure Progress where
  before : List Char
  rest : List Char
  groups : List (Nat × Capture)
  deriving DecidableEq, Repr

def Progress.position (progress : Progress) : Nat :=
  progress.before.length

def Progress.atStart (text : List Char) : Progress :=
  ⟨[], text, []⟩

def Progress.group? (progress : Progress) (number : Nat) : Option Capture :=
  progress.groups.lookup number

/-- What remains to be matched after an expression, as a function of the progress made. -/
abbrev Continuation := Progress → Option Progress

def firstOf (first second : Continuation) : Continuation := fun progress =>
  match first progress with
  | some later => some later
  | none => second progress

/-! ## Places -/

def wordBefore (progress : Progress) : Bool :=
  match progress.before with
  | [] => false
  | c :: _ => Character.isWord c

def wordAfter (progress : Progress) : Bool :=
  match progress.rest with
  | [] => false
  | c :: _ => Character.isWord c

/-- An empty text has neither an edge of a word nor a place that is none. -/
def Anchor.holds (progress : Progress) : Anchor → Bool
  | .textStart => progress.before.isEmpty
  | .textEnd => progress.rest.isEmpty
  | .lineStart => progress.before.isEmpty || progress.before.head? == some '\n'
  | .lineEnd => progress.rest.isEmpty || progress.rest.head? == some '\n'
  | .lastLineEnd => progress.rest.isEmpty || progress.rest == ['\n']
  | .wordEdge => wordBefore progress != wordAfter progress
  | .noWordEdge =>
      wordBefore progress == wordAfter progress &&
        !(progress.before.isEmpty && progress.rest.isEmpty)

/-! ## Matching -/

def sameRemembered (ignoreCase : Bool) (wanted c : Char) : Bool :=
  if ignoreCase then Character.lowerCode wanted.toNat == Character.lowerCode c.toNat
  else wanted == c

def recallFrom (ignoreCase : Bool) : List Char → Continuation → Continuation
  | [], next, progress => next progress
  | wanted :: others, next, progress =>
      match progress.rest with
      | [] => none
      | c :: rest =>
          if sameRemembered ignoreCase wanted c then
            recallFrom ignoreCase others next
              { progress with before := c :: progress.before, rest := rest }
          else
            none

/-- Match a body again and again. A repetition beyond the least number is tried only where the last
such try did not start, so a body that takes no character is repeated once. The fuel bounds the
number of repetitions still possible. -/
def repeatFrom (body : Continuation → Continuation) (least : Nat) (most : Option Nat)
    (greed : Greed) (next : Continuation) :
    (fuel count : Nat) → (lastStart : Option Nat) → Continuation
  | 0, _, _, _ => none
  | fuel + 1, count, lastStart, progress =>
      if count < least then
        body (repeatFrom body least most greed next fuel (count + 1) lastStart) progress
      else
        let again : Continuation := fun here =>
          if most.all (count < ·) && lastStart != some here.position then
            body (repeatFrom body least most greed next fuel (count + 1) (some here.position)) here
          else
            none
        match greed with
        | .most => firstOf again next progress
        | .least => firstOf next again progress

namespace Expression

def run : Expression → Continuation → Continuation
  | .empty, next, progress => next progress
  | .char test, next, progress =>
      match progress.rest with
      | [] => none
      | c :: rest =>
          if test.holds c then
            next { progress with before := c :: progress.before, rest := rest }
          else
            none
  | .anchor place, next, progress => if place.holds progress then next progress else none
  | .sequence first second, next, progress => first.run (second.run next) progress
  | .either first second, next, progress => firstOf (first.run next) (second.run next) progress
  | .repetition body least most greed, next, progress =>
      repeatFrom body.run least most greed next (least + progress.rest.length + 2) 0 none progress
  | .group number body, next, progress =>
      body.run (fun later =>
        let taken := later.before.take (later.before.length - progress.before.length)
        next { later with groups := (number, ⟨progress.position, taken⟩) :: later.groups }) progress
  | .recall number ignoreCase, next, progress =>
      match progress.group? number with
      | none => none
      | some capture => recallFrom ignoreCase capture.chars.reverse next progress
  | .ahead false body, next, progress =>
      match body.run some progress with
      | none => none
      | some later => next { progress with groups := later.groups }
  | .ahead true body, next, progress =>
      match body.run some progress with
      | none => next progress
      | some _ => none
  | .commit body, next, progress =>
      match body.run some progress with
      | none => none
      | some later => next later

end Expression

/-! ## Matches -/

/-- A stretch of a text that an expression matches, with the groups remembered on the way. -/
structure Match where
  start : Nat
  stop : Nat
  groups : List (Nat × Capture)
  deriving DecidableEq, Repr

def Match.ofProgress (start later : Progress) : Match :=
  ⟨start.position, later.position, later.groups⟩

def Match.group? (found : Match) (number : Nat) : Option String :=
  (found.groups.lookup number).map fun capture => String.ofList capture.chars.reverse

def searchFrom (expression : Expression) (before : List Char) : List Char → Option Match
  | [] =>
      let start : Progress := ⟨before, [], []⟩
      (expression.run some start).map (Match.ofProgress start)
  | c :: rest =>
      let start : Progress := ⟨before, c :: rest, []⟩
      match expression.run some start with
      | some later => some (Match.ofProgress start later)
      | none => searchFrom expression (c :: before) rest

namespace Expression

def search (expression : Expression) (text : String) : Option Match :=
  searchFrom expression [] text.toList

def matchesWhole (expression : Expression) (text : String) : Bool :=
  let toEnd : Continuation := fun later => if later.rest.isEmpty then some later else none
  (expression.run toEnd (Progress.atStart text.toList)).isSome

end Expression

end FormulaLint.Pattern
