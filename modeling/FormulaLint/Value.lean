import FormulaLint.Text.Quoted

/-! The values of a configuration document: scalars, lists and mappings whose keys are scalars. Dates,
bytes, sets and values that contain themselves are left out, and so are decimals with more than one
digit behind the point. A value can be written out however long it is and however deep. -/

namespace FormulaLint

/-! ## Scalars -/

/-- A single value. A decimal has one digit behind the point and is given in tenths. -/
inductive Scalar where
  | null
  | flag (value : Bool)
  | whole (value : Int)
  | decimal (tenths : Int)
  | text (value : String)
  deriving DecidableEq, Repr

namespace Scalar

/-- Flags and numbers are compared by their value, in tenths: a set flag is one, a clear one is
zero. -/
def tenths? : Scalar → Option Int
  | .flag value => some (if value then 10 else 0)
  | .whole value => some (value * 10)
  | .decimal tenths => some tenths
  | _ => none

def same (left right : Scalar) : Bool :=
  match left.tenths?, right.tenths? with
  | some first, some second => first == second
  | none, none => left == right
  | _, _ => false

def decimalText (tenths : Int) : String :=
  (if tenths < 0 then "-" else "") ++ toString (tenths.natAbs / 10) ++ "." ++
    toString (tenths.natAbs % 10)

def display : Scalar → String
  | .null => "None"
  | .flag value => if value then "True" else "False"
  | .whole value => toString value
  | .decimal tenths => decimalText tenths
  | .text value => value

def shown : Scalar → String
  | .text value => Text.quoted value
  | other => other.display

end Scalar

/-! ## Values -/

inductive Value where
  | scalar (scalar : Scalar)
  | list (items : List Value)
  | mapping (entries : List (Scalar × Value))
  deriving Repr

namespace Value

abbrev text (value : String) : Value := .scalar (.text value)

abbrev null : Value := .scalar .null

mutual

/-- Whether two values are equal as list items. Mappings are equal if they give equal keys equal
values, in whatever order. -/
def same : Value → Value → Bool
  | .scalar left, .scalar right => left.same right
  | .list left, .list right => sameItems left right
  | .mapping left, .mapping right => left.length == right.length && sameEntries left right
  | _, _ => false

def sameItems : List Value → List Value → Bool
  | [], [] => true
  | left :: lefts, right :: rights => left.same right && sameItems lefts rights
  | _, _ => false

def sameEntries : List (Scalar × Value) → List (Scalar × Value) → Bool
  | [], _ => true
  | (key, value) :: rest, others =>
      (match others.find? fun entry => entry.1.same key with
        | some entry => value.same entry.2
        | none => false) && sameEntries rest others

end

mutual

def shown : Value → String
  | .scalar single => single.shown
  | .list items => "[" ++ shownItems items ++ "]"
  | .mapping entries => "\x7b" ++ shownEntries entries ++ "\x7d"

def shownItems : List Value → String
  | [] => ""
  | [item] => item.shown
  | item :: rest => item.shown ++ ", " ++ shownItems rest

def shownEntries : List (Scalar × Value) → String
  | [] => ""
  | [(key, value)] => key.shown ++ ": " ++ value.shown
  | (key, value) :: rest => key.shown ++ ": " ++ value.shown ++ ", " ++ shownEntries rest

end

def display : Value → String
  | .scalar single => single.display
  | other => other.shown

/-- Empty values count as absent. -/
def isEmpty : Value → Bool
  | .scalar .null => true
  | .scalar (.text value) => value.isEmpty
  | .scalar single => single.tenths? == some 0
  | .list items => items.isEmpty
  | .mapping entries => entries.isEmpty

end Value

/-! ## Entries

A mapping gives each key one value. A value given later takes the place of an earlier one. -/

abbrev Entries := List (Scalar × Value)

namespace Entries

def put (key : Scalar) (value : Value) : Entries → Entries
  | [] => [(key, value)]
  | entry :: rest =>
      if entry.1.same key then (entry.1, value) :: rest else entry :: put key value rest

def putAll (entries additions : Entries) : Entries :=
  additions.foldl (fun entries addition => put addition.1 addition.2 entries) entries

def ofPairs (pairs : List (Scalar × Value)) : Entries :=
  putAll [] pairs

def get? (entries : Entries) (key : String) : Option Value :=
  (entries.find? fun entry => entry.1.same (.text key)).map (·.2)

end Entries

end FormulaLint
