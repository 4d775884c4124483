/-! Globs: a star stands for any characters, a question mark for one, and a bracketed set for one of
its members. A glob matches a text as a whole. -/

namespace FormulaLint.Glob

/-! ## Pieces -/

inductive Member where
  | char (c : Char)
  | range (first last : Char)
  deriving DecidableEq, Repr

inductive Piece where
  | star
  | any
  | char (c : Char)
  | set (negated : Bool) (members : List Member)
  deriving DecidableEq, Repr

def Member.holds (c : Char) : Member → Bool
  | .char wanted => c == wanted
  | .range first last => first ≤ c && c ≤ last

def matchPieces : List Piece → List Char → Bool
  | [], chars => chars.isEmpty
  | .star :: pieces, [] => matchPieces pieces []
  | .star :: pieces, c :: rest =>
      matchPieces pieces (c :: rest) || matchPieces (.star :: pieces) rest
  | .any :: pieces, _ :: rest => matchPieces pieces rest
  | .char wanted :: pieces, c :: rest => wanted == c && matchPieces pieces rest
  | .set negated members :: pieces, c :: rest =>
      members.any (·.holds c) != negated && matchPieces pieces rest
  | _ :: _, [] => false

/-! ## Bracketed sets

The text between brackets is cut at the dashes that make ranges. A range whose ends are in the wrong
order is empty: it goes, and its two sides are joined. -/

/-- Cut a text at its range dashes: a dash needs a character in front of it, and two characters lie
between one range dash and the next. `held` are the characters of the present chunk, last one first,
and `wait` counts those that a dash must still have in front of it. -/
def chunks (held : List Char) (wait : Nat) : List Char → List (List Char)
  | [] => [held.reverse]
  | c :: rest =>
      if c = '-' && wait = 0 then held.reverse :: chunks [] 2 rest
      else chunks (c :: held) (wait - 1) rest

def closeChunks : List (List Char) → List (List Char)
  | [chunk, []] => [chunk ++ ['-']]
  | chunk :: rest => chunk :: closeChunks rest
  | [] => []

def joinEmptyRanges : List (List Char) → List (List Char)
  | [] => []
  | chunk :: rest =>
      match chunk.getLast?, joinEmptyRanges rest with
      | some last, (first :: others) :: later =>
          if first < last then (chunk.dropLast ++ others) :: later
          else chunk :: (first :: others) :: later
      | _, joined => chunk :: joined

inductive Sign where
  | char (c : Char)
  | dash
  deriving DecidableEq, Repr

def signs (chunks : List (List Char)) : List Sign :=
  [Sign.dash].intercalate (chunks.map fun chunk => chunk.map Sign.char)

def members : List Sign → List Member
  | [] => []
  | .char first :: .dash :: .char last :: rest => .range first last :: members rest
  | .char c :: rest => .char c :: members rest
  | .dash :: rest => .char '-' :: members rest

def setPiece (inside : List Char) : Piece :=
  let wait := if inside.head? = some '!' then 2 else 1
  match signs (joinEmptyRanges (closeChunks (chunks [] wait inside))) with
  | .char '!' :: rest => .set true (members rest)
  | all => .set false (members all)

/-- Where a bracketed set ends: its text and what follows the closing bracket. A bracket directly at
the start of the set, or behind its exclamation mark, is a member. -/
def closeBracket (chars : List Char) : Option (List Char × List Char) :=
  let front := match chars with
    | '!' :: ']' :: _ => 2
    | '!' :: _ => 1
    | ']' :: _ => 1
    | _ => 0
  let inside := (chars.drop front).takeWhile (· != ']')
  match (chars.drop front).dropWhile (· != ']') with
  | [] => none
  | _ :: rest => some (chars.take front ++ inside, rest)

/-- The pieces of a glob; the fuel is the number of characters still to be read. -/
def piecesWithin : (fuel : Nat) → List Char → List Piece
  | 0, _ => []
  | _, [] => []
  | fuel + 1, c :: rest =>
      if c = '*' then .star :: piecesWithin fuel rest
      else if c = '?' then .any :: piecesWithin fuel rest
      else if c = '[' then
        match closeBracket rest with
        | some (inside, later) => setPiece inside :: piecesWithin fuel later
        | none => .char '[' :: piecesWithin fuel rest
      else .char c :: piecesWithin fuel rest

def pieces (glob : String) : List Piece :=
  piecesWithin glob.toList.length glob.toList

def covers (glob text : String) : Bool :=
  matchPieces (pieces glob) text.toList

end FormulaLint.Glob
