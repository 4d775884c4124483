import FormulaLint.Pattern.Escape

/-! Reading a written pattern. The grammar is a list of alternatives, each a sequence of items with
optional repetitions; the fuel of the mutual readers bounds the tokens still to come.

Patterns that look back, groups under a condition, characters by name and the flags x and a are left
out: they are refused. Groups may be nested to any depth. -/

namespace FormulaLint.Pattern

/-! ## Sets of characters -/

def setMember (token : Token) : Reading SetItem :=
  match token with
  | .escaped c => setEscape c
  | .plain c => return .code c.toNat
  | .dangling => fail .danglingEscape 0

def setItems (opened : Nat) : (fuel : Nat) → (items : List SetItem) → Reading (List SetItem)
  | 0, _ => fail .unterminatedSet 0
  | fuel + 1, items => do
      let unterminated : Reading (List SetItem) := do throw ⟨.unterminatedSet, opened⟩
      match ← next with
      | none => unterminated
      | some token =>
          if token = .plain ']' && !items.isEmpty then return items
          else
            let first ← setMember token
            if ← accept '-' then
              match ← next with
              | none => unterminated
              | some (.plain ']') => return items ++ [first, .code '-'.toNat]
              | some other =>
                  let last ← setMember other
                  let bad : Reading (List SetItem) :=
                    fail (.badRange token.text other.text) (token.length + 1 + other.length)
                  match first, last with
                  | .code low, .code high =>
                      if high < low then bad else setItems opened fuel (items ++ [.range low high])
                  | _, _ => bad
            else
              setItems opened fuel (items ++ [first])

def readSet : Reading Expression := do
  let reader ← get
  let negated ← accept '^'
  let items ← setItems (reader.position - 1) (reader.tokens.length + 1) []
  return .char (.set negated items reader.flags.ignoreCase)

/-! ## Repetitions -/

structure Bounds where
  least : Nat
  most : Option Nat

def repeatLimit : Nat := 4294967295

/-- The bounds between braces, the opening one having been taken; none if the brace stands for
itself. -/
def readBraces : Reading (Option Bounds) := do
  let here ← get
  if here.tokens.head? = some (.plain '}') then return none
  let low ← takeChars Char.isDigit here.tokens.length
  let comma ← accept ','
  let high ← if comma then takeChars Char.isDigit here.tokens.length else pure low
  if ← accept '}' then
    let least := numeral 10 low
    let most := if high.isEmpty then none else some (numeral 10 high)
    if repeatLimit ≤ least || most.any (repeatLimit ≤ ·) then
      throw ⟨.repeatTooLarge, here.position⟩
    if most.any (· < least) then throw ⟨.repeatBounds, here.position⟩
    return some ⟨least, most⟩
  else
    set here
    return none

/-! ## Groups -/

def isNameStart (c : Char) : Bool :=
  Character.isWord c && !Character.isDecimal c

def isGroupName (name : String) : Bool :=
  match name.toList with
  | [] => false
  | c :: rest => isNameStart c && rest.all Character.isWord

def readGroupName (terminator : Char) : Reading String := do
  let name ← takeName terminator ((← get).tokens.length + 1) []
  if isGroupName name then return name
  else fail (.badGroupName name) (name.length + 1)

def openGroup (name : Option String) : Reading Nat := do
  let reader ← get
  let number := reader.groupCount + 1
  match name with
  | none =>
      set { reader with groupCount := number }
      return number
  | some name =>
      match reader.names.lookup name with
      | some before => fail (.redefinedGroup name number before) (name.length + 1)
      | none =>
          set { reader with groupCount := number, names := reader.names ++ [(name, number)] }
          return number

def closeGroup (number : Nat) : Reading Unit :=
  modify fun reader => { reader with closed := number :: reader.closed }

def readNamedReference : Reading Expression := do
  let name ← readGroupName ')'
  let reader ← get
  match reader.names.lookup name with
  | none => fail (.unknownGroup name) (name.length + 1)
  | some number =>
      if reader.closed.contains number then return .recall number reader.flags.ignoreCase
      else fail .openGroup (name.length + 1)

def skipComment (opened : Nat) : (fuel : Nat) → Reading Unit
  | 0 => fail .unterminatedComment 0
  | fuel + 1 => do
      match ← next with
      | none => throw ⟨.unterminatedComment, opened⟩
      | some (.plain ')') => return ()
      | some _ => skipComment opened fuel

/-! ## Flags -/

inductive Flag where
  | ignoreCase
  | multipleLines
  | dotAll
  | allScripts
  deriving DecidableEq, Repr

def Flag.ofToken : Token → Option Flag
  | .plain 'i' => some .ignoreCase
  | .plain 'm' => some .multipleLines
  | .plain 's' => some .dotAll
  | .plain 'u' => some .allScripts
  | _ => none

def Flags.put (flags : Flags) (value : Bool) : Flag → Flags
  | .ignoreCase => { flags with ignoreCase := value }
  | .multipleLines => { flags with multipleLines := value }
  | .dotAll => { flags with dotAll := value }
  | .allScripts => flags

def isLetter (token : Token) : Bool :=
  match token with
  | .plain c => isNameStart c && c != '_'
  | _ => false

def flagsOff : (fuel : Nat) → Flag → Reading (List Flag)
  | 0, _ => fail .missingColon 0
  | fuel + 1, flag => do
      if flag = .allScripts then fail .fixedFlag 0
      match ← next with
      | none => fail .missingColon 0
      | some (.plain ':') => return [flag]
      | some token =>
          match Flag.ofToken token with
          | some other => return flag :: (← flagsOff fuel other)
          | none =>
              fail (if isLetter token then .unknownFlag else .missingColon) token.length

def readFlagsOff : Reading (List Flag) := do
  match ← next with
  | none => fail .missingFlag 0
  | some token =>
      match Flag.ofToken token with
      | some flag => flagsOff ((← get).tokens.length + 1) flag
      | none => fail (if isLetter token then .unknownFlag else .missingFlag) token.length

/-- How a list of flags ends: for the whole pattern, or for one group, with those turned off. -/
inductive FlagScope where
  | pattern
  | group (off : List Flag)

def flagsOn : (fuel : Nat) → Flag → Reading (List Flag × FlagScope)
  | 0, _ => fail .missingFlagEnd 0
  | fuel + 1, flag => do
      match ← next with
      | none => fail .missingFlagEnd 0
      | some (.plain ')') => return ([flag], .pattern)
      | some (.plain ':') => return ([flag], .group [])
      | some (.plain '-') => return ([flag], .group (← readFlagsOff))
      | some token =>
          match Flag.ofToken token with
          | some other =>
              let (others, scope) ← flagsOn fuel other
              return (flag :: others, scope)
          | none =>
              fail (if isLetter token then .unknownFlag else .missingFlagEnd) token.length

def applyFlags (on off : List Flag) : Reading Unit := do
  if on.any off.contains then fail .contradictoryFlag 1
  modify fun reader =>
    let added := on.foldl (fun flags flag => flags.put true flag) reader.flags
    { reader with flags := off.foldl (fun flags flag => flags.put false flag) added }

/-! ## Items -/

inductive ItemForm where
  | anchor
  | repeated
  | single
  deriving DecidableEq, Repr

structure Item where
  form : ItemForm
  expression : Expression

inductive GroupHead where
  | remembered (name : Option String)
  | plain
  | flagged (on off : List Flag)
  | ahead (negated : Bool)
  | committed

/-- What stands behind an opening parenthesis: a group with a body, an item of its own, or nothing
that matches. -/
inductive GroupStart where
  | body (head : GroupHead)
  | item (expression : Expression)
  | nothing
  | patternFlags (flags : List Flag)

def readGroupStart (opened : Nat) : Reading GroupStart := do
  if !(← accept '?') then return .body (.remembered none)
  let fuel := (← get).tokens.length + 1
  match ← next with
  | none => fail .endOfPattern 0
  | some (.plain 'P') =>
      if ← accept '<' then return .body (.remembered (some (← readGroupName '>')))
      if ← accept '=' then return .item (← readNamedReference)
      match ← next with
      | none => fail .endOfPattern 0
      | some token => fail (.unknownExtension ("P" ++ token.text)) (token.length + 2)
  | some (.plain ':') => return .body .plain
  | some (.plain '#') =>
      skipComment opened fuel
      return .nothing
  | some (.plain '=') => return .body (.ahead false)
  | some (.plain '!') => return .body (.ahead true)
  | some (.plain '>') => return .body .committed
  | some (.plain '-') => return .body (.flagged [] (← readFlagsOff))
  | some token =>
      match Flag.ofToken token with
      | none => fail (.unknownExtension token.text) (token.length + 1)
      | some flag =>
          match ← flagsOn fuel flag with
          | (flags, .pattern) => return .patternFlags flags
          | (on, .group off) => return .body (.flagged on off)

def repeatLast (token : Token) (bounds : Bounds) (here : Nat) (items : List Item) :
    Reading (List Item) := do
  match items.getLast? with
  | none => throw ⟨.nothingToRepeat, here - token.length⟩
  | some item =>
      if item.form = .anchor then throw ⟨.nothingToRepeat, here - token.length⟩
      if item.form = .repeated then throw ⟨.multipleRepeat, here - token.length⟩
      let repeated := fun (expression : Expression) =>
        items.dropLast ++ [⟨.repeated, expression⟩]
      let repetition := Expression.repetition item.expression bounds.least bounds.most
      if ← accept '?' then return repeated (repetition .least)
      if ← accept '+' then return repeated (.commit (repetition .most))
      return repeated (repetition .most)

def EscapeMeaning.toItem (flags : Flags) : EscapeMeaning → Item
  | .code value => ⟨.single, .char (.exactly value flags.ignoreCase)⟩
  | .item member => ⟨.single, .char (.set false [member] flags.ignoreCase)⟩
  | .anchor place => ⟨.anchor, .anchor place⟩
  | .reference number => ⟨.single, .recall number flags.ignoreCase⟩

/-! ## The grammar -/

mutual

def readAlternatives : (fuel : Nat) → (top first : Bool) → Reading Expression
  | 0, _, _ => fail .endOfPattern 0
  | fuel + 1, top, first => do
      let items ← readItems fuel (top && first) []
      let alternative := Expression.sequenceOf (items.map (·.expression))
      if ← accept '|' then
        return .either alternative (← readAlternatives fuel top false)
      else
        return alternative

/-- The items of a sequence; flags for the whole pattern may stand only in front of the first. -/
def readItems : (fuel : Nat) → (front : Bool) → (items : List Item) → Reading (List Item)
  | 0, _, _ => fail .endOfPattern 0
  | fuel + 1, front, items => do
      match ← peek with
      | none => return items
      | some (.plain '|') => return items
      | some (.plain ')') => return items
      | some token =>
          let _ ← next
          let here := (← get).position
          let flags := (← get).flags
          match token with
          | .dangling => fail .danglingEscape 0
          | .escaped c =>
              readItems fuel front (items ++ [(← outerEscape c).toItem flags])
          | .plain '[' => readItems fuel front (items ++ [⟨.single, ← readSet⟩])
          | .plain '.' => readItems fuel front (items ++ [⟨.single, .char (.any flags.dotAll)⟩])
          | .plain '^' =>
              let place := if flags.multipleLines then Anchor.lineStart else .textStart
              readItems fuel front (items ++ [⟨.anchor, .anchor place⟩])
          | .plain '$' =>
              let place := if flags.multipleLines then Anchor.lineEnd else .lastLineEnd
              readItems fuel front (items ++ [⟨.anchor, .anchor place⟩])
          | .plain '?' => readItems fuel front (← repeatLast token ⟨0, some 1⟩ here items)
          | .plain '*' => readItems fuel front (← repeatLast token ⟨0, none⟩ here items)
          | .plain '+' => readItems fuel front (← repeatLast token ⟨1, none⟩ here items)
          | .plain '{' =>
              match ← readBraces with
              | some bounds => readItems fuel front (← repeatLast token bounds here items)
              | none =>
                  let brace := Expression.char (.exactly '{'.toNat flags.ignoreCase)
                  readItems fuel front (items ++ [⟨.single, brace⟩])
          | .plain '(' =>
              match ← readGroupStart (here - 1) with
              | .item expression => readItems fuel front (items ++ [⟨.single, expression⟩])
              | .nothing => readItems fuel front items
              | .patternFlags on =>
                  if !front || !items.isEmpty then throw ⟨.misplacedFlags, here - 1⟩
                  applyFlags on []
                  readItems fuel front items
              | .body head =>
                  let expression ← readGroup fuel (here - 1) head
                  readItems fuel front (items ++ [⟨.single, expression⟩])
          | .plain c =>
              let expression := Expression.char (.exactly c.toNat flags.ignoreCase)
              readItems fuel front (items ++ [⟨.single, expression⟩])

def readGroup : (fuel : Nat) → (opened : Nat) → GroupHead → Reading Expression
  | 0, _, _ => fail .endOfPattern 0
  | fuel + 1, opened, head => do
      let outer := (← get).flags
      let number ← match head with
        | .remembered name => some <$> openGroup name
        | _ => pure none
      match head with
        | .flagged on off => applyFlags on off
        | _ => pure ()
      let body ← readAlternatives fuel false true
      if !(← accept ')') then throw ⟨.unterminatedGroup, opened⟩
      modify fun reader => { reader with flags := outer }
      match head, number with
      | .remembered _, some number =>
          closeGroup number
          return .group number body
      | .ahead negated, _ => return .ahead negated body
      | .committed, _ => return .commit body
      | _, _ => return body

end

def readPattern : Reading Expression := do
  refuseDangling
  let expression ← readAlternatives (4 * (← get).tokens.length + 4) true true
  if (← peek).isSome then fail .unbalancedParenthesis 0
  return expression

end FormulaLint.Pattern
