import FormulaLint.Proofs.QuotedContent
import FormulaLint.Proofs.StrippedOptions

/-! Options that change their quotes. When a query whether an option is included becomes a query for
the option, the text of the option is written between double quotes as it is, whatever its own
quotes were. -/

namespace FormulaLint

def Node.quoting? (option : Node) : Option Quoting :=
  Quoting.ofOpening? option.text.toList

namespace Rules

theorem fits_firstLine_iff (rules : EscapeRules) (quoting : Quoting) {chars : List Char}
    (lineEnds : ¬['\r', '\n'] <:+: chars) :
    rules.Fits (rules.escape?.signs (Flag.firstLine chars)) ∧
        rules.escape?.meaning (Flag.firstLine chars) = (quoting.escape? rules).meaning chars ↔
      '\n' ∉ chars ∧ rules.Fits ((quoting.escape? rules).signs chars) := by
  have whole := Flag.firstLine_append_furtherLines chars
  have compared := Quoting.fits_and_meaning_eq_iff rules quoting (Flag.not_mem_firstLine chars)
    (Flag.eq_nil_or_exists_of_furtherLines chars) (whole.symm ▸ lineEnds)
  rw [whole, Flag.furtherLines_eq_nil_iff] at compared
  rw [compared]
  apply and_congr_right
  intro oneLine
  rw [Flag.firstLine_eq_self_iff.mpr oneLine]

/-- An option keeps what it says between double quotes if and only if it is on one line and holds
nothing, escapes apart, that double quotes would take for something else: no double quote, no
backslash and no interpolation. No line of it may end in a carriage return, as none does in a source
that has been read. -/
theorem includeQuery_requotes_iff (rules : EscapeRules) (context : Surroundings) (site : Site)
    (draft : Draft) (option : Node) (content : String)
    (drafted : includeQuery.Drafts context site draft)
    (argument : literalArgument? site.node = some (option, content))
    (lineEnds : ¬['\r', '\n'] <:+: content.toList) :
    ∃ word ∈ Flag.words, ∃ tail,
      let marker := word.toList ++ ['-']
      let left := Flag.firstLine tail
      content.toList = marker ++ tail ∧
      draft.fix = some (site.node.replacedBy
        ("build." ++ word ++ "? \"" ++ String.ofList left ++ "\"")) ∧
      ∀ quoting, option.quoting? = some quoting →
        let reading := quoting.escape? rules
        reading.meaning content.toList =
          marker.flatMap String.utf8EncodeChar ++ reading.meaning tail ∧
        (rules.Fits (rules.escape?.signs left) ∧
            rules.escape?.meaning left = reading.meaning tail ↔
          '\n' ∉ tail ∧ rules.Fits (reading.signs tail)) := by
  rcases strips_includedWord.of_drafts drafted with
    ⟨query, listed, other, otherContent, marker, tail, asked, marks, fix⟩
  cases argument.symm.trans asked.argument
  rcases List.mem_map.mp marks.listed with ⟨word, known, rfl⟩
  have written : draft.fix = some (site.node.replacedBy
      ("build." ++ word ++ "? \"" ++ String.ofList (Flag.firstLine tail) ++ "\"")) := by
    rw [fix]
    simp [includedWord]
  have ordinary : ∀ word ∈ Flag.words, '\\' ∉ word.toList ++ ['-'] := by
    decide
  have ends : ¬['\r', '\n'] <:+: tail := by
    rw [marks.parted] at lineEnds
    exact fun pair => lineEnds (pair.trans (List.suffix_append _ tail).isInfix)
  refine ⟨word, known, tail, marks.parted, written, ?_⟩
  intro quoting _
  constructor
  · rw [marks.parted, EscapeReading.meaning_append _ (ordinary word known)]
  · exact fits_firstLine_iff rules quoting ends

/-! ### Options between single quotes -/

/-- What a character denotes behind a backslash, if it is no letter or digit or if it is one of the
letters that stand for a byte by themselves. -/
def escapedCharacter? (c : Char) : Option (List UInt8) :=
  if c = '\n' then some []
  else if c.isAlphanum then
    let letters := [('a', 7), ('b', 8), ('t', 9), ('n', 10), ('v', 11), ('f', 12), ('r', 13),
      ('e', 27), ('s', 32)]
    (letters.lookup c).map fun byte => [byte]
  else some (String.utf8EncodeChar c)

def characterEscape? : EscapeReading
  | [] => none
  | c :: _ => (escapedCharacter? c).map fun denoted => (denoted, 1)

theorem characterEscape?_cons_eq_some_iff {c : Char} {rest : List Char} {denoted : List UInt8}
    {count : Nat} :
    characterEscape? (c :: rest) = some (denoted, count) ↔
      escapedCharacter? c = some denoted ∧ count = 1 := by
  simp [characterEscape?, eq_comm]

def characterEscapes : EscapeRules where
  escape? := characterEscape?
  interpolates chars := chars.head?.any fun c => c = '{' || c = '$' || c = '@'
  escape?_nil := rfl
  escape?_sign := by
    intro c rest sign oneLine
    have other : c ≠ '\n' := fun same => oneLine (same ▸ List.mem_cons_self)
    apply characterEscape?_cons_eq_some_iff.mpr
    simp [escapedCharacter?, sign, other]
  length_le_countP := by
    intro c rest denoted count letter found
    rcases characterEscape?_cons_eq_some_iff.mp found with ⟨read, rfl⟩
    have other : c ≠ '\n' := by rintro rfl; cases letter
    have ordinary : c ≠ '\\' := by rintro rfl; cases letter
    rw [escapedCharacter?, if_neg other, if_pos letter, Option.map_eq_some_iff] at read
    rcases read with ⟨byte, -, rfl⟩
    simp [ordinary]
  count_le_length := by
    intro chars denoted count found
    cases chars with
    | nil => cases found
    | cons c rest =>
        rw [(characterEscape?_cons_eq_some_iff.mp found).2, List.length_cons]
        omega
  escape?_append_line := by
    intro chars more denoted count _ found
    cases chars with
    | nil => cases found
    | cons c rest => exact found
  interpolates_brace := rfl

/-- A quote that is escaped between single quotes is escaped between double quotes too. -/
theorem includeQuery_requotes_escapedQuote :
    let node := optionQuery "include?" "'" "with-a\\'b" 1 26
    let source := optionQueryText "include?" "'" "with-a\\'b"
    let left := ['a', '\\', '\x27', 'b']
    ∃ draft fix, includeQuery.Drafts (.ofLine source node) ⟨node, []⟩ draft ∧
      draft.fix = some fix ∧ fix.splice? source = some (optionQueryText "with?" "\"" "a\\'b") ∧
      characterEscapes.Fits (characterEscapes.escape?.signs left) ∧
      characterEscapes.escape?.meaning left = [97, 39, 98] := by
  intro node source left
  have asked := asksOption_optionQuery "include?" "'" "with-a\\'b" 1 26
  have marked : includedWord.Marks "include?" "with-a\\'b" ['w', 'i', 't', 'h', '-'] left :=
    ⟨by decide, by decide, trivial, trivial⟩
  have reported : ∃ draft, includeQuery.Drafts (.ofLine source node) ⟨node, []⟩ draft :=
    strips_includedWord.exists_draft _ List.mem_cons_self asked marked
  rcases reported with ⟨draft, drafted⟩
  have requotes :=
    includeQuery_requotes_iff characterEscapes _ _ _ _ _ drafted asked.argument (by decide)
  rcases requotes with ⟨word, known, tail, parted, fix, requoted⟩
  rcases strips_includedWord.marks_unique List.mem_cons_self marked
    ⟨List.mem_map_of_mem known, parted, trivial, trivial⟩ with ⟨same, rfl⟩
  have isWith : word = "with" := by
    rw [← String.toList_inj]
    exact (List.append_cancel_right same).symm
  subst isWith
  have read : (EscapeReading.between ['\x27']).signs left =
      [.bare 'a', .escape ['\\', '\x27'] [39], .bare 'b'] := by
    have escaped : EscapeReading.between ['\x27'] ['\x27', 'b'] = some ([39], 1) := by decide
    rw [EscapeReading.signs_cons _ (by decide), EscapeReading.signs_escape escaped, List.drop_one,
      List.tail_cons, EscapeReading.signs_cons _ (by decide), EscapeReading.signs_nil]
    rfl
  have fits : characterEscapes.Fits ((EscapeReading.between ['\x27']).signs left) := by
    rw [read]
    exact characterEscapes.fits_of_notMem (by decide) (by decide) (by decide)
  rcases (requoted _ rfl).2.mpr ⟨by decide, fits⟩ with
    ⟨fitting, meaning⟩
  have line : Flag.firstLine left = left := by decide
  rw [line] at fitting meaning
  refine ⟨draft, _, drafted, fix, by decide, fitting, ?_⟩
  rw [meaning, Quoting.escape?, EscapeReading.meaning, read]
  decide

/-- A double quote in the option ends the literal too early. -/
theorem not_requoted_doubleQuote :
    let node := optionQuery "include?" "'" "with-a\"b" 1 25
    let source := optionQueryText "include?" "'" "with-a\"b"
    node.LaidOutBelow source ∧
    (∃ draft fix, includeQuery.Drafts (.ofLine source node) ⟨node, []⟩ draft ∧
      draft.fix = some fix ∧ fix.splice? source = some (optionQueryText "with?" "\"" "a\"b")) ∧
    ∀ rules : EscapeRules, ¬rules.Fits (rules.escape?.signs ['a', '\x22', 'b']) := by
  intro node source
  have asked := asksOption_optionQuery "include?" "'" "with-a\"b" 1 25
  have marked : includedWord.Marks "include?" "with-a\"b" ['w', 'i', 't', 'h', '-']
      ['a', '\x22', 'b'] :=
    ⟨by decide, by decide, trivial, trivial⟩
  have reported : ∃ draft, includeQuery.Drafts (.ofLine source node) ⟨node, []⟩ draft ∧ _ :=
    strips_includedWord.exists_fix List.mem_cons_self asked marked
  rcases reported with ⟨draft, drafted, fix⟩
  refine ⟨by decide, ⟨draft, _, drafted, fix, by decide⟩, ?_⟩
  intro rules fits
  apply fits.noQuote
  rw [EscapeReading.signs_cons _ (by decide), EscapeReading.signs_cons _ (by decide)]
  simp

end Rules

end FormulaLint
