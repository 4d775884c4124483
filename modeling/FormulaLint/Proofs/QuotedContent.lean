import Mathlib.Data.List.Infix
import Mathlib.Data.List.TakeWhile

/-! The content of quoted literals. A quoting reads a content as signs, which are characters that
stand for themselves and escapes that begin with a backslash. Between single quotes few characters
are escaped. What is escaped between double quotes is a matter of the language, of which some laws
are asked. Between double quotes a content never denotes more than in its own quotes, and less if
its own quotes let a backslash stand for itself. -/

namespace FormulaLint

/-! ## Signs -/

/-- What stands at a place of a content: a character, or an escape and the bytes that it denotes. -/
inductive Sign where
  | bare (c : Char)
  | escape (written : List Char) (denoted : List UInt8)
  deriving DecidableEq, Repr

namespace Sign

def written : Sign → List Char
  | bare c => [c]
  | escape written _ => written

def denoted : Sign → List UInt8
  | bare c => String.utf8EncodeChar c
  | escape _ denoted => denoted

end Sign

abbrev EscapeReading := List Char → Option (List UInt8 × Nat)

namespace EscapeReading

variable {reading other : EscapeReading} {c : Char} {chars rest more : List Char}
  {denoted : List UInt8} {count : Nat}

/-- The signs of a content. A backslash that begins no escape stands for itself. -/
def signs (reading : EscapeReading) : List Char → List Sign
  | [] => []
  | c :: rest =>
      if c = '\\' then
        match reading rest with
        | none => .bare c :: signs reading rest
        | some (denoted, count) =>
            .escape (c :: rest.take count) denoted :: signs reading (rest.drop count)
      else
        .bare c :: signs reading rest
termination_by chars => chars.length

def meaning (reading : EscapeReading) (chars : List Char) : List UInt8 :=
  (reading.signs chars).flatMap Sign.denoted

@[simp] theorem signs_nil (reading : EscapeReading) : reading.signs [] = [] := by
  rw [signs]

theorem signs_cons (reading : EscapeReading) (ordinary : c ≠ '\\') :
    reading.signs (c :: rest) = .bare c :: reading.signs rest := by
  rw [signs, if_neg ordinary]

private theorem signs_stray (none : reading rest = none) :
    reading.signs ('\\' :: rest) = .bare '\\' :: reading.signs rest := by
  rw [signs, if_pos rfl, none]

theorem signs_escape (found : reading rest = some (denoted, count)) :
    reading.signs ('\\' :: rest) =
      .escape ('\\' :: rest.take count) denoted :: reading.signs (rest.drop count) := by
  rw [signs, if_pos rfl, found]

@[simp] theorem meaning_nil (reading : EscapeReading) : reading.meaning [] = [] := by
  rw [meaning, signs_nil, List.flatMap_nil]

theorem meaning_cons (reading : EscapeReading) (ordinary : c ≠ '\\') :
    reading.meaning (c :: rest) = String.utf8EncodeChar c ++ reading.meaning rest := by
  rw [meaning, signs_cons reading ordinary]
  rfl

theorem meaning_stray (none : reading rest = none) :
    reading.meaning ('\\' :: rest) = String.utf8EncodeChar '\\' ++ reading.meaning rest := by
  rw [meaning, signs_stray none]
  rfl

theorem meaning_escape (found : reading rest = some (denoted, count)) :
    reading.meaning ('\\' :: rest) = denoted ++ reading.meaning (rest.drop count) := by
  rw [meaning, signs_escape found]
  rfl

theorem meaning_append (reading : EscapeReading) {front : List Char} (ordinary : '\\' ∉ front)
    (back : List Char) :
    reading.meaning (front ++ back) =
      front.flatMap String.utf8EncodeChar ++ reading.meaning back := by
  induction front with
  | nil => rfl
  | cons c front induction =>
      rw [List.mem_cons, not_or] at ordinary
      rw [List.cons_append, meaning_cons reading (Ne.symm ordinary.1), induction ordinary.2,
        List.flatMap_cons, List.append_assoc]

/-- Another reading knows the escapes of a content, also where more is written behind the content.
-/
def KnownTo (reading other : EscapeReading) (chars more : List Char) : Prop :=
  ∀ rest, rest <:+ chars → ∀ denoted count, reading rest = some (denoted, count) →
    count ≤ rest.length ∧ other (rest ++ more) = some (denoted, count)

theorem KnownTo.signs_append (known : reading.KnownTo other chars more)
    (noStray : .bare '\\' ∉ reading.signs chars) :
    other.signs (chars ++ more) = reading.signs chars ++ other.signs more := by
  fun_induction signs reading chars with
  | case1 => rfl
  | case2 rest none induction => simp at noStray
  | case3 rest denoted count found induction =>
      rcases known rest (List.suffix_cons _ _) _ _ found with ⟨inside, foundToo⟩
      have behind : (rest ++ more).drop count = rest.drop count ++ more :=
        List.drop_append_of_le_length inside
      have front : (rest ++ more).take count = rest.take count :=
        List.take_append_of_le_length inside
      rw [List.cons_append, signs_escape foundToo, behind, front, List.cons_append]
      congr 1
      apply induction
      · intro back ends
        exact known back ((ends.trans (List.drop_suffix count rest)).trans (List.suffix_cons _ _))
      · exact fun member => noStray (List.mem_cons_of_mem _ member)
  | case4 c rest ordinary induction =>
      rw [List.cons_append, signs_cons other ordinary, List.cons_append]
      congr 1
      apply induction
      · exact fun back ends => known back (ends.trans (List.suffix_cons _ _))
      · exact fun member => noStray (List.mem_cons_of_mem _ member)

theorem KnownTo.meaning_append (known : reading.KnownTo other chars more)
    (noStray : .bare '\\' ∉ reading.signs chars) :
    other.meaning (chars ++ more) = reading.meaning chars ++ other.meaning more := by
  rw [meaning, known.signs_append noStray, List.flatMap_append]
  rfl

/-! ## Single quotes -/

/-- Between delimiters only these and the backslash are escaped. -/
def between (delimiters : List Char) : EscapeReading
  | [] => none
  | c :: _ => if c = '\\' ∨ c ∈ delimiters then some (String.utf8EncodeChar c, 1) else none

section Between

variable {delimiters : List Char}

private theorem exists_of_between_eq_some
    (found : between delimiters chars = some (denoted, count)) :
    ∃ c rest, chars = c :: rest ∧ (c = '\\' ∨ c ∈ delimiters) ∧
      denoted = String.utf8EncodeChar c ∧ count = 1 := by
  fun_cases between delimiters chars with
  | case1 => cases found
  | case2 c rest known =>
      rw [between, if_pos known] at found
      cases found
      exact ⟨c, rest, rfl, known, rfl, rfl⟩
  | case3 c rest unknown =>
      rw [between, if_neg unknown] at found
      cases found

theorem meaning_between_known (known : c = '\\' ∨ c ∈ delimiters) :
    (between delimiters).meaning ('\\' :: c :: rest) =
      String.utf8EncodeChar c ++ (between delimiters).meaning rest := by
  have found : between delimiters (c :: rest) = some (String.utf8EncodeChar c, 1) := if_pos known
  exact meaning_escape found

theorem meaning_between_unknown (unknown : ¬(c = '\\' ∨ c ∈ delimiters)) :
    (between delimiters).meaning ('\\' :: c :: rest) =
      String.utf8EncodeChar '\\' ++ (between delimiters).meaning (c :: rest) := by
  have none : between delimiters (c :: rest) = none := if_neg unknown
  exact meaning_stray none

theorem length_backslash : (String.utf8EncodeChar '\\').length = 1 := by
  decide

theorem length_utf8EncodeChar_pos (c : Char) : 0 < (String.utf8EncodeChar c).length := by
  rw [String.length_utf8EncodeChar]
  exact c.utf8Size_pos

theorem length_meaning_backslash (delimiters rest : List Char) :
    ((between delimiters).meaning rest).length ≤
        ((between delimiters).meaning ('\\' :: rest)).length ∧
      ((between delimiters).meaning ('\\' :: rest)).length ≤
        ((between delimiters).meaning rest).length + 1 := by
  induction rest with
  | nil =>
      rw [meaning_stray rfl, List.length_append, length_backslash, meaning_nil]
      decide
  | cons c rest induction =>
      by_cases known : c = '\\' ∨ c ∈ delimiters
      · rw [meaning_between_known known, List.length_append]
        by_cases backslash : c = '\\'
        · subst backslash
          rw [length_backslash]
          omega
        · rw [meaning_cons _ backslash, List.length_append]
          omega
      · rw [meaning_between_unknown known, List.length_append, length_backslash]
        omega

theorem countP_add_length_meaning_le (delimiters front back : List Char) :
    front.countP (· != '\\') + ((between delimiters).meaning back).length ≤
      ((between delimiters).meaning (front ++ back)).length := by
  induction front with
  | nil => simp
  | cons c front induction =>
      by_cases backslash : c = '\\'
      · subst backslash
        have added := (length_meaning_backslash delimiters (front ++ back)).1
        rw [List.countP_cons_of_neg (by decide)]
        exact induction.trans added
      · have added := length_utf8EncodeChar_pos c
        rw [List.countP_cons_of_pos (by simpa using backslash), List.cons_append,
          meaning_cons _ backslash, List.length_append]
        omega

end Between

end EscapeReading

/-! ## Double quotes -/

/-- What is asked of a language about double quotes. An escape that does not begin with a letter or
a digit is the character itself, line ends apart. One that does may take several characters, but it
denotes at most a byte for each of them that is no backslash. What follows on later lines takes no
part in it. -/
structure EscapeRules where
  escape? : EscapeReading
  interpolates : List Char → Bool
  escape?_nil : escape? [] = none
  escape?_sign {c : Char} {rest : List Char} :
    c.isAlphanum = false → '\n' ∉ c :: rest →
      escape? (c :: rest) = some (String.utf8EncodeChar c, 1)
  length_le_countP {c : Char} {rest : List Char} {denoted : List UInt8} {count : Nat} :
    c.isAlphanum = true → escape? (c :: rest) = some (denoted, count) →
      denoted.length ≤ ((c :: rest).take count).countP (· != '\\')
  count_le_length {chars : List Char} {denoted : List UInt8} {count : Nat} :
    escape? chars = some (denoted, count) → count ≤ chars.length
  escape?_append_line {chars more : List Char} {denoted : List UInt8} {count : Nat} :
    ¬['\r', '\n'] <:+: chars ++ '\n' :: more → escape? chars = some (denoted, count) →
      escape? (chars ++ '\n' :: more) = some (denoted, count)
  interpolates_brace {rest : List Char} : interpolates ('{' :: rest) = true

/-- Signs that can stand between double quotes as they are: no quote that ends the literal, no
backslash that makes an escape of what follows it, and no interpolation. -/
structure EscapeRules.Fits (rules : EscapeRules) (signs : List Sign) : Prop where
  noQuote : .bare '\x22' ∉ signs
  noStray : .bare '\\' ∉ signs
  noOpening : ¬∃ front back, signs = front ++ .bare '#' :: back ∧
    rules.interpolates (back.flatMap Sign.written) = true

theorem EscapeRules.fits_of_notMem (rules : EscapeRules) {signs : List Sign}
    (noQuote : .bare '\x22' ∉ signs) (noStray : .bare '\\' ∉ signs)
    (noNumberSign : .bare '#' ∉ signs) : rules.Fits signs where
  noQuote := noQuote
  noStray := noStray
  noOpening := by
    rintro ⟨front, back, rfl, -⟩
    exact noNumberSign (List.mem_append_right front List.mem_cons_self)

/-! ## Quotings -/

/-- Between some delimiters only these and the backslash are escaped; elsewhere everything is that
is escaped between double quotes. -/
inductive Quoting where
  | verbatim (delimiters : List Char) (apart : ∀ c ∈ delimiters, c.isAlphanum = false)
  | escaping

namespace Quoting

def escape? (rules : EscapeRules) : Quoting → EscapeReading
  | verbatim delimiters _ => .between delimiters
  | escaping => rules.escape?

def delimiters (opening : Char) : List Char :=
  if opening = '(' then ['(', ')']
  else if opening = '[' then ['[', ']']
  else if opening = '{' then ['{', '}']
  else if opening = '<' then ['<', '>']
  else [opening]

private theorem apart_delimiters {opening : Char} (sign : opening.isAlphanum = false) :
    ∀ c ∈ delimiters opening, c.isAlphanum = false := by
  unfold delimiters
  repeat' split
  case isFalse => exact List.forall_mem_singleton.mpr sign
  all_goals exact List.forall_mem_cons.mpr ⟨by decide, List.forall_mem_singleton.mpr (by decide)⟩

def ofOpening? : List Char → Option Quoting
  | '\x27' :: _ => some (.verbatim ['\x27'] (List.forall_mem_singleton.mpr (by decide)))
  | '\x22' :: _ => some .escaping
  | '%' :: 'q' :: opening :: _ =>
      if sign : opening.isAlphanum = false then
        some (.verbatim (delimiters opening) (apart_delimiters sign))
      else
        none
  | '%' :: 'Q' :: opening :: _ => if opening.isAlphanum then none else some .escaping
  | '%' :: opening :: _ => if opening.isAlphanum then none else some .escaping
  | _ => none

end Quoting

/-! ## A content in other quotes -/

namespace EscapeRules

open EscapeReading

variable {rules : EscapeRules} {delimiters chars rest more : List Char} {c : Char}
  {denoted : List UInt8} {count : Nat}

theorem knownTo_of_between (rules : EscapeRules)
    (apart : ∀ c ∈ delimiters, c.isAlphanum = false) (oneLine : '\n' ∉ chars) :
    (between delimiters).KnownTo rules.escape? chars [] := by
  intro rest ends denoted count found
  rcases exists_of_between_eq_some found with ⟨c, others, rfl, known, rfl, rfl⟩
  have sign : c.isAlphanum = false := by
    rcases known with rfl | delimiter
    · decide
    · exact apart c delimiter
  rw [List.append_nil]
  exact ⟨by simp, rules.escape?_sign sign fun member => oneLine (ends.subset member)⟩

private theorem knownTo_of_line (rules : EscapeRules)
    (lineEnds : ¬['\r', '\n'] <:+: chars ++ '\n' :: more) :
    rules.escape?.KnownTo rules.escape? chars ('\n' :: more) := by
  rintro rest ⟨front, rfl⟩ denoted count found
  rw [List.append_assoc] at lineEnds
  have ends : ¬['\r', '\n'] <:+: rest ++ '\n' :: more :=
    fun pair => lineEnds (pair.trans (List.suffix_append front _).isInfix)
  exact ⟨rules.count_le_length found, rules.escape?_append_line ends found⟩

theorem length_add_lt_of_letter (apart : ∀ c ∈ delimiters, c.isAlphanum = false)
    (letter : c.isAlphanum = true) (found : rules.escape? (c :: rest) = some (denoted, count))
    (more : List Char) :
    denoted.length + ((between delimiters).meaning ((c :: rest).drop count ++ more)).length <
      ((between delimiters).meaning ('\\' :: c :: rest ++ more)).length := by
  have unknown : ¬(c = '\\' ∨ c ∈ delimiters) := by
    rintro (rfl | delimiter)
    · exact absurd letter (by decide)
    · rw [apart c delimiter] at letter
      cases letter
  have short := rules.length_le_countP letter found
  have taken := countP_add_length_meaning_le delimiters ((c :: rest).take count)
    ((c :: rest).drop count ++ more)
  rw [← List.append_assoc, List.take_append_drop] at taken
  rw [List.cons_append, List.cons_append, meaning_between_unknown unknown, List.length_append,
    length_backslash, ← List.cons_append]
  omega

/-- Between double quotes a content denotes no more bytes than between delimiters, whatever follows
it there; and it denotes fewer if the delimiters leave a backslash of it by itself. -/
theorem length_meaning_add_le (apart : ∀ c ∈ delimiters, c.isAlphanum = false)
    (oneLine : '\n' ∉ chars) (noStray : .bare '\\' ∉ rules.escape?.signs chars)
    (more : List Char) :
    let less := (rules.escape?.meaning chars).length + ((between delimiters).meaning more).length
    less ≤ ((between delimiters).meaning (chars ++ more)).length ∧
      (.bare '\\' ∈ (between delimiters).signs chars →
        less < ((between delimiters).meaning (chars ++ more)).length) := by
  fun_induction EscapeReading.signs rules.escape? chars with
  | case1 => simp
  | case2 rest none induction => simp at noStray
  | case3 rest denoted count found induction =>
      rw [List.mem_cons, not_or] at oneLine
      have hypothesis := induction (fun member => oneLine.2 (List.mem_of_mem_drop member))
        (fun member => noStray (List.mem_cons_of_mem _ member))
      rw [meaning_escape found, List.length_append]
      cases rest with
      | nil => rw [rules.escape?_nil] at found; cases found
      | cons c others =>
          by_cases letter : c.isAlphanum = true
          · have fewer := length_add_lt_of_letter apart letter found more
            omega
          · -- The escape is the character itself, which may be no escape between the delimiters.
            have sign := rules.escape?_sign (Bool.eq_false_iff.mpr letter) oneLine.2
            rw [found] at sign
            cases sign
            rw [List.drop_one, List.tail_cons] at hypothesis ⊢
            rw [List.cons_append, List.cons_append]
            by_cases known : c = '\\' ∨ c ∈ delimiters
            · have escape : between delimiters (c :: others) = some (String.utf8EncodeChar c, 1) :=
                if_pos known
              rw [meaning_between_known known, List.length_append, signs_escape escape]
              constructor
              · omega
              · intro stray
                have fewer := hypothesis.2 ((List.mem_cons.mp stray).resolve_left (by simp))
                omega
            · rw [meaning_between_unknown known, List.length_append, length_backslash,
                meaning_cons _ (not_or.mp known).1, List.length_append]
              omega
  | case4 c rest ordinary induction =>
      rw [List.mem_cons, not_or] at oneLine
      have hypothesis := induction oneLine.2 (fun member => noStray (List.mem_cons_of_mem _ member))
      rw [meaning_cons _ ordinary, List.cons_append, meaning_cons _ ordinary, signs_cons _ ordinary,
        List.length_append, List.length_append]
      constructor
      · omega
      · intro stray
        have other : Sign.bare '\\' ≠ .bare c := fun same => ordinary (Sign.bare.inj same).symm
        have fewer := hypothesis.2 ((List.mem_cons.mp stray).resolve_left other)
        omega

end EscapeRules

namespace Quoting

open EscapeReading

variable {rules : EscapeRules} {quoting : Quoting} {chars more : List Char}

theorem signs_eq_of_noStray (oneLine : '\n' ∉ chars)
    (noStray : .bare '\\' ∉ (quoting.escape? rules).signs chars) :
    rules.escape?.signs chars = (quoting.escape? rules).signs chars := by
  cases quoting with
  | verbatim delimiters apart =>
      have read := (rules.knownTo_of_between apart oneLine).signs_append noStray
      rwa [List.append_nil, signs_nil, List.append_nil] at read
  | escaping => rfl

theorem meaning_line_ne_nil (reading : EscapeReading) (later : List Char) :
    reading.meaning ('\n' :: later) ≠ [] := by
  rw [meaning_cons reading (by decide)]
  intro none
  have short := List.length_eq_zero_iff.mpr (List.append_eq_nil_iff.mp none).1
  have long := length_utf8EncodeChar_pos '\n'
  omega

/-- If one line denotes between double quotes what the line and further lines denote in some quotes,
there are no further lines, and neither quotes leave a stray backslash. -/
theorem noStray_of_meaning_eq (oneLine : '\n' ∉ chars)
    (behind : more = [] ∨ ∃ later, more = '\n' :: later)
    (lineEnds : ¬['\r', '\n'] <:+: chars ++ more)
    (noStray : .bare '\\' ∉ rules.escape?.signs chars)
    (same : rules.escape?.meaning chars = (quoting.escape? rules).meaning (chars ++ more)) :
    more = [] ∧ .bare '\\' ∉ (quoting.escape? rules).signs chars := by
  cases quoting with
  | verbatim delimiters apart =>
      change _ = (between delimiters).meaning _ at same
      change _ ∧ _ ∉ (between delimiters).signs chars
      rcases rules.length_meaning_add_le apart oneLine noStray more with ⟨most, fewer⟩
      rw [same] at most fewer
      constructor
      · rcases behind with rfl | ⟨later, rfl⟩
        · rfl
        · have some := List.length_pos_of_ne_nil (meaning_line_ne_nil (between delimiters) later)
          omega
      · intro stray
        have less := fewer stray
        omega
  | escaping =>
      refine ⟨?_, noStray⟩
      rcases behind with rfl | ⟨later, rfl⟩
      · rfl
      · have read := (rules.knownTo_of_line lineEnds).meaning_append noStray
        have none := List.append_right_eq_self.mp (read.symm.trans same.symm)
        exact absurd none (meaning_line_ne_nil rules.escape? later)

/-- One line between double quotes says what the line and further lines say in some quotes if and
only if there are no further lines and the signs of the line fit between double quotes. -/
theorem fits_and_meaning_eq_iff (rules : EscapeRules) (quoting : Quoting) (oneLine : '\n' ∉ chars)
    (behind : more = [] ∨ ∃ later, more = '\n' :: later)
    (lineEnds : ¬['\r', '\n'] <:+: chars ++ more) :
    rules.Fits (rules.escape?.signs chars) ∧
        rules.escape?.meaning chars = (quoting.escape? rules).meaning (chars ++ more) ↔
      more = [] ∧ rules.Fits ((quoting.escape? rules).signs chars) := by
  constructor
  · rintro ⟨fits, same⟩
    rcases noStray_of_meaning_eq oneLine behind lineEnds fits.noStray same with ⟨none, noStray⟩
    rw [signs_eq_of_noStray oneLine noStray] at fits
    exact ⟨none, fits⟩
  · rintro ⟨rfl, fits⟩
    have read := signs_eq_of_noStray oneLine fits.noStray
    rw [List.append_nil, meaning, meaning, read]
    exact ⟨fits, rfl⟩

end Quoting

end FormulaLint
