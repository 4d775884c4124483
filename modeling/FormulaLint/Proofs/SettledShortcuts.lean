import FormulaLint.Proofs.PlainExpressions
import FormulaLint.Proofs.QuotedShortcuts

/-! Path shortcuts that are final. In the packaged table a shortcut can be a helper with patterns of
its own. What they would find behind it is found behind the first helper already, by a pattern that
is tried earlier. -/

namespace FormulaLint

/-! ## Patterns for paths -/

namespace Pattern

variable {front text : String} {names : Expression} {conditions : List Expression}
variable {words : List Char → Prop} {holds : Progress → Prop} {stop : Progress} {found : Match}

def Progress.behindName (front name rest : List Char) : Progress :=
  ⟨(front ++ name).reverse, rest, [(1, ⟨front.length, name.reverse⟩)]⟩

namespace Expression

/-- The front of a path, a name behind it that is remembered, and conditions on the place where the
name ends. -/
def pathTo (front : String) (names : Expression) (conditions : List Expression) : Expression :=
  sequenceOf (.anchor .textStart :: (letters front.toList ++ .group 1 names :: conditions))

private theorem startsText_pathTo (front : String) (names : Expression)
    (conditions : List Expression) :
    (pathTo front names conditions).startsText = true := by
  rw [pathTo]
  cases letters front.toList <;> rfl

theorem leads_pathTo_iff (spells : names.Spells words)
    (demands : (sequenceOf conditions).Demands holds) {chars : List Char} :
    (pathTo front names conditions).Leads (.atStart chars) stop ↔
      ∃ name rest, words name ∧ chars = front.toList ++ (name ++ rest) ∧ holds stop ∧
        stop = .behindName front.toList name rest := by
  rw [pathTo, leads_sequenceOf_cons]
  simp only [leads_sequenceOf_append, leads_sequenceOf_cons]
  constructor
  · rintro ⟨start, opens, middle, passes, later, remembers, ends⟩
    cases opens
    rcases (spells_letters front.toList _ _).mp passes with ⟨_, further, rfl, ahead, rfl⟩
    rcases (demands _ _).mp ends with ⟨rfl, holds⟩
    cases remembers with
    | group leads taken =>
        rcases (spells _ _).mp leads with ⟨name, rest, known, behind, rfl⟩
        have same := taken.unique (Progress.passes_behind behind)
        change further = name ++ rest at behind
        subst same behind
        refine ⟨_, rest, known, ahead, holds, ?_⟩
        simp [Progress.behindName, Progress.behind, Progress.atStart, Progress.position]
  · rintro ⟨name, rest, known, rfl, holds, rfl⟩
    let start := Progress.atStart (front.toList ++ (name ++ rest))
    let middle := start.behind front.toList (name ++ rest)
    refine ⟨start, .anchor rfl, middle, ?_, .behindName front.toList name rest, ?_, ?_⟩
    · exact (spells_letters _ _ _).mpr ⟨_, _, rfl, rfl, rfl⟩
    · have leads : names.Leads middle (middle.behind name rest) :=
        (spells _ _).mpr ⟨name, rest, known, rfl, rfl⟩
      have group : (Expression.group 1 names).Leads middle _ :=
        .group leads (Progress.passes_behind rfl)
      simpa [Progress.behindName, Progress.behind, Progress.atStart, Progress.position, middle,
        start] using group
    · exact (demands _ _).mpr ⟨rfl, holds⟩

/-- What such an expression finds is a path to a name, which it remembers. -/
theorem exists_of_search_pathTo (spells : names.Spells words)
    (demands : (sequenceOf conditions).Demands holds)
    (searched : (pathTo front names conditions).search text = some found) :
    ∃ name rest, words name ∧ text.toList = front.toList ++ (name ++ rest) ∧
      holds (.behindName front.toList name rest) ∧ found.stop = front.length + name.length ∧
        found.group? 1 = some (String.ofList name) := by
  rcases exists_cuts_of_search searched with ⟨before, taken, back, parted, cuts⟩
  have none : before = [] :=
    List.reverse_eq_nil_iff.mp (cuts.leads.before_eq_nil (startsText_pathTo _ _ _))
  subst none
  have leads : (pathTo front names conditions).Leads (.atStart (taken ++ back)) _ := cuts.leads
  rcases (leads_pathTo_iff spells demands).mp leads with ⟨name, rest, known, whole, ends, stops⟩
  rcases Progress.mk.inj stops with ⟨passed, rfl, groups⟩
  rw [List.reverse_nil, List.append_nil, List.reverse_inj] at passed
  refine ⟨name, back, known, ?_, stops ▸ ends, ?_, ?_⟩
  · rw [parted, List.nil_append, whole]
  · rw [cuts.stop, passed, List.length_nil, Nat.zero_add, List.length_append, String.length_toList]
  · rw [Match.group?, groups]
    simp

/-- Such an expression finds every path to a name. -/
theorem isSome_search_pathTo (spells : names.Spells words)
    (demands : (sequenceOf conditions).Demands holds)
    (plain : (pathTo front names conditions).isPlain = true) {name rest : List Char}
    (known : words name) (parted : text.toList = front.toList ++ (name ++ rest))
    (ends : holds (.behindName front.toList name rest)) :
    ((pathTo front names conditions).search text).isSome = true := by
  apply isSome_search_of_leads plain
  exact (leads_pathTo_iff spells demands).mpr ⟨name, rest, known, parted, ends, rfl⟩

/-! ## The packaged patterns -/

def manDigit : CharTest :=
  .set false [.range 49 56] false

def manSection : Expression :=
  sequenceOf (letters "man".toList ++ [.char manDigit])

private theorem spells_manSection : manSection.Spells fun word =>
    ∃ digit, manDigit.holds digit = true ∧ word = "man".toList ++ [digit] := by
  have spells : manSection.Spells _ :=
    spells_sequenceOf_append (spells_letters "man".toList)
      (show (sequenceOf [.char manDigit]).Spells _ from spells_char manDigit)
  apply spells.congr
  intro word
  constructor
  · rintro ⟨_, _, rfl, ⟨digit, holds, rfl⟩, rfl⟩
    exact ⟨digit, holds, rfl⟩
  · rintro ⟨digit, holds, rfl⟩
    exact ⟨_, _, rfl, ⟨digit, holds, rfl⟩, rfl⟩

def nameEnd : Expression :=
  .ahead false (.either (.char (.exactly '/'.toNat false)) (.anchor .lastLineEnd))

def EndsName (place : Progress) : Prop :=
  (∃ rest, place.rest = '/' :: rest) ∨ place.rest = [] ∨ place.rest = ['\n']

theorem demands_nameEnd : nameEnd.Demands EndsName := by
  intro start stop
  constructor
  · intro leads
    cases leads with
    | ahead leads =>
        cases leads with
        | first leads =>
            rcases (spells_char _ _ _).mp leads with ⟨_, rest, ⟨c, holds, rfl⟩, ahead, rfl⟩
            rw [exactly_holds_iff.mp holds] at ahead
            exact ⟨rfl, .inl ⟨rest, ahead⟩⟩
        | second leads =>
            rcases (demands_anchor _ _ _).mp leads with ⟨rfl, holds⟩
            refine ⟨rfl, .inr ?_⟩
            simpa [Anchor.holds] using holds
  · rintro ⟨rfl, ⟨rest, ahead⟩ | ends⟩
    · have slash : (char (.exactly '/'.toNat false)).Leads stop (stop.behind ['/'] rest) :=
        .char ahead (exactly_holds_iff.mpr rfl)
      have leads : nameEnd.Leads stop _ := .ahead (.first slash)
      exact leads
    · have last : Anchor.lastLineEnd.holds stop = true := by simpa [Anchor.holds] using ends
      exact Leads.ahead (Leads.second (.anchor last))

end Expression

end Pattern

namespace Rules

open Pattern.Expression

variable {tables : Tables} {shortcuts : Dictionary (List Pattern)} {context : Surroundings}
  {site : Site} {literal part fragment : Node} {helper text source : String} {pattern : Pattern}
  {found : Pattern.Match} {draft : Draft}

/-! ## The packaged table -/

def shortcutPattern (written front : String) (names : Pattern.Expression)
    (conditions : List Pattern.Expression) : Pattern :=
  ⟨written, pathTo front names conditions, [("shortcut", 1)]⟩

def sectionPattern : Pattern :=
  shortcutPattern "^/share/man/(?P<shortcut>man[1-8])" "/share/man/" manSection []

def manualPattern : Pattern :=
  shortcutPattern "^/share/(?P<shortcut>info|man)(?=/|$)" "/share/" (oneOf ["info", "man"])
    [nameEnd]

def folderNames : List String :=
  ["bin", "include", "libexec", "lib", "sbin", "share", "Frameworks"]

def folderPattern : Pattern :=
  shortcutPattern "^/(?P<shortcut>bin|include|libexec|lib|sbin|share|Frameworks)\\b" "/"
    (oneOf folderNames) [.anchor .wordEdge]

def sharedManualPattern : Pattern :=
  shortcutPattern "^/(?P<shortcut>man|info)(?=/|$)" "/" (oneOf ["man", "info"]) [nameEnd]

def packagedShortcuts : Dictionary (List Pattern) :=
  [("prefix", [sectionPattern, manualPattern, folderPattern]), ("share", [sharedManualPattern])]

theorem pathShortcuts_packaged (accepted : Tables.ofDocument Packaged.tables = .ok tables) :
    tables.pathShortcuts = packagedShortcuts := by
  have computed : (Tables.ofDocument Packaged.tables).toOption.map (·.pathShortcuts) =
      some packagedShortcuts := by
    decide +kernel
  rw [accepted] at computed
  exact Option.some.inj computed

theorem namedShortcut_shortcutPattern {written front : String} {names : Pattern.Expression}
    {conditions : List Pattern.Expression} {name : String} (group : found.group? 1 = some name) :
    namedShortcut (shortcutPattern written front names conditions) found = name := by
  have numbered : (shortcutPattern written front names conditions).names.lookup "shortcut" =
      some 1 := rfl
  rw [namedShortcut, Pattern.named, numbered, Option.bind_some, group, Option.getD_some]

/-! ## What the packaged patterns find -/

theorem firstMatch?_cons_iff {first : Pattern} {others : List Pattern} :
    firstMatch? (first :: others) text = some (pattern, found) ↔
      (pattern = first ∧ first.search text = some found) ∨
        (first.search text = none ∧ firstMatch? others text = some (pattern, found)) := by
  rw [firstMatch?, List.findSome?_cons]
  cases first.search text with
  | none => simp [firstMatch?]
  | some other => simp [eq_comm]

private theorem firstMatch?_eq_none {patterns : List Pattern}
    (unfound : ∀ other ∈ patterns, other.search text = none) : firstMatch? patterns text = none := by
  apply List.findSome?_eq_none_iff.mpr
  intro other listed
  rw [unfound other listed, Option.map_none]

private theorem namedShortcut_sectionPattern (searched : sectionPattern.search text = some found) :
    ∃ digit, (namedShortcut sectionPattern found).toList = "man".toList ++ [digit] := by
  rcases exists_of_search_pathTo spells_manSection demands_nil searched with
    ⟨_, rest, ⟨digit, -, rfl⟩, -, -, -, group⟩
  refine ⟨digit, ?_⟩
  have named : namedShortcut sectionPattern found = _ := namedShortcut_shortcutPattern group
  rw [named, String.toList_ofList]

section

variable {written front : String} {names : List String} {conditions : List Pattern.Expression}
  {holds : Pattern.Progress → Prop}

theorem exists_of_search_oneOf (some : names ≠ []) (demands : (sequenceOf conditions).Demands holds)
    (searched : (shortcutPattern written front (oneOf names) conditions).search text =
      .some found) :
    ∃ name ∈ names, ∃ rest, text.toList = front.toList ++ (name.toList ++ rest) ∧
      holds (.behindName front.toList name.toList rest) ∧
      (Text.slice text found.stop text.length).toList = rest ∧
      namedShortcut (shortcutPattern written front (oneOf names) conditions) found = name := by
  rcases exists_of_search_pathTo (spells_oneOf some) demands searched with
    ⟨_, rest, known, parted, ends, stops, group⟩
  rcases List.mem_map.mp known with ⟨name, listed, rfl⟩
  rw [String.ofList_toList] at group
  refine ⟨name, listed, rest, parted, ends, ?_, namedShortcut_shortcutPattern group⟩
  have length : found.stop = (front.toList ++ name.toList).length := by
    rw [stops, List.length_append, String.length_toList, String.length_toList]
  rw [Text.toList_slice_natCast, ← String.length_toList, List.take_length, parted, length,
    ← List.append_assoc, List.drop_left]

private theorem namedShortcut_mem (some : names ≠ [])
    (demands : (sequenceOf conditions).Demands holds)
    (searched : (shortcutPattern written front (oneOf names) conditions).search text =
      .some found) :
    namedShortcut (shortcutPattern written front (oneOf names) conditions) found ∈ names := by
  rcases exists_of_search_oneOf some demands searched with ⟨name, listed, -, -, -, -, named⟩
  exact named ▸ listed

end

theorem isSome_search_manualPattern {rest : String}
    (parted : text.toList = "/share".toList ++ rest.toList)
    (searched : (sharedManualPattern.search rest).isSome = true) :
    (manualPattern.search text).isSome = true := by
  rcases Option.isSome_iff_exists.mp searched with ⟨found, searched⟩
  rcases exists_of_search_oneOf (by simp) (demands_singleton demands_nameEnd) searched with
    ⟨name, listed, further, below, ends, -⟩
  have known : name.toList ∈ ["info", "man"].map String.toList := by
    simp only [List.mem_cons, List.not_mem_nil, or_false] at listed
    rcases listed with rfl | rfl <;> simp
  apply isSome_search_pathTo (spells_oneOf (by simp)) (demands_singleton demands_nameEnd) rfl
    known
  · rw [parted, below]
    rfl
  · exact ends

/-- The only folder that is a helper is `share`. -/
theorem settles_folderPattern {patterns : List Pattern}
    (noManual : manualPattern.search text = none)
    (searched : folderPattern.search text = some found)
    (helps : packagedShortcuts.get? (namedShortcut folderPattern found) = some patterns) :
    ∀ other ∈ patterns, other.search (Text.slice text found.stop text.length) = none := by
  have wordEdge := demands_singleton (demands_anchor .wordEdge)
  rcases exists_of_search_oneOf (by simp [folderNames]) wordEdge searched with
    ⟨name, listed, rest, parted, -, left, named⟩
  have folder : namedShortcut folderPattern found = name := named
  have known : name ∈ packagedShortcuts.names :=
    Dictionary.isSome_get?_iff.mp (Option.isSome_of_eq_some (folder ▸ helps))
  have shared : name = "share" := by
    have only : ∀ name ∈ folderNames, name ∈ packagedShortcuts.names → name = "share" := by decide
    exact only name listed known
  rw [folder, shared] at helps
  cases helps
  have below : text.toList =
      "/share".toList ++ (Text.slice text found.stop text.length).toList := by
    rw [left, parted, shared]
    rfl
  rw [List.forall_mem_singleton, ← Option.not_isSome_iff_eq_none]
  intro further
  have manual := isSome_search_manualPattern below further
  rw [noManual] at manual
  cases manual

/-- What patterns find behind a helper can be another helper. No pattern of that one finds anything
in the rest. -/
def Settles (shortcuts : Dictionary (List Pattern)) : Prop :=
  ∀ entry ∈ shortcuts, ∀ (text : String) (pattern : Pattern) (found : Pattern.Match),
    firstMatch? entry.2 text = some (pattern, found) →
      ∀ patterns, shortcuts.get? (namedShortcut pattern found) = some patterns →
        ∀ other ∈ patterns, other.search (Text.slice text found.stop text.length) = none

theorem settles_packagedShortcuts : Settles packagedShortcuts := by
  intro entry listed text pattern found matched patterns helps
  simp only [packagedShortcuts, List.mem_cons, List.not_mem_nil, or_false] at listed
  have helper : namedShortcut pattern found ∈ packagedShortcuts.names :=
    Dictionary.isSome_get?_iff.mp (Option.isSome_of_eq_some helps)
  have manuals : ∀ name ∈ ["info", "man"], name ∉ packagedShortcuts.names := by decide
  have atEnd := demands_singleton demands_nameEnd
  rcases listed with rfl | rfl
  · simp only [firstMatch?_cons_iff] at matched
    rcases matched with ⟨rfl, searched⟩ | ⟨-, ⟨rfl, searched⟩ | ⟨noManual, matched⟩⟩
    · rcases namedShortcut_sectionPattern searched with ⟨digit, named⟩
      simp [packagedShortcuts, Dictionary.names, ← String.toList_inj, named] at helper
    · have name : namedShortcut manualPattern found ∈ ["info", "man"] :=
        namedShortcut_mem (by simp) atEnd searched
      exact absurd helper (manuals _ name)
    · rcases matched with ⟨rfl, searched⟩ | ⟨-, matched⟩
      · exact settles_folderPattern noManual searched helps
      · cases matched
  · rcases firstMatch?_cons_iff.mp matched with ⟨rfl, searched⟩ | ⟨-, matched⟩
    · have name : namedShortcut sharedManualPattern found ∈ ["man", "info"] :=
        namedShortcut_mem (by simp) atEnd searched
      exact absurd helper (manuals _ (by simpa [or_comm] using name))
    · cases matched

/-! ## What is left after a fix -/

/-- A fix writes a shortcut where an interpolation stood, and of the text behind it only a rest is
left. -/
def LeavesBehind (draft : Draft) (source : String) (part fragment : Node)
    (shortcut rest : String) : Prop :=
  ∃ fix, draft.fix = some fix ∧ fix.splice? source =
    some (Text.slice source 0 part.start ++ interpolation shortcut ++
      (rest ++ Text.slice source fragment.stop source.length))

/-- An interpolation of a helper with a text behind it is not reported, neither in a literal nor as
all that a literal consists of. -/
structure IsFinal (tables : Tables) (helper text : String) : Prop where
  unreported : ∀ part fragment patterns,
    interpolatedHelper? tables.pathShortcuts part = some (helper, patterns) →
      fragment.text = text → shortcutDraft? tables.pathShortcuts part fragment = none
  alone : ∀ (context : Surroundings) (others : List Node) (draft : Draft), context.tables = tables →
    ¬pathShortcut.Drafts context ⟨helperPath helper text, others⟩ draft

theorem Shortens.leavesBehind (below : literal.LaidOutBelow source)
    (shortens : Shortens shortcuts literal part fragment helper pattern found) :
    LeavesBehind (shortcutDraft part fragment helper pattern found) source part fragment
      (namedShortcut pattern found) (Text.slice fragment.text found.stop fragment.text.length) := by
  have listed := sublist_of_mem_zip_tail shortens.neighbours
  have laid := (below.child (listed.subset (List.mem_cons_of_mem part List.mem_cons_self))).self
  rcases shortens.matched with ⟨patterns, -, matched⟩
  have stops := (Pattern.Expression.bounds_of_search (search_of_firstMatch? matched).2).2
  have length := laid.length_text
  have ordered := laid.ordered
  have within := laid.within
  have rest : Text.slice fragment.text found.stop fragment.text.length =
      Text.slice source (fragment.start + found.stop : Nat) fragment.stop := by
    have cut := laid.slice_text (Nat.le_add_right fragment.start found.stop)
      (by omega : fragment.start + found.stop ≤ fragment.stop) (Nat.le_refl _)
    have front : ((fragment.start + found.stop : Nat) : Int) - fragment.start = found.stop := by
      omega
    have back : ((fragment.stop : Nat) : Int) - fragment.start = fragment.text.length := by
      omega
    rwa [front, back] at cut
  refine ⟨_, rfl, ?_⟩
  rw [rest, Text.slice_append_slice source (by omega) (by omega)]
  exact Fix.splice?_write source _ part.start (fragment.start + found.stop)

theorem isFinal_of_settles (settles : Settles tables.pathShortcuts) {patterns : List Pattern}
    (listed : (helper, patterns) ∈ tables.pathShortcuts)
    (matched : firstMatch? patterns text = some (pattern, found)) :
    IsFinal tables (namedShortcut pattern found) (Text.slice text found.stop text.length) := by
  have unmatched {others : List Pattern}
      (row : tables.pathShortcuts.get? (namedShortcut pattern found) = some others) :
      firstMatch? others (Text.slice text found.stop text.length) = none :=
    firstMatch?_eq_none (settles _ listed text pattern found matched others row)
  constructor
  · intro part fragment others helps same
    rw [Option.eq_none_iff_forall_not_mem]
    intro draft drafted
    rcases shortcutDraft?_eq_some_iff.mp drafted with
      ⟨-, name, tried, other, otherFound, helpsAgain, again, -⟩
    cases helps.symm.trans helpsAgain
    rw [same, unmatched (get?_of_interpolatedHelper? helps)] at again
    cases again
  · rintro context others draft rfl drafted
    rcases exists_shortens drafted with ⟨part, fragment, name, other, otherFound, shortens, -⟩
    rcases eq_of_shortens_helperPath shortens with ⟨-, rfl, rfl⟩
    rcases shortens.matched with ⟨tried, helps, again⟩
    cases (unmatched (get?_of_interpolatedHelper? helps)).symm.trans again

/-- With the packaged table a path is shortened once: what a fix leaves is a shortcut and a text
behind it of which nothing is reported any more. -/
theorem pathShortcut_settles_packaged (accepted : Tables.ofDocument Packaged.tables = .ok tables) :
    Settles tables.pathShortcuts ∧
      ∀ (context : Surroundings) (site : Site) (draft : Draft), context.tables = tables →
        site.node.LaidOutBelow context.source → pathShortcut.Drafts context site draft →
          ∃ part fragment helper pattern found,
            let rest := Text.slice fragment.text found.stop fragment.text.length
            Shortens tables.pathShortcuts site.node part fragment helper pattern found ∧
              draft = shortcutDraft part fragment helper pattern found ∧
              LeavesBehind draft context.source part fragment (namedShortcut pattern found) rest ∧
              IsFinal tables (namedShortcut pattern found) rest := by
  have settles : Settles tables.pathShortcuts := by
    rw [pathShortcuts_packaged accepted]
    exact settles_packagedShortcuts
  refine ⟨settles, ?_⟩
  rintro context site draft rfl below drafted
  rcases exists_shortens drafted with ⟨part, fragment, helper, pattern, found, shortens, rfl⟩
  rcases shortens.matched with ⟨patterns, helps, matched⟩
  have listed := Dictionary.mem_of_get? (get?_of_interpolatedHelper? helps)
  exact ⟨part, fragment, helper, pattern, found, shortens, rfl, shortens.leavesBehind below,
    isFinal_of_settles settles listed matched⟩

/-- A folder that begins like that of the manual. The shortcut is a helper, and what is left has the
front of a path to the manual, which is not its name. -/
theorem pathShortcut_settles_sharedFolder :
    ∃ tables draft fix, Tables.ofDocument Packaged.tables = .ok tables ∧
      (tables.pathShortcuts.get? "share").isSome = true ∧ Settles tables.pathShortcuts ∧
      pathShortcut.Drafts (onPath tables "prefix" "/share/mandir")
        ⟨helperPath "prefix" "/share/mandir", []⟩ draft ∧
      draft.fix = some fix ∧
      fix.splice? "\"#\x7bprefix\x7d/share/mandir\"" = some "\"#\x7bshare\x7d/mandir\"" ∧
      IsFinal tables "share" "/mandir" := by
  have finds : foundBehind? Packaged.tables "prefix" "/share/mandir" = some (0, 6, "share") := by
    decide +kernel
  rcases exists_of_foundBehind? finds with
    ⟨tables, patterns, pattern, found, accepted, listed, matched, start, stop, shortcut⟩
  rcases pathShortcut_settles_packaged accepted with ⟨settles, final⟩
  have drafted : pathShortcut.Drafts (onPath tables "prefix" "/share/mandir")
      ⟨helperPath "prefix" "/share/mandir", []⟩ _ := drafts_helperPath [] listed matched
  have helper : (tables.pathShortcuts.get? "share").isSome = true := by
    rw [pathShortcuts_packaged accepted]
    rfl
  rcases final _ _ _ rfl (laidOutBelow_helperPath "prefix" "/share/mandir") drafted with
    ⟨part, fragment, name, other, otherFound, shortens, -, leaves, isFinal⟩
  rcases (shortens_helperPath_iff listed).mp shortens with ⟨rfl, rfl, rfl, again⟩
  cases matched.symm.trans again
  rw [shortcut, stop] at leaves isFinal
  rcases (show LeavesBehind _ (helperPath "prefix" "/share/mandir").text _ _ _ _ from leaves) with
    ⟨fix, has, spliced⟩
  exact ⟨tables, _, fix, accepted, helper, settles, drafted, has,
    spliced.trans (by decide +kernel), isFinal⟩

end Rules

end FormulaLint
