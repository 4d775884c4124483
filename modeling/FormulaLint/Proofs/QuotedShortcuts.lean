import FormulaLint.Proofs.BuiltInDrafts
import FormulaLint.Proofs.RecordedGroups
import FormulaLint.Proofs.RuleDrafts
import FormulaLint.Proofs.TableRoundTrip

/-! Path shortcuts. The rule quotes a helper and what a pattern matches in the text behind it, and
writes another helper from the first one up to the end of the match. These are the same characters
only if the pattern matches right behind the helper. -/

namespace FormulaLint

def Node.Seamless (node : Node) : Prop :=
  ∀ pair ∈ node.children.zip node.children.tail, pair.1.stop = pair.2.start

namespace Rules

variable {tables : Tables} {shortcuts : Dictionary (List Pattern)} {context : Surroundings}
  {site : Site} {literal part fragment : Node} {helper text source : String} {pattern : Pattern}
  {found : Pattern.Match} {draft : Draft}

/-! ## What the rule finds -/

/-- In a literal there is an interpolation of a helper, and some pattern is the first one of the
helper to match the text behind it. -/
structure Shortens (shortcuts : Dictionary (List Pattern)) (literal part fragment : Node)
    (helper : String) (pattern : Pattern) (found : Pattern.Match) : Prop where
  neighbours : (part, fragment) ∈ literal.children.zip literal.children.tail
  matched : ∃ patterns, interpolatedHelper? shortcuts part = some (helper, patterns) ∧
    firstMatch? patterns fragment.text = some (pattern, found)

theorem get?_of_interpolatedHelper? {patterns : List Pattern}
    (helps : interpolatedHelper? shortcuts part = some (helper, patterns)) :
    shortcuts.get? helper = some patterns := by
  rw [interpolatedHelper?] at helps
  split at helps
  · split at helps
    · split at helps
      · rcases Option.map_eq_some_iff.mp helps with ⟨found, row, equal⟩
        cases equal
        exact row
      · cases helps
    · cases helps
  · cases helps

theorem exists_shortens (drafted : pathShortcut.Drafts context site draft) :
    ∃ part fragment helper pattern found,
      Shortens context.tables.pathShortcuts site.node part fragment helper pattern found ∧
        draft = shortcutDraft part fragment helper pattern found := by
  have member := (Rule.drafts_correcting_iff.mp drafted).2
  split at member
  · rcases List.exists_of_findSome?_eq_some (Option.mem_toList.mp member) with
      ⟨⟨part, fragment⟩, neighbours, drafted⟩
    rcases shortcutDraft?_eq_some_iff.mp drafted with
      ⟨-, helper, patterns, pattern, found, helps, matched, rfl⟩
    exact ⟨part, fragment, helper, pattern, found, ⟨neighbours, patterns, helps, matched⟩, rfl⟩
  · cases member

/-! ## What is deleted -/

/-- A draft quotes a helper, the text behind it and a shortcut. Its fix writes the shortcut for just
what is quoted, and the shortcut is a part of the text. -/
structure DeletesQuoted (draft : Draft) (source : String) (part : Node)
    (helper matched shortcut : String) : Prop where
  message : draft.message = .text ("\"#\x7b" ++ helper ++ "\x7d" ++ matched ++
    "\" should be \"#\x7b" ++ shortcut ++ "\x7d\"")
  deleted : ∃ fix, draft.fix = some fix ∧
    fix.replacement = .text ("#\x7b" ++ shortcut ++ "\x7d") ∧
      Text.slice source fix.start fix.stop = part.text ++ matched
  named : shortcut ≠ ""
  inside : shortcut.toList <:+: matched.toList

/-- A match that stands at the front of a text, with a shortcut that is a part of it. -/
structure FitsBehind (text : String) (pattern : Pattern) (found : Pattern.Match) : Prop where
  start : found.start = 0
  named : namedShortcut pattern found ≠ ""
  inside : (namedShortcut pattern found).toList <:+:
    (Text.slice text found.start found.stop).toList

/-- What is deleted is the interpolation and all that is in front of the end of the match. -/
theorem Shortens.slice_eq (below : literal.LaidOutBelow source) (seamless : literal.Seamless)
    (shortens : Shortens shortcuts literal part fragment helper pattern found) :
    Text.slice source part.start (fragment.start + found.stop : Nat) =
      part.text ++ Text.slice fragment.text 0 found.stop := by
  have listed := sublist_of_mem_zip_tail shortens.neighbours
  have partLaid := below.child (listed.subset List.mem_cons_self)
  have fragmentLaid := below.child (listed.subset (List.mem_cons_of_mem part List.mem_cons_self))
  have adjoin : part.stop = fragment.start := seamless _ shortens.neighbours
  rcases shortens.matched with ⟨patterns, -, matched⟩
  have bounds := Pattern.Expression.bounds_of_search (search_of_firstMatch? matched).2
  have ordered := fragmentLaid.self.ordered
  rw [fragmentLaid.self.length_text] at bounds
  have front : ((fragment.start : Nat) : Int) - fragment.start = 0 := Int.sub_self _
  have back : ((fragment.start + found.stop : Nat) : Int) - fragment.start = found.stop := by
    omega
  have cut := fragmentLaid.self.slice_text (Nat.le_refl fragment.start)
    (Nat.le_add_right fragment.start found.stop) (by omega)
  rw [front, back] at cut
  rw [cut, partLaid.self.text, adjoin]
  exact (Text.slice_append_slice source (adjoin ▸ partLaid.self.ordered)
    (Nat.le_add_right _ _)).symm

theorem Shortens.deletesQuoted_iff (below : literal.LaidOutBelow source)
    (seamless : literal.Seamless)
    (shortens : Shortens shortcuts literal part fragment helper pattern found) :
    DeletesQuoted (shortcutDraft part fragment helper pattern found) source part helper
        (Text.slice fragment.text found.start found.stop) (namedShortcut pattern found) ↔
      FitsBehind fragment.text pattern found := by
  have cut := shortens.slice_eq below seamless
  rcases shortens.matched with ⟨patterns, -, matched⟩
  have bounds := Pattern.Expression.bounds_of_search (search_of_firstMatch? matched).2
  constructor
  · rintro ⟨-, ⟨fix, has, -, deleted⟩, named, inside⟩
    cases has
    refine ⟨?_, named, inside⟩
    -- Two texts with one front that are equal have ends of one length.
    have same := String.append_right_inj _ |>.mp (cut.symm.trans deleted)
    have lengths := congrArg String.length same
    have whole : (Text.slice fragment.text 0 found.stop).length = found.stop - 0 :=
      Text.length_slice_natCast bounds.2
    have behind : (Text.slice fragment.text found.start found.stop).length =
        found.stop - found.start :=
      Text.length_slice_natCast bounds.2
    omega
  · rintro ⟨start, named, inside⟩
    refine ⟨rfl, ⟨_, rfl, rfl, ?_⟩, named, inside⟩
    rw [start]
    exact cut

/-- Whatever stands behind a helper, what the first pattern of the helper matches there stands right
behind the helper, with the name of a shortcut in it. -/
def ShortcutsFit (shortcuts : Dictionary (List Pattern)) : Prop :=
  ∀ entry ∈ shortcuts, ∀ (text : String) (pattern : Pattern) (found : Pattern.Match),
    firstMatch? entry.2 text = some (pattern, found) → FitsBehind text pattern found

/-! ## Patterns that fit -/

/-- A pattern that matches at the start of a text only and finds a shortcut in what it matches. -/
def findsShortcut (pattern : Pattern) : Bool :=
  pattern.expression.startsText &&
    (pattern.names.lookup "shortcut").any fun number => pattern.expression.records number

private theorem fitsBehind_of_findsShortcut (finds : findsShortcut pattern = true)
    (searched : pattern.search text = some found) : FitsBehind text pattern found := by
  rw [findsShortcut, Bool.and_eq_true, Option.any_eq_true] at finds
  rcases finds with ⟨starts, number, numbered, records⟩
  rcases Pattern.Expression.exists_cuts_of_search searched with ⟨front, taken, back, parted, cuts⟩
  have none : front = [] := List.reverse_eq_nil_iff.mp (cuts.leads.before_eq_nil starts)
  subst none
  rcases cuts.leads.records records with ⟨capture, passed, remembered, passes, some, part⟩
  have named : namedShortcut pattern found = String.ofList capture.chars.reverse := by
    have last : found.groups.lookup number = .some capture := remembered
    have group : found.group? number = .some (String.ofList capture.chars.reverse) := by
      rw [Pattern.Match.group?, last, Option.map_some]
    rw [namedShortcut, Pattern.named, numbered, Option.bind_some, group, Option.getD_some]
  have same : passed = taken := List.append_cancel_right passes.ahead.symm
  have matched : (Text.slice text found.start found.stop).toList = taken := by
    rw [Text.toList_slice_natCast, parted, cuts.start, cuts.stop]
    simp
  refine ⟨cuts.start, ?_, ?_⟩
  · rw [named]
    simpa [← String.toList_inj] using some
  · rwa [named, matched, String.toList_ofList, ← same]

private theorem shortcutsFit_of_findsShortcut
    (finds : ∀ entry ∈ shortcuts, ∀ pattern ∈ entry.2, findsShortcut pattern = true) :
    ShortcutsFit shortcuts := by
  intro entry listed text pattern found matched
  rcases search_of_firstMatch? matched with ⟨member, searched⟩
  exact fitsBehind_of_findsShortcut (finds entry listed pattern member) searched

/-! ### A path below a helper -/

def interpolation (helper : String) : String :=
  "#\x7b" ++ helper ++ "\x7d"

def helperPart (helper : String) : Node :=
  .onLine "interpolation" true none 1 (4 + helper.length) (interpolation helper) [
    .onLine "#\x7b" false none 1 3 "#\x7b" [],
    .onLine "identifier" true none 3 (3 + helper.length) helper [],
    .onLine "\x7d" false none (3 + helper.length) (4 + helper.length) "\x7d" []]

def pathFragment (helper text : String) : Node :=
  .onLine "string_content" true none (4 + helper.length) (4 + helper.length + text.length) text []

def helperPath (helper text : String) : Node :=
  let stop := 4 + helper.length + text.length
  .onLine "string" true none 0 (stop + 1) ("\"" ++ interpolation helper ++ (text ++ "\"")) [
    .onLine "\"" false none 0 1 "\"" [],
    helperPart helper,
    pathFragment helper text,
    .onLine "\"" false none stop (stop + 1) "\"" []]

theorem seamless_helperPath (helper text : String) : (helperPath helper text).Seamless := by
  intro pair neighbours
  simp only [helperPath, Node.onLine, List.tail_cons, List.zip_cons_cons, List.zip_nil_right,
    List.mem_cons, List.not_mem_nil, or_false] at neighbours
  rcases neighbours with rfl | rfl | rfl
  all_goals rfl

theorem length_interpolation (helper : String) :
    (interpolation helper).length = 3 + helper.length := by
  have opening : "#\x7b".length = 2 := rfl
  have closing : "\x7d".length = 1 := rfl
  rw [interpolation, String.length_append, String.length_append, opening, closing]
  omega

theorem laidOutBelow_leaf {label : String} {named : Bool} {start stop : Nat} (front back : String)
    (parted : source = front ++ text ++ back) (starts : start = front.length)
    (stops : stop = front.length + text.length) :
    (Node.onLine label named none start stop text []).LaidOutBelow source :=
  Node.laidOutBelow_iff.mpr
    ⟨Node.laidOut_of_parted front back parted starts stops (List.forall_mem_nil _) .nil,
      List.forall_mem_nil _⟩

private theorem laidOutBelow_helperPart {back : String}
    (parted : source = "\"" ++ interpolation helper ++ back) :
    (helperPart helper).LaidOutBelow source := by
  have quote : "\"".length = 1 := rfl
  have opening : "\"#\x7b".length = 3 := rfl
  have closing : "\x7d".length = 1 := rfl
  apply Node.laidOutBelow_iff.mpr
  constructor
  · apply Node.laidOut_of_parted "\"" back parted
    · rfl
    · rw [quote]
      change 4 + helper.length = 1 + (interpolation helper).length
      rw [length_interpolation]
      omega
    · simp [Node.onLine, Node.start, Node.stop]
      omega
    · simp [Node.onLine, Node.start, Node.stop]
  · simp only [List.forall_mem_cons]
    refine ⟨?_, ?_, ?_, List.forall_mem_nil _⟩
    · apply laidOutBelow_leaf "\"" (helper ++ "\x7d" ++ back)
      · simp [parted, interpolation, ← String.toList_inj]
      · rfl
      · rfl
    · apply laidOutBelow_leaf "\"#\x7b" ("\x7d" ++ back)
      · simp [parted, interpolation, ← String.toList_inj]
      · rfl
      · rfl
    · apply laidOutBelow_leaf ("\"#\x7b" ++ helper) back
      · simp [parted, interpolation, ← String.toList_inj]
      · rw [String.length_append, opening]
      · rw [String.length_append, opening, closing]
        omega

theorem laidOutBelow_helperPath (helper text : String) :
    (helperPath helper text).LaidOutBelow (helperPath helper text).text := by
  have quote : "\"".length = 1 := rfl
  have front : ("\"" ++ interpolation helper).length = 4 + helper.length := by
    rw [String.length_append, length_interpolation, quote]
    omega
  apply Node.laidOutBelow_iff.mpr
  constructor
  · apply Node.laidOut_of_parted "" ""
    · rw [String.empty_append, String.append_empty]
      rfl
    · rfl
    · change _ = 0 + ("\"" ++ interpolation helper ++ (text ++ "\"")).length
      rw [String.length_append, front, String.length_append, quote]
      change 4 + helper.length + text.length + 1 = _
      omega
    · simp [helperPart, pathFragment, Node.onLine, Node.start, Node.stop]
      omega
    · simp [helperPart, pathFragment, Node.onLine, Node.start, Node.stop]
      omega
  · simp only [List.forall_mem_cons]
    refine ⟨?_, ?_, ?_, ?_, List.forall_mem_nil _⟩
    · apply laidOutBelow_leaf "" (interpolation helper ++ (text ++ "\""))
      · simp [helperPath, Node.onLine, ← String.toList_inj]
      · rfl
      · rfl
    · exact laidOutBelow_helperPart rfl
    · apply laidOutBelow_leaf ("\"" ++ interpolation helper) "\""
      · simp [helperPath, Node.onLine, ← String.toList_inj]
      · rw [front]
      · rw [front]
    · apply laidOutBelow_leaf ("\"" ++ interpolation helper ++ text) ""
      · simp [helperPath, Node.onLine, ← String.toList_inj]
      · rw [String.length_append, front]
      · rw [String.length_append, front, quote]

theorem interpolatedHelper?_helperPart {patterns : List Pattern}
    (listed : shortcuts.get? helper = some patterns) :
    interpolatedHelper? shortcuts (helperPart helper) = some (helper, patterns) := by
  have inner : (helperPart helper).namedChildren =
      [.onLine "identifier" true none 3 (3 + helper.length) helper []] := rfl
  have label : (helperPart helper).label = "interpolation" := rfl
  rw [interpolatedHelper?, if_pos label, inner]
  simp only [Node.onLine, if_true, listed, Option.map_some]

theorem eq_of_shortens_helperPath {name : String}
    (shortens : Shortens shortcuts (helperPath helper text) part fragment name pattern found) :
    part = helperPart helper ∧ fragment = pathFragment helper text ∧ name = helper := by
  rcases shortens with ⟨neighbours, patterns, interpolates, -⟩
  simp only [helperPath, Node.onLine, List.tail_cons, List.zip_cons_cons, List.zip_nil_right,
    List.mem_cons, List.not_mem_nil, or_false, Prod.mk.injEq] at neighbours
  rcases neighbours with ⟨rfl, -⟩ | ⟨rfl, rfl⟩ | ⟨rfl, -⟩
  · cases interpolates
  · rcases Option.map_eq_some_iff.mp (show (shortcuts.get? helper).map (fun patterns =>
      (helper, patterns)) = some (name, patterns) from interpolates) with ⟨row, -, equal⟩
    exact ⟨rfl, rfl, (Prod.mk.inj equal).1.symm⟩
  · cases interpolates

theorem shortens_helperPath_iff {patterns : List Pattern} {name : String}
    (listed : shortcuts.get? helper = some patterns) :
    Shortens shortcuts (helperPath helper text) part fragment name pattern found ↔
      part = helperPart helper ∧ fragment = pathFragment helper text ∧ name = helper ∧
        firstMatch? patterns text = some (pattern, found) := by
  have helps := interpolatedHelper?_helperPart listed
  constructor
  · intro shortens
    rcases eq_of_shortens_helperPath shortens with ⟨rfl, rfl, rfl⟩
    rcases shortens.matched with ⟨others, interpolates, matched⟩
    cases helps.symm.trans interpolates
    exact ⟨rfl, rfl, rfl, matched⟩
  · rintro ⟨rfl, rfl, rfl, matched⟩
    exact ⟨.tail _ (.head _), patterns, helps, matched⟩

theorem drafts_helperPath {patterns : List Pattern} (rest : List Node)
    (listed : context.tables.pathShortcuts.get? helper = some patterns)
    (matched : firstMatch? patterns text = some (pattern, found)) :
    pathShortcut.Drafts context ⟨helperPath helper text, rest⟩
      (shortcutDraft (helperPart helper) (pathFragment helper text) helper pattern found) := by
  have drafted : shortcutDraft? context.tables.pathShortcuts (helperPart helper)
      (pathFragment helper text) = some (shortcutDraft (helperPart helper)
        (pathFragment helper text) helper pattern found) :=
    shortcutDraft?_eq_some_iff.mpr ⟨rfl, helper, patterns, pattern, found,
      interpolatedHelper?_helperPart listed, matched, rfl⟩
  apply Rule.drafts_correcting_iff.mpr
  refine ⟨rfl, ?_⟩
  have label : (helperPath helper text).label = "string" := rfl
  rw [if_pos label, Option.mem_toList]
  dsimp only [helperPath, Node.onLine, List.tail_cons, List.zip_cons_cons]
  rw [List.findSome?_cons_of_isNone rfl, List.findSome?_cons_of_isSome (by rw [drafted]; rfl)]
  exact drafted

/-- With an accepted table the rule always deletes what it quotes, with the name of a shortcut in it,
if and only if the patterns match right behind their helpers and find a shortcut there. Patterns of
which this can be read off are one way to make sure of it. -/
theorem pathShortcut_deletesQuoted_iff {document : Entries}
    (accepted : Tables.ofDocument document = .ok tables) :
    ((∀ (context : Surroundings) (site : Site) (draft : Draft), context.tables = tables →
      site.node.LaidOutBelow context.source → site.node.Seamless →
        pathShortcut.Drafts context site draft → ∃ part fragment helper pattern found,
          Shortens tables.pathShortcuts site.node part fragment helper pattern found ∧
            DeletesQuoted draft context.source part helper
              (Text.slice fragment.text found.start found.stop) (namedShortcut pattern found)) ↔
      ShortcutsFit tables.pathShortcuts) ∧
    ((∀ entry ∈ tables.pathShortcuts, ∀ pattern ∈ entry.2, findsShortcut pattern = true) →
      ShortcutsFit tables.pathShortcuts) := by
  refine ⟨⟨?_, ?_⟩, shortcutsFit_of_findsShortcut⟩
  · rintro deletes ⟨helper, patterns⟩ listed text pattern found matched
    have inTables : Tables.shortcutTable ∈ Tables.mappingTables := by
      simp [Tables.mappingTables]
    have distinct := ((Tables.canonical_of_ofDocument accepted).mappings _ inTables).distinct
    have row : tables.pathShortcuts.get? helper = some patterns :=
      Dictionary.get?_of_mem distinct listed
    let node := helperPath helper text
    let context : Surroundings := { Surroundings.ofLine node.text node with tables := tables }
    have below : node.LaidOutBelow context.source := laidOutBelow_helperPath helper text
    have seamless := seamless_helperPath helper text
    have drafted : pathShortcut.Drafts context ⟨node, []⟩ _ := drafts_helperPath [] row matched
    rcases deletes context _ _ rfl below seamless drafted with
      ⟨part, fragment, name, other, otherFound, shortens, deletesQuoted⟩
    have same := (shortens_helperPath_iff row).mp shortens
    rcases same with ⟨rfl, rfl, rfl, again⟩
    cases matched.symm.trans again
    exact (shortens.deletesQuoted_iff below seamless).mp deletesQuoted
  · rintro fit context site draft rfl below seamless drafted
    rcases exists_shortens drafted with ⟨part, fragment, helper, pattern, found, shortens, rfl⟩
    refine ⟨part, fragment, helper, pattern, found, shortens, ?_⟩
    rw [shortens.deletesQuoted_iff below seamless]
    rcases shortens.matched with ⟨patterns, helps, matched⟩
    have listed := Dictionary.mem_of_get? (get?_of_interpolatedHelper? helps)
    exact fit _ listed fragment.text pattern found matched

def foundBehind? (document : Entries) (helper text : String) : Option (Nat × Nat × String) := do
  let tables ← (Tables.ofDocument document).toOption
  let patterns ← tables.pathShortcuts.get? helper
  let (pattern, found) ← firstMatch? patterns text
  return (found.start, found.stop, namedShortcut pattern found)

def onPath (tables : Tables) (helper text : String) : Surroundings :=
  let literal := helperPath helper text
  { Surroundings.ofLine literal.text literal with tables := tables }

theorem exists_of_foundBehind? {document : Entries} {start stop : Nat} {shortcut : String}
    (finds : foundBehind? document helper text = some (start, stop, shortcut)) :
    ∃ tables patterns pattern found, Tables.ofDocument document = .ok tables ∧
      tables.pathShortcuts.get? helper = some patterns ∧
      firstMatch? patterns text = some (pattern, found) ∧
      found.start = start ∧ found.stop = stop ∧ namedShortcut pattern found = shortcut := by
  simp only [foundBehind?, Option.bind_eq_bind, Option.pure_def, Option.bind_eq_some_iff,
    Option.some.injEq, Prod.mk.injEq] at finds
  rcases finds with ⟨tables, accepted, patterns, listed, ⟨pattern, found⟩, matched, rfl, rfl, rfl⟩
  exact ⟨tables, patterns, pattern, found, Except.toOption_eq_some_iff.mp accepted, listed,
    matched, rfl, rfl, rfl⟩

private theorem findsShortcut_packaged (accepted : Tables.ofDocument Packaged.tables = .ok tables) :
    ∀ entry ∈ tables.pathShortcuts, ∀ pattern ∈ entry.2, findsShortcut pattern = true := by
  have computed : ((Tables.ofDocument Packaged.tables).toOption.all fun tables =>
      tables.pathShortcuts.all fun entry => entry.2.all findsShortcut) = true := by
    decide +kernel
  rw [accepted] at computed
  intro entry listed
  exact List.all_eq_true.mp (List.all_eq_true.mp computed entry listed)

/-- The packaged table fits. Two of its patterns for `prefix` match the path to a section of the
manual, and the first one finds that section. -/
theorem pathShortcut_deletesQuoted_packaged :
    ∃ tables draft, Tables.ofDocument Packaged.tables = .ok tables ∧
      ShortcutsFit tables.pathShortcuts ∧
      pathShortcut.Drafts (onPath tables "prefix" "/share/man/man1/x.1")
        ⟨helperPath "prefix" "/share/man/man1/x.1", []⟩ draft ∧
      DeletesQuoted draft (helperPath "prefix" "/share/man/man1/x.1").text (helperPart "prefix")
        "prefix" "/share/man/man1" "man1" := by
  have finds : foundBehind? Packaged.tables "prefix" "/share/man/man1/x.1" =
      some (0, 15, "man1") := by
    decide +kernel
  rcases exists_of_foundBehind? finds with
    ⟨tables, patterns, pattern, found, accepted, listed, matched, start, stop, shortcut⟩
  rcases pathShortcut_deletesQuoted_iff accepted with ⟨equivalent, fits⟩
  have fit := fits (findsShortcut_packaged accepted)
  have drafted : pathShortcut.Drafts (onPath tables "prefix" "/share/man/man1/x.1")
      ⟨helperPath "prefix" "/share/man/man1/x.1", []⟩ _ := drafts_helperPath [] listed matched
  refine ⟨tables, _, accepted, fit, drafted, ?_⟩
  rcases equivalent.mpr fit _ _ _ rfl (laidOutBelow_helperPath "prefix" "/share/man/man1/x.1")
    (seamless_helperPath _ _) drafted with
    ⟨part, fragment, helper, other, otherFound, shortens, deletes⟩
  rcases (shortens_helperPath_iff listed).mp shortens with ⟨rfl, rfl, rfl, again⟩
  cases matched.symm.trans again
  rw [start, stop, shortcut] at deletes
  exact deletes

def unanchoredShortcuts : Entries :=
  [(.text "path_shortcuts", Packaged.table [
    ("prefix", Packaged.texts ["/(?P<shortcut>man)"])])]

/-- Behind the helper there is something that the pattern passes over. It is deleted, and is not
quoted. -/
theorem not_deletesQuoted_unanchored :
    let literal := helperPath "prefix" "/x/man"
    literal.text = "\"#\x7bprefix\x7d/x/man\"" ∧ literal.LaidOutBelow literal.text ∧
      literal.Seamless ∧
      ∃ tables draft, Tables.ofDocument unanchoredShortcuts = .ok tables ∧
        pathShortcut.Drafts (onPath tables "prefix" "/x/man") ⟨literal, []⟩ draft ∧
        draft.message = .text "\"#\x7bprefix\x7d/man\" should be \"#\x7bman\x7d\"" ∧
        (∃ fix, draft.fix = some fix ∧
          Text.slice literal.text fix.start fix.stop = "#\x7bprefix\x7d/x/man") ∧
        ¬∃ part fragment helper pattern found,
          Shortens tables.pathShortcuts literal part fragment helper pattern found ∧
            DeletesQuoted draft literal.text part helper
              (Text.slice fragment.text found.start found.stop) (namedShortcut pattern found) := by
  have finds : foundBehind? unanchoredShortcuts "prefix" "/x/man" = some (2, 6, "man") := by
    decide +kernel
  rcases exists_of_foundBehind? finds with
    ⟨tables, patterns, pattern, found, accepted, listed, matched, start, stop, shortcut⟩
  have below := laidOutBelow_helperPath "prefix" "/x/man"
  have seamless := seamless_helperPath "prefix" "/x/man"
  refine ⟨rfl, below, seamless, tables, _, accepted, drafts_helperPath [] listed matched, ?_,
    ⟨_, rfl, ?_⟩, ?_⟩
  · dsimp only [shortcutDraft, Node.reportAt]
    rw [start, stop, shortcut]
    rfl
  · rw [stop]
    rfl
  · rintro ⟨part, fragment, helper, other, otherFound, shortens, deletes⟩
    rcases (shortens_helperPath_iff listed).mp shortens with ⟨rfl, rfl, rfl, again⟩
    cases matched.symm.trans again
    have fits := (shortens.deletesQuoted_iff below seamless).mp deletes
    rw [fits.start] at start
    cases start

end Rules

end FormulaLint
