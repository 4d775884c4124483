import FormulaLint.Proofs.FlagMarkers
import FormulaLint.Proofs.OptionQueries
import FormulaLint.Proofs.RuleDrafts

/-! Options that lose a marker. Three rules take a marker off the front of an option and write what
is behind it, but no more than the line that the marker stands in. Behind one marker there may be
another. -/

namespace FormulaLint

def Node.withContent (option : Node) (content : String) : Fix :=
  .write option.contentBounds.1 option.contentBounds.2 content

namespace Rules

variable {context : Surroundings} {site : Site} {draft : Draft}
  {query content : String} {option : Node} {marker tail : List Char}

/-! ## Rules about markers -/

/-- A rule that takes a marker off the option of a query. It wants the line behind the marker to be
of some kind, and so the lines that follow it. The fix is for a call and the literal in it, and
leaves some text of the option. -/
structure MarkerRule where
  rule : Rule
  queries : List String
  markers : (query : String) → List (List Char)
  wants : (line : List Char) → Prop
  allows : (further : List Char) → Prop
  fix : (call option : Node) → (marker : List Char) → (left : String) → Fix

namespace MarkerRule

/-- A content that begins with a marker and goes on as the rule has it. -/
structure Marks (markerRule : MarkerRule) (query content : String) (marker tail : List Char) :
    Prop where
  listed : marker ∈ markerRule.markers query
  parted : content.toList = marker ++ tail
  wanted : markerRule.wants (Flag.firstLine tail)
  allowed : markerRule.allows (Flag.furtherLines tail)

/-- What a rule about markers does: it reports the contents with a marker and no others, and what it
leaves of them is the first line behind the marker. -/
structure Strips (markerRule : MarkerRule) : Prop where
  of_drafts {context : Surroundings} {site : Site} {draft : Draft} :
    markerRule.rule.Drafts context site draft →
      ∃ query ∈ markerRule.queries, ∃ option content marker tail,
        site.node.AsksOption query option content ∧ markerRule.Marks query content marker tail ∧
        draft.fix = some
          (markerRule.fix site.node option marker (String.ofList (Flag.firstLine tail)))
  exists_draft (context : Surroundings) {site : Site} {query content : String} {option : Node}
    {marker tail : List Char} : query ∈ markerRule.queries →
      site.node.AsksOption query option content → markerRule.Marks query content marker tail →
        ∃ draft, markerRule.rule.Drafts context site draft
  plain : ∀ query ∈ markerRule.queries, ∀ marker ∈ markerRule.markers query,
    marker ≠ [] ∧ '\n' ∉ marker
  apart : ∀ query ∈ markerRule.queries, ∀ marker ∈ markerRule.markers query,
    ∀ other ∈ markerRule.markers query, marker <+: other → marker = other
  allows_nil : markerRule.allows []
  fix_inj {call option : Node} {marker : List Char} {left other : String} :
    markerRule.fix call option marker left = markerRule.fix call option marker other → left = other

end MarkerRule

def queryWord (query : String) : String :=
  if query = "with?" then "with" else "without"

def repeatedWord : MarkerRule where
  rule := duplicatedFlagPrefix
  queries := optionQueries
  markers query := Flag.wordMarkers (queryWord query)
  wants line := line ≠ []
  allows _ := True
  fix _ option _ left := option.withContent left

def leadingDashes : MarkerRule where
  rule := dashedFlag
  queries := ["include?"]
  markers _ := [['-', '-']]
  wants _ := True
  allows further := further.length ≤ 1
  fix _ option _ left := option.withContent left

def includedWord : MarkerRule where
  rule := includeQuery
  queries := ["include?"]
  markers _ := Flag.words.map (·.toList ++ ['-'])
  wants _ := True
  allows _ := True
  fix call _ marker left :=
    call.replacedBy ("build." ++ String.ofList marker.dropLast ++ "? \"" ++ left ++ "\"")

theorem Node.withContent_inj {option : Node} {content other : String}
    (same : option.withContent content = option.withContent other) : content = other := by
  cases same
  rfl

private theorem queryWord_mem (query : String) : queryWord query ∈ Flag.words := by
  rw [queryWord]
  split
  · exact List.mem_cons_self
  · exact List.mem_cons_of_mem _ List.mem_cons_self

theorem strips_repeatedWord : repeatedWord.Strips where
  of_drafts := by
    intro context site draft drafted
    have member := (Rule.drafts_correcting_iff.mp drafted).2
    split at member
    · next asks =>
        split at member
        · next option content query argument called =>
            dsimp only at member
            split at member
            · next first others repeated =>
                rcases Node.asksOption_of_asksBuild asks argument with
                  ⟨other, listed, method, asked⟩
                rw [called] at method
                cases method
                rcases (Flag.repeated?_eq_some_iff (queryWord_mem query)).mp repeated with
                  ⟨marker, known, tail, parted, line⟩
                refine ⟨query, listed, option, content, marker, tail, asked,
                  ⟨known, parted, ?_, trivial⟩, ?_⟩
                · simp [repeatedWord, line]
                · rw [List.mem_singleton.mp member, line]
                  rfl
            · cases member
        · cases member
    · cases member
  exists_draft := by
    intro context site query content option marker tail listed asked marks
    rcases List.exists_cons_of_ne_nil marks.wanted with ⟨first, others, line⟩
    have repeated : Flag.repeated? (queryWord query) content.toList = some (first :: others) :=
      (Flag.repeated?_eq_some_iff (queryWord_mem query)).mpr
        ⟨marker, marks.listed, tail, marks.parted, line⟩
    rw [queryWord] at repeated
    have asks : site.node.asksBuild optionQueries = true := asked.asksBuild_of_mem listed
    apply Rule.exists_drafts_correcting (by rw [asked.kind_eq]; decide)
    rw [if_pos asks, asked.argument, asked.method?_eq]
    simp [repeated]
  plain := by
    intro query _ marker known
    have words : ∀ word ∈ Flag.words, ∀ marker ∈ Flag.wordMarkers word,
        marker ≠ [] ∧ '\n' ∉ marker := by
      decide
    exact words _ (queryWord_mem query) marker known
  apart := by
    intro query _
    have words : ∀ word ∈ Flag.words, ∀ marker ∈ Flag.wordMarkers word,
        ∀ other ∈ Flag.wordMarkers word, marker <+: other → marker = other := by
      decide
    exact words _ (queryWord_mem query)
  allows_nil := trivial
  fix_inj := Node.withContent_inj

theorem strips_leadingDashes : leadingDashes.Strips where
  of_drafts := by
    intro context site draft drafted
    have member := (Rule.drafts_correcting_iff.mp drafted).2
    split at member
    · next asks =>
        split at member
        · cases member
        · next option content argument =>
            split at member
            · cases member
            · next left dashed =>
                rcases Node.asksOption_of_asksBuild asks argument with ⟨query, listed, -, asked⟩
                rcases Flag.dashed?_eq_some_iff.mp dashed with ⟨tail, parted, single, line⟩
                refine ⟨query, listed, option, content, _, tail, asked,
                  ⟨List.mem_singleton_self _, parted, trivial, single⟩, ?_⟩
                rw [List.mem_singleton.mp member, line]
                rfl
    · cases member
  exists_draft := by
    intro context site query content option marker tail listed asked marks
    have dashes : marker = ['-', '-'] := List.mem_singleton.mp marks.listed
    have dashed : Flag.dashed? content.toList = some (Flag.firstLine tail) :=
      Flag.dashed?_eq_some_iff.mpr ⟨tail, dashes ▸ marks.parted, marks.allowed, rfl⟩
    have asks : site.node.asksBuild ["include?"] = true := asked.asksBuild_of_mem listed
    apply Rule.exists_drafts_correcting (by rw [asked.kind_eq]; decide)
    rw [if_pos asks, asked.argument]
    simp [dashed]
  plain := by
    intro query _ marker known
    rw [List.mem_singleton.mp known]
    decide
  apart := by
    intro query _ marker known other listed _
    rw [List.mem_singleton.mp known, List.mem_singleton.mp listed]
  allows_nil := Nat.zero_le 1
  fix_inj := Node.withContent_inj

theorem strips_includedWord : includedWord.Strips where
  of_drafts := by
    intro context site draft drafted
    have member := (Rule.drafts_correcting_iff.mp drafted).2
    split at member
    · next asks =>
        split at member
        · cases member
        · next option content argument =>
            split at member
            · cases member
            · next word left worded =>
                rcases Node.asksOption_of_asksBuild asks argument with ⟨query, listed, -, asked⟩
                rcases Flag.worded?_eq_some_iff.mp worded with ⟨known, tail, parted, line⟩
                refine ⟨query, listed, option, content, _, tail, asked,
                  ⟨List.mem_map_of_mem known, parted, trivial, trivial⟩, ?_⟩
                rw [List.mem_singleton.mp member, line]
                simp [includedWord, Node.reportAt]
    · cases member
  exists_draft := by
    intro context site query content option marker tail listed asked marks
    rcases List.mem_map.mp marks.listed with ⟨word, known, rfl⟩
    have worded : Flag.worded? content.toList = some (word, Flag.firstLine tail) :=
      Flag.worded?_eq_some_iff.mpr ⟨known, tail, marks.parted, rfl⟩
    have asks : site.node.asksBuild ["include?"] = true := asked.asksBuild_of_mem listed
    apply Rule.exists_drafts_correcting (by rw [asked.kind_eq]; decide)
    rw [if_pos asks, asked.argument]
    simp [worded]
  plain := by
    intro query _
    have words : ∀ marker ∈ Flag.words.map (·.toList ++ ['-']), marker ≠ [] ∧ '\n' ∉ marker := by
      decide
    exact words
  apart := by
    intro query _
    have words : ∀ marker ∈ Flag.words.map (·.toList ++ ['-']),
        ∀ other ∈ Flag.words.map (·.toList ++ ['-']), marker <+: other → marker = other := by
      decide
    exact words
  allows_nil := trivial
  fix_inj := by
    intro call option marker left other same
    have texts := Node.replacedBy_inj.mp same
    simpa using texts

/-! ## What is left of an option -/

theorem strips_of_mem {markerRule : MarkerRule}
    (known : markerRule ∈ [repeatedWord, leadingDashes, includedWord]) : markerRule.Strips := by
  simp only [List.mem_cons, List.not_mem_nil, or_false] at known
  rcases known with rfl | rfl | rfl
  · exact strips_repeatedWord
  · exact strips_leadingDashes
  · exact strips_includedWord

namespace MarkerRule

variable {markerRule : MarkerRule}

theorem Strips.marks_unique (strips : markerRule.Strips) (listed : query ∈ markerRule.queries)
    {other otherTail : List Char} (marks : markerRule.Marks query content marker tail)
    (otherMarks : markerRule.Marks query content other otherTail) :
    marker = other ∧ tail = otherTail := by
  have front : marker <+: content.toList := ⟨tail, marks.parted.symm⟩
  have otherFront : other <+: content.toList := ⟨otherTail, otherMarks.parted.symm⟩
  have same : marker = other := by
    rcases List.prefix_or_prefix_of_prefix front otherFront with shorter | longer
    · exact strips.apart query listed marker marks.listed other otherMarks.listed shorter
    · exact (strips.apart query listed other otherMarks.listed marker marks.listed longer).symm
  subst same
  exact ⟨rfl, List.append_cancel_left (marks.parted.symm.trans otherMarks.parted)⟩

theorem Strips.exists_fix (strips : markerRule.Strips) (listed : query ∈ markerRule.queries)
    (asked : site.node.AsksOption query option content)
    (marks : markerRule.Marks query content marker tail) :
    ∃ draft, markerRule.rule.Drafts context site draft ∧ draft.fix = some
      (markerRule.fix site.node option marker (String.ofList (Flag.firstLine tail))) := by
  rcases strips.exists_draft context listed asked marks with ⟨draft, drafted⟩
  rcases strips.of_drafts drafted with ⟨_, -, _, _, _, _, otherAsked, otherMarks, fix⟩
  rcases asked.unique otherAsked with ⟨rfl, rfl, rfl⟩
  rcases strips.marks_unique listed marks otherMarks with ⟨rfl, rfl⟩
  exact ⟨draft, drafted, fix⟩

theorem Strips.exists_drafts_iff (strips : markerRule.Strips)
    (listed : query ∈ markerRule.queries) (asked : site.node.AsksOption query option content) :
    (∃ draft, markerRule.rule.Drafts context site draft) ↔
      ∃ marker tail, markerRule.Marks query content marker tail := by
  constructor
  · rintro ⟨draft, drafted⟩
    rcases strips.of_drafts drafted with
      ⟨other, -, otherOption, otherContent, marker, tail, otherAsked, marks, -⟩
    rcases asked.unique otherAsked with ⟨rfl, rfl, rfl⟩
    exact ⟨marker, tail, marks⟩
  · rintro ⟨marker, tail, marks⟩
    exact strips.exists_draft context listed asked marks

/-- A marker stands in the first line, so that further lines take no part in whether there is one.
-/
theorem Strips.exists_marks_firstLine_iff (strips : markerRule.Strips) {chars : List Char}
    (listed : query ∈ markerRule.queries)
    (allowed : markerRule.allows (Flag.furtherLines chars)) :
    (∃ marker tail, markerRule.Marks query (String.ofList (Flag.firstLine chars)) marker tail) ↔
      ∃ marker tail, markerRule.Marks query (String.ofList chars) marker tail := by
  constructor
  · rintro ⟨marker, tail, known, parted, wanted, -⟩
    rw [String.toList_ofList] at parted
    have plain : '\n' ∉ tail := by
      intro member
      exact Flag.not_mem_firstLine chars (parted ▸ List.mem_append_right marker member)
    rw [Flag.firstLine_eq_self_iff.mpr plain] at wanted
    -- The further lines are put back behind the tail, where they are what they were.
    refine ⟨marker, tail ++ Flag.furtherLines chars, known, ?_, ?_, ?_⟩
    · rw [String.toList_ofList, ← List.append_assoc, ← parted,
        Flag.firstLine_append_furtherLines]
    · rwa [Flag.firstLine_append plain, Flag.firstLine_furtherLines, List.append_nil]
    · rwa [Flag.furtherLines_append plain, Flag.furtherLines_furtherLines]
  · rintro ⟨marker, tail, known, parted, wanted, -⟩
    rw [String.toList_ofList] at parted
    have plain : '\n' ∉ Flag.firstLine tail := Flag.not_mem_firstLine tail
    refine ⟨marker, Flag.firstLine tail, known, ?_, ?_, ?_⟩
    · rw [String.toList_ofList, parted,
        Flag.firstLine_append (strips.plain query listed marker known).2]
    · rwa [Flag.firstLine_eq_self_iff.mpr plain]
    · rw [Flag.furtherLines_eq_nil_iff.mpr plain]
      exact strips.allows_nil

end MarkerRule

/-! ### Queries on an option between quotes -/

def optionQueryText (query quote content : String) : String :=
  "build." ++ query ++ " " ++ quote ++ content ++ quote

def quotedOption (quote content : String) (start line column : Nat) : Node :=
  let opening := start + quote.length
  let closing := opening + content.length
  let stop := closing + quote.length
  ⟨"string", true, none, ⟨1, start, line, column + 1, start, stop⟩, quote ++ content ++ quote, [
    .onLine "\"" false none start opening quote [],
    ⟨"string_content", true, none, ⟨1, opening, line, column, opening, closing⟩, content, []⟩,
    ⟨"\"", false, none, ⟨line, column, line, column + 1, closing, stop⟩, quote, []⟩]⟩

def optionQuery (query quote content : String) (line column : Nat) : Node :=
  let stop := 6 + query.length
  let literal := quotedOption quote content (stop + 1) line column
  ⟨"call", true, none, ⟨1, 0, line, column + 1, 0, literal.stop⟩,
    optionQueryText query quote content, [
      .onLine "identifier" true (some "receiver") 0 5 "build" [],
      .onLine "." false none 5 6 "." [],
      .onLine "identifier" true (some "method") 6 stop query [],
      ⟨"argument_list", true, some "arguments", literal.extent, literal.text, [literal]⟩]⟩

theorem stringContent?_quotedOption (quote content : String) (start line column : Nat) :
    (quotedOption quote content start line column).stringContent? = some content := by
  have opening : ((start + quote.length : Nat) : Int) - start = quote.length := by omega
  have closing : ((start + quote.length + content.length : Nat) : Int) - start =
      (quote.length + content.length : Nat) := by omega
  have cut : Text.slice (quote ++ content ++ quote) quote.length
      (quote.length + content.length : Nat) = content :=
    Text.slice_middle quote content quote
  change some (Text.slice (quote ++ content ++ quote) ((start + quote.length : Nat) - start)
    ((start + quote.length + content.length : Nat) - start)) = some content
  rw [opening, closing, cut]

theorem asksOption_optionQuery (query quote content : String) (line column : Nat) :
    (optionQuery query quote content line column).AsksOption query
      (quotedOption quote content (6 + query.length + 1) line column) content where
  asks := Node.asksBuild_iff.mpr ⟨rfl, query, List.mem_singleton_self query, rfl⟩
  argument := by
    have inner := stringContent?_quotedOption quote content (6 + query.length + 1) line column
    have first : (optionQuery query quote content line column).firstArgument? =
        some (quotedOption quote content (6 + query.length + 1) line column) := rfl
    simp [literalArgument?, first, inner]

/-- A marker is taken off together with all lines behind the first one: the fix leaves the whole
text behind the marker if and only if the option is written on one line. -/
theorem fix_leaves_tail_iff (context : Surroundings) (site : Site) (draft : Draft)
    {markerRule : MarkerRule} (known : markerRule ∈ [repeatedWord, leadingDashes, includedWord])
    (drafted : markerRule.rule.Drafts context site draft)
    (laidOut : site.node.LaidOutBelow context.source) :
    ∃ query ∈ markerRule.queries, ∃ option content marker tail,
      site.node.AsksOption query option content ∧ markerRule.Marks query content marker tail ∧
      (∃ start stop : Nat, option.contentBounds = (↑start, ↑stop) ∧
        content = Text.slice context.source start stop) ∧
      draft.fix = some
        (markerRule.fix site.node option marker (String.ofList (Flag.firstLine tail))) ∧
      (draft.fix = some (markerRule.fix site.node option marker (String.ofList tail)) ↔
        '\n' ∉ content.toList) := by
  have strips := strips_of_mem known
  rcases strips.of_drafts drafted with
    ⟨query, listed, option, content, marker, tail, asked, marks, fix⟩
  rcases strips.plain query listed marker marks.listed with ⟨some, plain⟩
  have named : content ≠ "" := by
    rintro rfl
    exact some (List.append_eq_nil_iff.mp marks.parted.symm).1
  have line : '\n' ∉ content.toList ↔ '\n' ∉ tail := by
    simp [marks.parted, plain]
  refine ⟨query, listed, option, content, marker, tail, asked, marks,
    asked.exists_bounds laidOut named, fix, ?_⟩
  rw [line, fix, ← Flag.firstLine_eq_self_iff]
  constructor
  · intro same
    exact String.ofList_injective (strips.fix_inj (Option.some.inj same))
  · intro whole
    rw [whole]

/-- An option on one line keeps what stands behind its marker. -/
theorem fix_leaves_tail_oneLine :
    let node := optionQuery "with?" "\"" "with-a" 1 19
    let source := optionQueryText "with?" "\"" "with-a"
    ∃ draft fix, duplicatedFlagPrefix.Drafts (.ofLine source node) ⟨node, []⟩ draft ∧
      draft.fix = some fix ∧ fix.splice? source = some (optionQueryText "with?" "\"" "a") := by
  intro node source
  have asked := asksOption_optionQuery "with?" "\"" "with-a" 1 19
  have marked : repeatedWord.Marks "with?" "with-a" ['w', 'i', 't', 'h', '-'] ['a'] :=
    ⟨by decide, by decide, List.cons_ne_nil _ _, trivial⟩
  have reported : ∃ draft, duplicatedFlagPrefix.Drafts (.ofLine source node) ⟨node, []⟩ draft :=
    strips_repeatedWord.exists_draft _ (by decide) asked marked
  rcases reported with ⟨draft, drafted⟩
  rcases fix_leaves_tail_iff _ _ _ List.mem_cons_self drafted (by decide) with
    ⟨query, listed, option, content, marker, tail, other, marks, -, -, kept⟩
  rcases asked.unique other with ⟨rfl, rfl, rfl⟩
  rcases strips_repeatedWord.marks_unique listed marked marks with ⟨rfl, rfl⟩
  exact ⟨draft, _, drafted, kept.mpr (by decide), by decide⟩

/-- Of an option on two lines the second line is lost. -/
theorem not_leaves_tail_twoLines :
    let node := optionQuery "with?" "\"" "with-a\nb" 2 1
    let source := optionQueryText "with?" "\"" "with-a\nb"
    node.LaidOutBelow source ∧
    ∃ draft fix, duplicatedFlagPrefix.Drafts (.ofLine source node) ⟨node, []⟩ draft ∧
      draft.fix = some fix ∧ fix.splice? source = some (optionQueryText "with?" "\"" "a") := by
  intro node source
  have asked := asksOption_optionQuery "with?" "\"" "with-a\nb" 2 1
  have marked : repeatedWord.Marks "with?" "with-a\nb"
      ['w', 'i', 't', 'h', '-'] ['a', '\n', 'b'] :=
    ⟨by decide, by decide, List.cons_ne_nil _ _, trivial⟩
  have reported : ∃ draft, duplicatedFlagPrefix.Drafts (.ofLine source node) ⟨node, []⟩ draft ∧ _ :=
    strips_repeatedWord.exists_fix (by decide) asked marked
  rcases reported with ⟨draft, drafted, fix⟩
  exact ⟨by decide, draft, _, drafted, fix, by decide⟩

/-- Only one marker is taken off: what the fix leaves of an option is reported again, wherever the
same query asks for it, if and only if there is a second marker behind the first. -/
theorem reported_again_iff (context : Surroundings) (site : Site) (draft : Draft)
    {markerRule : MarkerRule} (known : markerRule ∈ [repeatedWord, leadingDashes])
    (drafted : markerRule.rule.Drafts context site draft) :
    ∃ query ∈ markerRule.queries, ∃ option content marker tail left,
      site.node.AsksOption query option content ∧ markerRule.Marks query content marker tail ∧
      draft.fix = some (option.withContent left) ∧
      ∀ (later : Surroundings) (laterSite : Site) (laterOption : Node),
        laterSite.node.AsksOption query laterOption left →
          ((∃ laterDraft, markerRule.rule.Drafts later laterSite laterDraft) ↔
            ∃ again rest, markerRule.Marks query (String.ofList tail) again rest) := by
  have strips := strips_of_mem (List.mem_append_left [includedWord] known)
  rcases strips.of_drafts drafted with
    ⟨query, listed, option, content, marker, tail, asked, marks, fix⟩
  have inContent : markerRule.fix site.node option marker = option.withContent := by
    simp only [List.mem_cons, List.not_mem_nil, or_false] at known
    rcases known with rfl | rfl
    all_goals rfl
  rw [inContent] at fix
  refine ⟨query, listed, option, content, marker, tail, _, asked, marks, fix, ?_⟩
  intro later laterSite laterOption laterAsked
  rw [strips.exists_drafts_iff listed laterAsked]
  exact strips.exists_marks_firstLine_iff listed marks.allowed

/-- An option with one marker is settled by taking it off. -/
theorem not_reported_again_oneMarker :
    let node := optionQuery "include?" "\"" "--x" 1 19
    let source := optionQueryText "include?" "\"" "--x"
    let later := optionQuery "include?" "\"" "x" 1 17
    let laterSource := optionQueryText "include?" "\"" "x"
    (∃ draft fix, dashedFlag.Drafts (.ofLine source node) ⟨node, []⟩ draft ∧
      draft.fix = some fix ∧ fix.splice? source = some laterSource) ∧
    ¬∃ draft, dashedFlag.Drafts (.ofLine laterSource later) ⟨later, []⟩ draft := by
  intro node source later laterSource
  have asked := asksOption_optionQuery "include?" "\"" "--x" 1 19
  have laterAsked := asksOption_optionQuery "include?" "\"" "x" 1 17
  have marked : leadingDashes.Marks "include?" "--x" ['-', '-'] ['x'] :=
    ⟨by decide, by decide, trivial, Nat.zero_le 1⟩
  have reported : ∃ draft, dashedFlag.Drafts (.ofLine source node) ⟨node, []⟩ draft ∧ _ :=
    strips_leadingDashes.exists_fix (by decide) asked marked
  rcases reported with ⟨draft, drafted, offered⟩
  rcases reported_again_iff _ _ _ (List.mem_cons_of_mem _ List.mem_cons_self) drafted with
    ⟨query, listed, option, content, marker, tail, left, other, marks, fix, again⟩
  rcases asked.unique other with ⟨rfl, rfl, rfl⟩
  rcases strips_leadingDashes.marks_unique listed marked marks with ⟨rfl, rfl⟩
  have settled : left = "x" := Node.withContent_inj (Option.some.inj (fix.symm.trans offered))
  subst settled
  refine ⟨⟨draft, _, drafted, fix, by decide⟩, ?_⟩
  intro laterReported
  rcases (again _ ⟨later, []⟩ _ laterAsked).mp laterReported with ⟨marker, tail, known, parted, -⟩
  rw [List.mem_singleton.mp known] at parted
  cases parted

/-- Of two markers the second one is reported when the first one is gone. -/
theorem reported_again_twoMarkers :
    let node := optionQuery "with?" "\"" "with-with-x" 1 24
    let source := optionQueryText "with?" "\"" "with-with-x"
    let later := optionQuery "with?" "\"" "with-x" 1 19
    let laterSource := optionQueryText "with?" "\"" "with-x"
    node.LaidOutBelow source ∧ later.LaidOutBelow laterSource ∧
    (∃ draft fix, duplicatedFlagPrefix.Drafts (.ofLine source node) ⟨node, []⟩ draft ∧
      draft.fix = some fix ∧ fix.splice? source = some laterSource) ∧
    ∃ draft, duplicatedFlagPrefix.Drafts (.ofLine laterSource later) ⟨later, []⟩ draft := by
  intro node source later laterSource
  have asked := asksOption_optionQuery "with?" "\"" "with-with-x" 1 24
  have laterAsked := asksOption_optionQuery "with?" "\"" "with-x" 1 19
  have first : repeatedWord.Marks "with?" "with-with-x"
      ['w', 'i', 't', 'h', '-'] ['w', 'i', 't', 'h', '-', 'x'] :=
    ⟨by decide, by decide, List.cons_ne_nil _ _, trivial⟩
  have second : repeatedWord.Marks "with?" "with-x" ['w', 'i', 't', 'h', '-'] ['x'] :=
    ⟨by decide, by decide, List.cons_ne_nil _ _, trivial⟩
  have reported : ∃ draft, duplicatedFlagPrefix.Drafts (.ofLine source node) ⟨node, []⟩ draft ∧ _ :=
    strips_repeatedWord.exists_fix (by decide) asked first
  rcases reported with ⟨draft, drafted, fix⟩
  exact ⟨by decide, by decide, ⟨draft, _, drafted, fix, by decide⟩,
    strips_repeatedWord.exists_draft _ (by decide) laterAsked second⟩

end Rules

end FormulaLint
