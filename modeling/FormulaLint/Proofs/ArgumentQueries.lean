import FormulaLint.Proofs.LiteralContent
import FormulaLint.Proofs.OptionQueries
import FormulaLint.Rules.Deprecated

/-! Calls on the command-line arguments. Each call on `ARGV` is reported once: by the rule about
flags for development versions if it looks for such a flag, and by the rule about options if not. -/

namespace FormulaLint

/-! ## The shape of a call -/

namespace Node

variable {node argument : Node}

theorem callsOn_written_iff {text : String} :
    node.callsOn (.written text) = true ↔
      node.kind = .methodCall ∧
        ∃ receiver, node.receiver? = some receiver ∧ receiver.text = text := by
  simp only [callsOn, ReceiverDemand.isMet, Bool.and_eq_true, decide_eq_true_eq,
    Option.any_eq_true, beq_iff_eq]

/-- What counts as an argument in a list of arguments: no token, and no comment. -/
def IsArgument (node : Node) : Prop :=
  node.named = true ∧ node.label ≠ "comment"

/-- The first argument of a call stands in its list of arguments with no argument before it. -/
def HasFirstArgument (node argument : Node) : Prop :=
  ∃ list, node.child? "arguments" = some list ∧
    ∃ front back, list.children = front ++ argument :: back ∧ argument.IsArgument ∧
      ∀ other ∈ front, ¬other.IsArgument

theorem find?_isArgument_eq_some_iff {nodes : List Node} :
    (nodes.find? fun child => child.named && !child.isComment) = some argument ↔
      ∃ front back, nodes = front ++ argument :: back ∧ argument.IsArgument ∧
        ∀ other ∈ front, ¬other.IsArgument := by
  have shape (child : Node) : (child.named && !child.isComment) = true ↔ child.IsArgument := by
    simp [IsArgument, isComment]
  simp only [List.find?_eq_some_iff_append, Bool.not_eq_true', ← Bool.not_eq_true, shape]
  constructor
  · rintro ⟨counts, front, back, parted, none⟩
    exact ⟨front, back, parted, counts, none⟩
  · rintro ⟨front, back, parted, counts, none⟩
    exact ⟨counts, front, back, parted, none⟩

theorem firstArgument?_eq_some_iff (call : node.kind = .methodCall) :
    node.firstArgument? = some argument ↔ node.HasFirstArgument argument := by
  have label : node.label ≠ "element_reference" := by
    rw [label_of_methodCall call]
    decide
  rw [firstArgument?, arguments, if_neg label, List.head?_filter, find?_isArgument_eq_some_iff,
    HasFirstArgument]
  cases node.child? "arguments" with
  | none => simp
  | some list => simp

structure CallsArguments (node : Node) : Prop where
  kind : node.kind = .methodCall
  receiver : ∃ receiver, node.child? "receiver" = some receiver ∧ receiver.text = "ARGV"

/-- A call of `include?` whose first argument is a plain string literal for a flag of a development
version. -/
structure SeeksFlag (node flag : Node) (content : String) : Prop where
  method : ∃ method, node.child? "method" = some method ∧ method.text = "include?"
  first : node.HasFirstArgument flag
  plain : flag.IsPlainString
  contentEq : flag.stringContent? = some content
  development : content = "--HEAD" ∨ content = "--devel"

theorem callsArguments_iff : node.callsOn (.written "ARGV") = true ↔ node.CallsArguments := by
  rw [callsOn_written_iff]
  constructor
  · rintro ⟨kind, receiver⟩
    exact ⟨kind, receiver⟩
  · intro calls
    exact ⟨calls.kind, calls.receiver⟩

end Node

namespace Rules

variable {node flag : Node} {content : String}

theorem mem_developmentFlags_iff :
    content ∈ developmentFlags ↔ content = "--HEAD" ∨ content = "--devel" := by
  simp [developmentFlags]

theorem callsInclude_iff :
    node.calls ["include?"] (.written "ARGV") = true ↔
      node.CallsArguments ∧
        ∃ method, node.child? "method" = some method ∧ method.text = "include?" := by
  simp [Node.calls_iff, Node.callsArguments_iff, Node.method?]

/-! ## The two conditions

Each rule asks in its own way whether a call seeks a flag: the one about options by a single
condition, the one about flags step by step. -/

theorem exists_seeksFlag_iff (call : node.kind = .methodCall) :
    (∃ flag content, node.SeeksFlag flag content) ↔
      (∃ method, node.child? "method" = some method ∧ method.text = "include?") ∧
        ∃ flag content, node.firstArgument? = some flag ∧ flag.stringContent? = some content ∧
          content ∈ developmentFlags := by
  simp only [Node.firstArgument?_eq_some_iff call, mem_developmentFlags_iff]
  constructor
  · rintro ⟨flag, content, seeks⟩
    exact ⟨seeks.method, flag, content, seeks.first, seeks.contentEq, seeks.development⟩
  · rintro ⟨method, flag, content, first, contentEq, development⟩
    have plain := Node.isPlainString_iff.mpr ⟨content, contentEq⟩
    exact ⟨flag, content, method, first, plain, contentEq, development⟩

theorem seeksDevelopmentFlag_iff :
    seeksDevelopmentFlag node = true ↔
      node.CallsArguments ∧ ∃ flag content, node.SeeksFlag flag content := by
  simp only [seeksDevelopmentFlag, Bool.and_eq_true, callsInclude_iff, Option.any_eq_true,
    Option.bind_eq_some_iff, List.contains_iff_mem]
  constructor
  · rintro ⟨⟨calls, method⟩, content, ⟨flag, first, contentEq⟩, development⟩
    exact ⟨calls, (exists_seeksFlag_iff calls.kind).mpr
      ⟨method, flag, content, first, contentEq, development⟩⟩
  · rintro ⟨calls, seeks⟩
    rcases (exists_seeksFlag_iff calls.kind).mp seeks with
      ⟨method, flag, content, first, contentEq, development⟩
    exact ⟨⟨calls, method⟩, content, ⟨flag, first, contentEq⟩, development⟩

/-! ## What is reported -/

variable (context : Surroundings) (site : Site)

private theorem exists_detect_argvOptions :
    ∃ found, argvOptions.detect context site = some found ∧
      (found.length = 1 ∧ site.node.CallsArguments ∧
          (¬ ∃ flag content, site.node.SeeksFlag flag content) ∨
        found = [] ∧
          (site.node.CallsArguments → ∃ flag content, site.node.SeeksFlag flag content)) := by
  refine ⟨_, rfl, ?_⟩
  dsimp only
  split
  · next left =>
      refine .inr ⟨rfl, fun calls => ?_⟩
      rw [Node.callsArguments_iff.mpr calls, Bool.not_true, Bool.false_or] at left
      exact (seeksDevelopmentFlag_iff.mp left).2
  · next reported =>
      rw [Bool.or_eq_true, not_or, Bool.not_eq_true', Bool.not_eq_false] at reported
      have calls := Node.callsArguments_iff.mp reported.1
      exact .inl ⟨rfl, calls, fun seeks => reported.2 (seeksDevelopmentFlag_iff.mpr ⟨calls, seeks⟩)⟩

private theorem exists_detect_argvHeadFlag :
    ∃ found, argvHeadFlag.detect context site = some found ∧
      (found.length = 1 ∧ site.node.CallsArguments ∧
          (∃ flag content, site.node.SeeksFlag flag content) ∨
        found = [] ∧ ¬ (site.node.CallsArguments ∧
          ∃ flag content, site.node.SeeksFlag flag content)) := by
  refine ⟨_, rfl, ?_⟩
  dsimp only
  split
  · next other =>
      rw [Bool.not_eq_true', ← Bool.not_eq_true, callsInclude_iff] at other
      refine .inr ⟨rfl, ?_⟩
      rintro ⟨calls, flag, content, seeks⟩
      exact other ⟨calls, seeks.method⟩
  · next asks =>
      rw [Bool.not_eq_true', Bool.not_eq_false, callsInclude_iff] at asks
      rcases asks with ⟨calls, method⟩
      simp only [exists_seeksFlag_iff calls.kind]
      split
      · next none => exact .inr ⟨rfl, by simp [none]⟩
      · next flag first =>
          split
          · next noContent => exact .inr ⟨rfl, by simp [first, noContent]⟩
          · next content contentEq =>
              split
              · next unlisted =>
                  rw [Bool.not_eq_true', ← Bool.not_eq_true, List.contains_iff_mem] at unlisted
                  exact .inr ⟨rfl, by simp [first, contentEq, unlisted]⟩
              · next listed =>
                  rw [Bool.not_eq_true', Bool.not_eq_false, List.contains_iff_mem] at listed
                  exact .inl ⟨rfl, calls, method, flag, content, first, contentEq, listed⟩

/-- How the two rules share out the calls on the arguments: there is one draft for each of them, from
the rule about flags just if the call seeks one, and none for other nodes. -/
structure SharedOut (site : Site) (options flags : List Draft) : Prop where
  once : site.node.CallsArguments →
    options.length = 1 ∧ flags = [] ∨ options = [] ∧ flags.length = 1
  flag_iff : site.node.CallsArguments →
    (flags.length = 1 ↔ ∃ flag content, site.node.SeeksFlag flag content)
  elsewhere : ¬site.node.CallsArguments → options = [] ∧ flags = []

theorem exists_sharedOut :
    ∃ options flags, argvOptions.detect context site = some options ∧
      argvHeadFlag.detect context site = some flags ∧ SharedOut site options flags := by
  rcases exists_detect_argvOptions context site with ⟨options, optionsFound, optionsShape⟩
  rcases exists_detect_argvHeadFlag context site with ⟨flags, flagsFound, flagsShape⟩
  refine ⟨options, flags, optionsFound, flagsFound, ?_⟩
  -- The rules were taken each by itself, so two of the four cases contradict one another.
  rcases optionsShape with ⟨optionLength, calls, unsought⟩ | ⟨rfl, sought⟩
  · rcases flagsShape with ⟨_, _, seeks⟩ | ⟨rfl, _⟩
    · exact absurd seeks unsought
    · exact {
        once := fun _ => .inl ⟨optionLength, rfl⟩
        flag_iff := fun _ => iff_of_false Nat.zero_ne_one unsought
        elsewhere := fun other => absurd calls other }
  · rcases flagsShape with ⟨flagLength, calls, seeks⟩ | ⟨rfl, unsought⟩
    · exact {
        once := fun _ => .inr ⟨rfl, flagLength⟩
        flag_iff := fun _ => iff_of_true flagLength seeks
        elsewhere := fun other => absurd calls other }
    · have other : ¬ site.node.CallsArguments := fun calls => unsought ⟨calls, sought calls⟩
      exact {
        once := fun calls => absurd calls other
        flag_iff := fun calls => absurd calls other
        elsewhere := fun _ => ⟨rfl, rfl⟩ }

theorem SharedOut.length_add {site : Site} {options flags : List Draft}
    (shared : SharedOut site options flags) :
    options.length + flags.length =
      if site.node.callsOn (.written "ARGV") then 1 else 0 := by
  by_cases calls : site.node.CallsArguments
  · rw [if_pos (Node.callsArguments_iff.mpr calls)]
    rcases shared.once calls with ⟨one, rfl⟩ | ⟨rfl, one⟩
    · rw [one, List.length_nil]
    · rw [one, List.length_nil]
  · rcases shared.elsewhere calls with ⟨rfl, rfl⟩
    rw [if_neg fun called => calls (Node.callsArguments_iff.mp called)]
    rfl

theorem length_draftsOn_argv (sites : List Site) :
    (argvOptions.draftsOn context sites).length + (argvHeadFlag.draftsOn context sites).length =
      sites.countP fun site => site.node.callsOn (.written "ARGV") := by
  induction sites with
  | nil => rfl
  | cons site rest induction =>
      rcases exists_sharedOut context site with
        ⟨options, flags, optionsFound, flagsFound, shared⟩
      have atSite := shared.length_add
      have optionKinds : argvOptions.kinds = [.methodCall] := rfl
      have flagKinds : argvHeadFlag.kinds = [.methodCall] := rfl
      rw [Rule.draftsOn_cons, Rule.draftsOn_cons, List.countP_cons, ← induction, optionsFound,
        flagsFound, optionKinds, flagKinds, ← atSite]
      by_cases call : site.node.kind = .methodCall
      · have listed : [SyntaxKind.methodCall].contains site.node.kind = true := by
          rw [call]
          rfl
        rw [if_pos listed, if_pos listed, List.length_append, List.length_append]
        simp only [Option.getD_some]
        omega
      · have unlisted : ¬[SyntaxKind.methodCall].contains site.node.kind = true := by
          simpa using call
        rcases shared.elsewhere (fun calls => call calls.kind) with ⟨rfl, rfl⟩
        rw [if_neg unlisted]
        rfl

/-- Calls on the arguments are reported once: at each of them one of the two rules makes one draft,
and over all sites of a formula there are as many drafts as such calls. -/
theorem argvCalls_reported_once (context : Surroundings) :
    (∀ site, ∃ options flags, argvOptions.detect context site = some options ∧
      argvHeadFlag.detect context site = some flags ∧ SharedOut site options flags) ∧
    ∀ sites : List Site,
      (argvOptions.draftsOn context sites).length + (argvHeadFlag.draftsOn context sites).length =
        sites.countP fun site => site.node.callsOn (.written "ARGV") :=
  ⟨exists_sharedOut context, length_draftsOn_argv context⟩

def commentedFlag : Node where
  label := "call"
  named := true
  field := none
  extent := ⟨1, 0, 2, 9, 0, 27⟩
  text := "ARGV.include?(# c\n\x22--HEAD\x22)"
  children := [
    .onLine "constant" true (some "receiver") 0 4 "ARGV" [],
    .onLine "." false none 4 5 "." [],
    .onLine "identifier" true (some "method") 5 13 "include?" [],
    ⟨"argument_list", true, some "arguments", ⟨1, 13, 2, 9, 13, 27⟩, "(# c\n\x22--HEAD\x22)", [
      .onLine "(" false none 13 14 "(" [],
      .onLine "comment" true none 14 17 "# c" [],
      ⟨"string", true, none, ⟨2, 0, 2, 8, 18, 26⟩, "\x22--HEAD\x22", [
        ⟨"\x22", false, none, ⟨2, 0, 2, 1, 18, 19⟩, "\x22", []⟩,
        ⟨"string_content", true, none, ⟨2, 1, 2, 7, 19, 25⟩, "--HEAD", []⟩,
        ⟨"\x22", false, none, ⟨2, 7, 2, 8, 25, 26⟩, "\x22", []⟩]⟩,
      ⟨")", false, none, ⟨2, 8, 2, 9, 26, 27⟩, ")", []⟩]⟩]

def commentedSurroundings : Surroundings where
  formula := ⟨commentedFlag.text, commentedFlag, false⟩
  provenance := ⟨none, none⟩
  tables := {}

theorem argvCalls_reported_once_commentedFlag :
    commentedFlag.CallsArguments ∧ (∃ flag content, commentedFlag.SeeksFlag flag content) ∧
      argvOptions.detect commentedSurroundings (.ofRoot commentedFlag) = some [] ∧
      ∃ flags, argvHeadFlag.detect commentedSurroundings (.ofRoot commentedFlag) = some flags ∧
        flags.length = 1 := by
  have sought : seeksDevelopmentFlag commentedFlag = true := by decide
  rcases seeksDevelopmentFlag_iff.mp sought with ⟨calls, seeks⟩
  rcases (argvCalls_reported_once commentedSurroundings).1 (.ofRoot commentedFlag) with
    ⟨options, flags, optionsFound, flagsFound, shared⟩
  have one := (shared.flag_iff calls).mpr seeks
  rcases shared.once calls with ⟨-, rfl⟩ | ⟨rfl, -⟩
  · cases one
  · exact ⟨calls, seeks, optionsFound, flags, flagsFound, one⟩

end Rules

end FormulaLint
