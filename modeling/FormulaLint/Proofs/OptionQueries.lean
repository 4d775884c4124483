import FormulaLint.Proofs.FixPlacement
import FormulaLint.Rules.BuildQuery

/-! Queries of the build for an option: the method that is called and the literal that names the
option. -/

namespace FormulaLint

variable {node option : Node} {source query content : String} {queries : List String}

theorem Rules.contains_of_literalArgument?
    (found : literalArgument? node = some (option, content)) :
    node.Contains option ∧ option.stringContent? = some content := by
  simp only [literalArgument?, Option.bind_eq_bind, Option.pure_def, Option.bind_eq_some_iff,
    Option.some.injEq, Prod.mk.injEq] at found
  rcases found with ⟨argument, first, content, contentEq, rfl, rfl⟩
  exact ⟨Node.contains_of_firstArgument? first, contentEq⟩

namespace Node

structure AsksOption (node : Node) (query : String) (option : Node) (content : String) : Prop where
  asks : node.asksBuild [query] = true
  argument : Rules.literalArgument? node = some (option, content)

theorem calls_iff {methods : List String} {receiver : ReceiverDemand} :
    node.calls methods receiver = true ↔
      node.callsOn receiver = true ∧ ∃ method ∈ methods, node.method? = some method := by
  simp only [calls, Bool.and_eq_true, Option.any_eq_true, List.contains_iff_mem]
  refine and_congr_right fun _ => ?_
  constructor
  · rintro ⟨method, called, listed⟩
    exact ⟨method, listed, called⟩
  · rintro ⟨method, listed, called⟩
    exact ⟨method, called, listed⟩

theorem asksBuild_iff :
    node.asksBuild queries = true ↔
      node.callsOn (.written "build") = true ∧ ∃ query ∈ queries, node.method? = some query :=
  calls_iff

namespace AsksOption

variable (asked : node.AsksOption query option content)

include asked

theorem method?_eq : node.method? = some query := by
  rcases (asksBuild_iff.mp asked.asks).2 with ⟨other, listed, called⟩
  rw [called, List.mem_singleton.mp listed]

theorem kind_eq : node.kind = .methodCall := by
  have called := (asksBuild_iff.mp asked.asks).1
  rw [callsOn, Bool.and_eq_true, decide_eq_true_eq] at called
  exact called.1

theorem asksBuild_of_mem (listed : query ∈ queries) : node.asksBuild queries = true :=
  asksBuild_iff.mpr ⟨(asksBuild_iff.mp asked.asks).1, query, listed, asked.method?_eq⟩

theorem unique {otherQuery otherContent : String} {otherOption : Node}
    (other : node.AsksOption otherQuery otherOption otherContent) :
    query = otherQuery ∧ option = otherOption ∧ content = otherContent := by
  have same := asked.argument.symm.trans other.argument
  cases same
  exact ⟨Option.some.inj (asked.method?_eq.symm.trans other.method?_eq), rfl, rfl⟩

theorem exists_bounds (laidOut : node.LaidOutBelow source) (named : content ≠ "") :
    ∃ start stop : Nat, option.contentBounds = (↑start, ↑stop) ∧
      content = Text.slice source start stop := by
  rcases Rules.contains_of_literalArgument? asked.argument with ⟨contained, contentEq⟩
  have room : option.HasRoom := by
    by_contra noRoom
    exact named (option.content_eq_empty contentEq noRoom)
  rcases (laidOut.of_contains contained).content_eq contentEq room with
    ⟨start, stop, bounds, -, -, -, cut⟩
  exact ⟨start, stop, bounds, cut⟩

end AsksOption

theorem asksOption_of_asksBuild (asks : node.asksBuild queries = true)
    (argument : Rules.literalArgument? node = some (option, content)) :
    ∃ query ∈ queries, node.method? = some query ∧ node.AsksOption query option content := by
  rcases asksBuild_iff.mp asks with ⟨called, query, listed, method⟩
  have alone : node.asksBuild [query] = true :=
    asksBuild_iff.mpr ⟨called, query, List.mem_singleton_self query, method⟩
  exact ⟨query, listed, method, alone, argument⟩

end Node

end FormulaLint
