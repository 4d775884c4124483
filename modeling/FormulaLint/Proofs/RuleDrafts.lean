import FormulaLint.Correction
import FormulaLint.Proofs.FixPlacement
import FormulaLint.Rule

/-! What a single rule drafts at a site, and what its fix alone makes of the source. -/

namespace FormulaLint

/-- A rule drafts something at a site of one of its kinds. -/
def Rule.Drafts (rule : Rule) (context : Surroundings) (site : Site) (draft : Draft) : Prop :=
  rule.kinds.contains site.node.kind = true ∧
    ∃ drafts, rule.detect context site = some drafts ∧ draft ∈ drafts

theorem Rule.detect_correcting (family name : String) (kinds : List SyntaxKind)
    (inspect : Surroundings → Site → List Draft) (context : Surroundings) (site : Site) :
    (Rule.correcting family name kinds inspect).detect context site =
      some (inspect context site) :=
  congrArg some (List.map_id _)

theorem Rule.drafts_correcting_iff {family name : String} {kinds : List SyntaxKind}
    {inspect : Surroundings → Site → List Draft} {context : Surroundings} {site : Site}
    {draft : Draft} :
    (Rule.correcting family name kinds inspect).Drafts context site draft ↔
      kinds.contains site.node.kind = true ∧ draft ∈ inspect context site := by
  refine and_congr_right fun _ => ?_
  rw [detect_correcting]
  constructor
  · rintro ⟨drafts, detected, member⟩
    cases detected
    exact member
  · intro member
    exact ⟨_, rfl, member⟩

theorem Rule.exists_drafts_correcting {family name : String} {kinds : List SyntaxKind}
    {inspect : Surroundings → Site → List Draft} {context : Surroundings} {site : Site}
    (listed : kinds.contains site.node.kind = true) (inspected : inspect context site ≠ []) :
    ∃ draft, (Rule.correcting family name kinds inspect).Drafts context site draft := by
  rcases List.exists_mem_of_ne_nil _ inspected with ⟨draft, member⟩
  exact ⟨draft, Rule.drafts_correcting_iff.mpr ⟨listed, member⟩⟩

theorem Fix.splice?_write (source text : String) (start stop : Nat) :
    (Fix.write start stop text).splice? source =
      some (Text.slice source 0 start ++ text ++ Text.slice source stop source.length) :=
  rfl

theorem Node.replacedBy_inj {node : Node} {text other : String} :
    node.replacedBy text = node.replacedBy other ↔ text = other := by
  constructor
  · intro same
    cases same
    rfl
  · intro same
    rw [same]

/-! ### One line -/

def Node.onLine (label : String) (named : Bool) (field : Option String) (start stop : Nat)
    (text : String) (children : List Node) : Node :=
  ⟨label, named, field, ⟨1, start, 1, stop, start, stop⟩, text, children⟩

def Surroundings.ofLine (source : String) (line : Node) : Surroundings where
  formula := ⟨source, ⟨"program", true, none, line.extent, source, [line]⟩, false⟩
  provenance := ⟨none, none⟩
  tables := {}

end FormulaLint
