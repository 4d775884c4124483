import FormulaLint.Proofs.LayeredDocuments
import Mathlib

/-! Policies that are merged. Which rules the result leaves out for a file depends on the policies
that went into it, and not on their order, on how they were grouped or on how often each was used.
Exemptions add up. Restrictions of a rule admit files one by one, but the first of them shuts out
all others. -/

namespace FormulaLint

namespace Policy

variable {layers others : List Policy} {policy layer : Policy} {rule : String}
  {provenance : Provenance}

/-! ## Merging -/

/-- The ways of merging policies: none at all, a single one, or the results of two merges. -/
inductive MergedFrom : List Policy → Policy → Prop
  | empty : MergedFrom [] {}
  | single (policy : Policy) : MergedFrom [policy] policy
  | merge {layers others : List Policy} {policy other : Policy}
      (earlier : MergedFrom layers policy) (later : MergedFrom others other) :
      MergedFrom (layers ++ others) (policy.merge other)

namespace MergedFrom

theorem foldl (merged : MergedFrom layers policy) :
    MergedFrom (layers ++ others) (others.foldl Policy.merge policy) := by
  induction others generalizing layers policy with
  | nil => rwa [List.append_nil]
  | cons other rest induction =>
      rw [List.append_cons]
      exact induction (merged.merge (.single other))

theorem exists_exemption_iff (merged : MergedFrom layers policy) {property : Exemption → Prop} :
    (∃ exemption ∈ policy.exemptions, property exemption) ↔
      ∃ layer ∈ layers, ∃ exemption ∈ layer.exemptions, property exemption := by
  induction merged with
  | empty => simp
  | single policy => simp
  | merge earlier later earlierInduction laterInduction =>
      simp only [Policy.merge, List.mem_append, or_and_right, exists_or, earlierInduction,
        laterInduction]

theorem exists_restriction_iff (merged : MergedFrom layers policy)
    {property : Restriction → Prop} :
    (∃ restriction ∈ policy.restrictions, property restriction) ↔
      ∃ layer ∈ layers, ∃ restriction ∈ layer.restrictions, property restriction := by
  induction merged with
  | empty => simp
  | single policy => simp
  | merge earlier later earlierInduction laterInduction =>
      simp only [Policy.merge, List.mem_append, or_and_right, exists_or, earlierInduction,
        laterInduction]

end MergedFrom

/-! ## What layers say about a rule -/

def Exempted (layers : List Policy) (rule : String) (provenance : Provenance) : Prop :=
  ∃ layer ∈ layers, ∃ exemption ∈ layer.exemptions,
    exemption.covers rule = true ∧ exemption.concerns provenance = true

def Restricted (layers : List Policy) (rule : String) : Prop :=
  ∃ layer ∈ layers, ∃ restriction ∈ layer.restrictions, restriction.covers rule = true

/-- Some layer has a restriction of the rule whose pattern is found in the path of the file. Where
no path is known there is none. -/
def Admitted (layers : List Policy) (rule : String) (provenance : Provenance) : Prop :=
  ∃ layer ∈ layers, ∃ restriction ∈ layer.restrictions, restriction.covers rule = true ∧
    ∃ path, provenance.path = some path ∧ (restriction.path.search path).isSome = true

/-! ### A further layer -/

theorem exempted_exemptions_cons {exemptions : List Exemption}
    (exempted : Exempted layers rule provenance) :
    Exempted (⟨exemptions, []⟩ :: layers) rule provenance :=
  (List.exists_mem_cons_iff _ _ _).mpr (.inr exempted)

theorem exempted_restrictions_cons {restrictions : List Restriction} :
    Exempted (⟨[], restrictions⟩ :: layers) rule provenance ↔
      Exempted layers rule provenance := by
  simp [Exempted]

theorem restricted_exemptions_cons {exemptions : List Exemption} :
    Restricted (⟨exemptions, []⟩ :: layers) rule ↔ Restricted layers rule := by
  simp [Restricted]

theorem admitted_exemptions_cons {exemptions : List Exemption} :
    Admitted (⟨exemptions, []⟩ :: layers) rule provenance ↔ Admitted layers rule provenance := by
  simp [Admitted]

theorem admitted_restrictions_cons {restrictions : List Restriction}
    (admitted : Admitted layers rule provenance) :
    Admitted (⟨[], restrictions⟩ :: layers) rule provenance :=
  (List.exists_mem_cons_iff _ _ _).mpr (.inr admitted)

/-! ## What a merged policy leaves out -/

theorem exempts_eq_true_iff :
    policy.exempts rule provenance = true ↔
      Exempted [policy] rule provenance ∨
        Restricted [policy] rule ∧ ¬Admitted [policy] rule provenance := by
  simp only [exempts, Bool.or_eq_true, Bool.and_eq_true, Bool.not_eq_true', List.any_eq_true,
    List.isEmpty_eq_false_iff_exists_mem, List.any_eq_false, List.mem_filter, Restriction.admits,
    Option.any_eq_true, Exempted, Restricted, Admitted, List.mem_singleton, exists_eq_left,
    not_exists, not_and, and_imp]

/-- A file is left out by the layers taken together. -/
theorem MergedFrom.exempts_iff (merged : MergedFrom layers policy) :
    policy.exempts rule provenance = true ↔
      Exempted layers rule provenance ∨
        Restricted layers rule ∧ ¬Admitted layers rule provenance := by
  rw [exempts_eq_true_iff]
  simp only [Exempted, Restricted, Admitted, List.mem_singleton, exists_eq_left,
    merged.exists_exemption_iff, merged.exists_restriction_iff]

theorem MergedFrom.exempts_congr {other : Policy} (merged : MergedFrom layers policy)
    (again : MergedFrom others other) (same : ∀ layer, layer ∈ others ↔ layer ∈ layers) :
    other.exempts rule provenance = policy.exempts rule provenance := by
  rw [Bool.eq_iff_iff, again.exempts_iff, merged.exempts_iff]
  simp only [Exempted, Restricted, Admitted, same]

theorem MergedFrom.exempts_of_more_exemptions {exemptions : List Exemption} {more : Policy}
    (merged : MergedFrom layers policy) (extended : MergedFrom (⟨exemptions, []⟩ :: layers) more)
    (leavesOut : policy.exempts rule provenance = true) :
    more.exempts rule provenance = true := by
  rw [merged.exempts_iff] at leavesOut
  rw [extended.exempts_iff, restricted_exemptions_cons, admitted_exemptions_cons]
  exact leavesOut.imp_left exempted_exemptions_cons

theorem MergedFrom.not_exempts_of_more_restrictions {restrictions : List Restriction}
    {more : Policy} (merged : MergedFrom layers policy)
    (extended : MergedFrom (⟨[], restrictions⟩ :: layers) more)
    (restricted : Restricted layers rule)
    (keeps : policy.exempts rule provenance = false) : more.exempts rule provenance = false := by
  rw [← Bool.not_eq_true, merged.exempts_iff, not_or, not_and_not_right] at keeps
  rw [← Bool.not_eq_true, extended.exempts_iff, not_or, not_and_not_right,
    exempted_restrictions_cons]
  exact ⟨keeps.1, fun _ => admitted_restrictions_cons (keeps.2 restricted)⟩

/-- Any policies can be merged, one after another or in any other way. Whichever way is taken, a rule
is left out for a file if and only if some layer has an exemption of the rule that concerns the
file, or some layer restricts the rule and none admits the file to it. So neither order nor
repetition matters, exemptions bring nothing back, and a restriction shuts files out only where the
rule had none before. -/
theorem exempts_of_layers (layers : List Policy) (rule : String) (provenance : Provenance) :
    MergedFrom layers (layers.foldl Policy.merge {}) ∧
      ∀ policy, MergedFrom layers policy →
        (policy.exempts rule provenance = true ↔
          Exempted layers rule provenance ∨
            Restricted layers rule ∧ ¬Admitted layers rule provenance) ∧
        (∀ others other, MergedFrom others other →
          (∀ layer, layer ∈ others ↔ layer ∈ layers) →
            other.exempts rule provenance = policy.exempts rule provenance) ∧
        (∀ exemptions more, MergedFrom (⟨exemptions, []⟩ :: layers) more →
          policy.exempts rule provenance = true → more.exempts rule provenance = true) ∧
        ∀ restrictions more, MergedFrom (⟨[], restrictions⟩ :: layers) more →
          Restricted layers rule →
            policy.exempts rule provenance = false → more.exempts rule provenance = false := by
  refine ⟨MergedFrom.empty.foldl, ?_⟩
  intro policy merged
  refine ⟨merged.exempts_iff, ?_, ?_, ?_⟩
  · intro others other again same
    exact merged.exempts_congr again same
  · intro exemptions more extended leavesOut
    exact merged.exempts_of_more_exemptions extended leavesOut
  · intro restrictions more extended restricted keeps
    exact merged.not_exempts_of_more_restrictions extended restricted keeps

def literalPattern (text : String) : Pattern :=
  ⟨text, .literal text, []⟩

def coreLayer : Policy :=
  ⟨[], [⟨"Miscellaneous/*", literalPattern "/core/"⟩]⟩

def wineLayer : Policy :=
  ⟨[⟨"*/LinuxCheck", none, some (literalPattern "Wine")⟩], []⟩

def tapLayer : Policy :=
  ⟨[], [⟨"Miscellaneous/Linux?heck", literalPattern "/tap/"⟩]⟩

/-- The second tap is admitted however the layers are merged, and a file without a path is not. The
first tap stays admitted when the second one is added, and what is shut out stays so when a class is
exempted. -/
theorem exempts_of_layers_twoTaps :
    let rule := "Miscellaneous/LinuxCheck"
    let grouped := coreLayer.merge (wineLayer.merge tapLayer)
    let repeated := [tapLayer, wineLayer, tapLayer, coreLayer].foldl Policy.merge {}
    MergedFrom [coreLayer, wineLayer, tapLayer] grouped ∧
      (∀ layer, layer ∈ [tapLayer, wineLayer, tapLayer, coreLayer] ↔
        layer ∈ [coreLayer, wineLayer, tapLayer]) ∧
      repeated.exempts rule ⟨some "/tap/a.rb", none⟩ = false ∧
      repeated.exempts rule ⟨some "/tap/a.rb", some "Wine"⟩ = true ∧
      Restricted [coreLayer] rule ∧
      (tapLayer.merge coreLayer).exempts rule ⟨some "/core/a.rb", none⟩ = false ∧
      (wineLayer.merge coreLayer).exempts rule ⟨none, none⟩ = true := by
  intro rule grouped repeated
  have merged : MergedFrom [coreLayer, wineLayer, tapLayer] grouped :=
    (MergedFrom.single coreLayer).merge ((MergedFrom.single wineLayer).merge (.single tapLayer))
  have again : MergedFrom [tapLayer, wineLayer, tapLayer, coreLayer] repeated :=
    MergedFrom.empty.foldl
  have same : ∀ layer, layer ∈ [tapLayer, wineLayer, tapLayer, coreLayer] ↔
      layer ∈ [coreLayer, wineLayer, tapLayer] := by
    intro layer
    simp only [List.mem_cons, List.not_mem_nil, or_false]
    tauto
  have agrees : ∀ provenance,
      repeated.exempts rule provenance = grouped.exempts rule provenance := by
    intro provenance
    rcases (exempts_of_layers _ rule provenance).2 grouped merged with ⟨-, order, -, -⟩
    exact order _ repeated again same
  have restricted : Restricted [coreLayer] rule :=
    ⟨coreLayer, List.mem_singleton_self _, _, List.mem_singleton_self _, by cbv⟩
  refine ⟨merged, same, ?_, ?_, restricted, ?_, ?_⟩
  · rw [agrees]
    cbv
  · rw [agrees]
    cbv
  · rcases (exempts_of_layers _ rule ⟨some "/core/a.rb", none⟩).2 coreLayer (.single coreLayer)
      with ⟨-, -, -, admits⟩
    exact admits _ _ (.merge (.single tapLayer) (.single coreLayer)) restricted (by cbv)
  · rcases (exempts_of_layers _ rule ⟨none, none⟩).2 coreLayer (.single coreLayer)
      with ⟨-, -, adds, -⟩
    exact adds _ _ (.merge (.single wineLayer) (.single coreLayer)) (by cbv)

end Policy

/-! ## Policies of loaded configurations -/

namespace Configuration

variable {languages : Languages} {disk : Disk} {paths others : List Path}
  {base configuration other : Configuration} {layers : List Policy}

def policyAt (languages : Languages) (disk : Disk) (path : Path) : Except Failure Policy := do
  let document ← readDocument languages disk path
  (Policy.ofDocument document).mapError .configuration

private theorem exists_policyAt {path : Path}
    (layers : base.withDocument languages disk path = .ok configuration) :
    ∃ policy, policyAt languages disk path = .ok policy ∧
      configuration.policy = base.policy.merge policy := by
  rcases exists_layer_of_withDocument layers with ⟨document, reads, layered⟩
  rcases policy_of_layer layered with ⟨policy, readsPolicy, merged⟩
  refine ⟨policy, ?_, merged⟩
  rw [policyAt, reads]
  change (Policy.ofDocument document).mapError Failure.configuration = _
  rw [readsPolicy]
  rfl

theorem exists_mergedFrom_of_foldlM (merged : Policy.MergedFrom layers base.policy)
    (loaded : paths.foldlM (withDocument languages disk) base = .ok configuration) :
    ∃ policies, paths.mapM (policyAt languages disk) = .ok policies ∧
      Policy.MergedFrom (layers ++ policies) configuration.policy := by
  induction paths generalizing base layers with
  | nil =>
      cases loaded
      refine ⟨[], rfl, ?_⟩
      rwa [List.append_nil]
  | cons path rest induction =>
      rw [List.foldlM_cons] at loaded
      rcases Except.exists_of_bind_eq_ok loaded with ⟨next, first, later⟩
      rcases exists_policyAt first with ⟨policy, held, policyEq⟩
      have grown : Policy.MergedFrom (layers ++ [policy]) next.policy := by
        rw [policyEq]
        exact merged.merge (.single policy)
      rcases induction grown later with ⟨policies, read, final⟩
      refine ⟨policy :: policies, ?_, ?_⟩
      · rw [List.mapM_cons, held, read]
        rfl
      · rwa [List.append_cons layers policy policies]

/-- Documents that are loaded in another order or several times leave out the same rules for the
same files. -/
theorem exempts_load_congr (loaded : (load languages disk paths).1 = .ok configuration)
    (again : (load languages disk others).1 = .ok other)
    (same : ∀ path, path ∈ others ↔ path ∈ paths) (rule : String) (provenance : Provenance) :
    other.policy.exempts rule provenance = configuration.policy.exempts rule provenance := by
  rcases exists_packaged with ⟨base, starts⟩
  rw [fst_load starts] at loaded again
  rcases exists_mergedFrom_of_foldlM (.single base.policy) loaded with ⟨policies, read, merged⟩
  rcases exists_mergedFrom_of_foldlM (.single base.policy) again with
    ⟨otherPolicies, otherRead, otherMerged⟩
  apply merged.exempts_congr otherMerged
  intro layer
  rw [List.mem_append, List.mem_append, Except.mem_iff_of_mapM_eq_ok read,
    Except.mem_iff_of_mapM_eq_ok otherRead]
  simp only [same]

end Configuration

end FormulaLint
