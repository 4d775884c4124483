import FormulaLint.Audit
import FormulaLint.Proofs.RuleIndex

/-! What an audit has of each rule after any number of visits. The visits go from site to site and
show each of them to many rules, but what becomes of one rule depends on that rule alone. -/

namespace FormulaLint

/-! ## One rule and some sites -/

namespace Rule

def sitesAmong (rule : Rule) (sites : List Site) : List Site :=
  sites.filter fun site => rule.kinds.contains site.node.kind

def failsOn (rule : Rule) (context : Surroundings) (sites : List Site) : Bool :=
  (rule.sitesAmong sites).any fun site => (rule.detect context site).isNone

def draftsOn (rule : Rule) (context : Surroundings) (sites : List Site) : List Draft :=
  (rule.sitesAmong sites).flatMap fun site => (rule.detect context site).getD []

variable {rule : Rule} {context : Surroundings} {site : Site} {sites : List Site}

theorem sitesAmong_cons :
    rule.sitesAmong (site :: sites) =
      if rule.kinds.contains site.node.kind then site :: rule.sitesAmong sites
      else rule.sitesAmong sites :=
  List.filter_cons

theorem failsOn_cons :
    rule.failsOn context (site :: sites) =
      (rule.kinds.contains site.node.kind && (rule.detect context site).isNone ||
        rule.failsOn context sites) := by
  unfold failsOn
  rw [sitesAmong_cons]
  cases rule.kinds.contains site.node.kind <;> simp

theorem draftsOn_cons :
    rule.draftsOn context (site :: sites) =
      (if rule.kinds.contains site.node.kind then (rule.detect context site).getD [] else []) ++
        rule.draftsOn context sites := by
  unfold draftsOn
  rw [sitesAmong_cons]
  cases rule.kinds.contains site.node.kind <;> simp

end Rule

/-! ## One site -/

namespace AuditProgress

/-- What has become of the rule with an id: it has failed, or it has made some drafts. -/
def standing (progress : AuditProgress) (id : String) : Option (List Draft) :=
  if progress.failed.contains id then none else some (progress.draftsOf id)

def Purged (progress : AuditProgress) : Prop :=
  ∀ id ∈ progress.failed, progress.draftsOf id = []

theorem standing_empty (id : String) : standing {} id = some [] :=
  rfl

private theorem purged_empty : Purged {} := by
  intro id member
  cases member

variable (progress : AuditProgress)

@[simp] theorem failed_record (id : String) (found : List Draft) :
    (progress.record id found).failed = progress.failed := by
  rw [record]
  split <;> rfl

@[simp] theorem draftsOf_record (id other : String) (found : List Draft) :
    (progress.record id found).draftsOf other =
      if id = other then progress.draftsOf id ++ found else progress.draftsOf other := by
  rw [record]
  split
  · next empty =>
      rw [List.isEmpty_iff.mp empty, List.append_nil]
      split
      · next same => rw [same]
      · rfl
  · simp only [draftsOf, Dictionary.get?_put]
    split <;> rfl

@[simp] theorem failed_fail (id : String) (notice : Notice) :
    (progress.fail id notice).failed = progress.failed ++ [id] :=
  rfl

@[simp] theorem draftsOf_fail (id other : String) (notice : Notice) :
    (progress.fail id notice).draftsOf other =
      if id = other then [] else progress.draftsOf other := by
  simp only [draftsOf, fail, Dictionary.get?_remove]
  split <;> rfl

variable (context : Surroundings) (active : List String) (site : Site)

private theorem inspect_of_not_mem {rule : Rule} (exempt : rule.id ∉ active) :
    progress.inspect context active site rule = progress := by
  rw [inspect, if_pos (by simp [exempt])]

theorem standing_inspect_self {rule : Rule} (member : rule.id ∈ active) :
    (progress.inspect context active site rule).standing rule.id =
      (progress.standing rule.id).bind fun drafts =>
        (rule.detect context site).map fun found => drafts ++ found := by
  unfold inspect
  by_cases failed : rule.id ∈ progress.failed
  · simp [standing, failed]
  · cases outcome : rule.detect context site with
    | none => simp [standing, member, failed]
    | some found => simp [standing, member, failed]

theorem standing_inspect_other {rule : Rule} {id : String} (different : rule.id ≠ id) :
    (progress.inspect context active site rule).standing id = progress.standing id := by
  rw [inspect]
  split
  · rfl
  · cases rule.detect context site with
    | none => simp [standing, different, different.symm]
    | some found => simp [standing, different]

theorem Purged.inspect {progress : AuditProgress} (purged : progress.Purged) (rule : Rule) :
    (progress.inspect context active site rule).Purged := by
  rw [AuditProgress.inspect]
  split
  · exact purged
  · next unseen =>
      simp only [Bool.or_eq_true, not_or, Bool.not_eq_true, List.contains_eq_mem,
        decide_eq_false_iff_not] at unseen
      cases rule.detect context site with
      | none =>
          intro id member
          rw [draftsOf_fail]
          split
          · rfl
          · next different =>
              rw [failed_fail, List.mem_append, List.mem_singleton] at member
              exact purged id (member.resolve_right fun same => different same.symm)
      | some found =>
          intro id member
          rw [failed_record] at member
          have different : rule.id ≠ id := fun same => unseen.2 (same ▸ member)
          rw [draftsOf_record, if_neg different]
          exact purged id member

/-! ## All rules at one site -/

theorem standing_foldl_of_not_mem {id : String} {rules : List Rule}
    (absent : id ∉ rules.map (·.id)) :
    (rules.foldl (AuditProgress.inspect context active site) progress).standing id =
      progress.standing id := by
  induction rules generalizing progress with
  | nil => rfl
  | cons head tail induction =>
      rw [List.map_cons, List.mem_cons, not_or] at absent
      rw [List.foldl_cons, induction _ absent.2]
      exact progress.standing_inspect_other context active site (Ne.symm absent.1)

theorem standing_foldl_of_mem {rule : Rule} {rules : List Rule}
    (distinct : (rules.map (·.id)).Nodup) (member : rule ∈ rules) (included : rule.id ∈ active) :
    (rules.foldl (AuditProgress.inspect context active site) progress).standing rule.id =
      (progress.standing rule.id).bind fun drafts =>
        (rule.detect context site).map fun found => drafts ++ found := by
  induction rules generalizing progress with
  | nil => cases member
  | cons head tail induction =>
      rw [List.map_cons, List.nodup_cons] at distinct
      rw [List.foldl_cons]
      rcases List.mem_cons.mp member with equal | member
      · subst equal
        rw [standing_foldl_of_not_mem _ context active site distinct.1]
        exact progress.standing_inspect_self context active site included
      · have different : head.id ≠ rule.id := by
          intro same
          exact distinct.1 (same ▸ List.mem_map_of_mem member)
        rw [induction _ distinct.2 member,
          progress.standing_inspect_other context active site different]

private theorem standing_foldl_of_inactive {id : String} {rules : List Rule}
    (exempt : id ∉ active) :
    (rules.foldl (AuditProgress.inspect context active site) progress).standing id =
      progress.standing id := by
  induction rules generalizing progress with
  | nil => rfl
  | cons head tail induction =>
      rw [List.foldl_cons, induction]
      by_cases same : head.id = id
      · rw [progress.inspect_of_not_mem context active site (same ▸ exempt)]
      · exact progress.standing_inspect_other context active site same

theorem Purged.foldl {progress : AuditProgress} (purged : progress.Purged) (rules : List Rule) :
    (rules.foldl (AuditProgress.inspect context active site) progress).Purged := by
  induction rules generalizing progress with
  | nil => exact purged
  | cons head tail induction => exact induction (purged.inspect context active site head)

end AuditProgress

/-! ## All sites -/

namespace Audit

variable (catalogue : Catalogue) (context : Surroundings) (active : List String)

private theorem standing_visit {rule : Rule} (member : rule ∈ catalogue.rules)
    (included : rule.id ∈ active) (progress : AuditProgress) (site : Site) :
    (visit catalogue context active progress site).standing rule.id =
      (progress.standing rule.id).bind fun drafts =>
        if rule.kinds.contains site.node.kind then
          (rule.detect context site).map fun found => drafts ++ found
        else some drafts := by
  have distinct : ((catalogue.rulesOfKind site.node.kind).map (·.id)).Nodup := by
    rw [catalogue.rulesOfKind_eq]
    exact catalogue.nodup_ids.sublist (List.filter_sublist.map _)
  unfold visit
  by_cases wanted : rule.kinds.contains site.node.kind = true
  · have shown : rule ∈ catalogue.rulesOfKind site.node.kind := by
      rw [catalogue.rulesOfKind_eq, List.mem_filter]
      exact ⟨member, wanted⟩
    rw [progress.standing_foldl_of_mem context active site distinct shown included]
    simp only [wanted, if_true]
  · have absent : rule.id ∉ (catalogue.rulesOfKind site.node.kind).map (·.id) := by
      rw [catalogue.rulesOfKind_eq, List.mem_map]
      rintro ⟨other, otherMember, same⟩
      rw [List.mem_filter] at otherMember
      have equal := catalogue.eq_of_id_eq otherMember.1 member same
      exact wanted (equal ▸ otherMember.2)
    rw [progress.standing_foldl_of_not_mem context active site absent]
    simp only [wanted, Bool.false_eq_true, if_false]
    exact (Option.bind_fun_some _).symm

/-- What a run of visits adds to a rule: its drafts from these sites, unless it fails at one. -/
theorem standing_foldl_visit {rule : Rule} (member : rule ∈ catalogue.rules)
    (included : rule.id ∈ active) (progress : AuditProgress) (sites : List Site) :
    (sites.foldl (visit catalogue context active) progress).standing rule.id =
      if rule.failsOn context sites then none
      else (progress.standing rule.id).map fun drafts =>
        drafts ++ rule.draftsOn context sites := by
  induction sites generalizing progress with
  | nil => simp [Rule.failsOn, Rule.draftsOn, Rule.sitesAmong]
  | cons site rest induction =>
      rw [List.foldl_cons, induction, standing_visit catalogue context active member included,
        Rule.failsOn_cons, Rule.draftsOn_cons]
      cases rule.failsOn context rest with
      | true => simp
      | false =>
          by_cases wanted : rule.kinds.contains site.node.kind = true
          · simp only [wanted]
            cases rule.detect context site with
            | none => simp
            | some found => cases progress.standing rule.id <;> simp
          · simp only [wanted]
            cases progress.standing rule.id <;> simp

private theorem standing_foldl_visit_of_inactive {id : String} (exempt : id ∉ active)
    (progress : AuditProgress) (sites : List Site) :
    (sites.foldl (visit catalogue context active) progress).standing id =
      progress.standing id := by
  induction sites generalizing progress with
  | nil => rfl
  | cons site rest induction =>
      rw [List.foldl_cons, induction]
      exact progress.standing_foldl_of_inactive context active site exempt

private theorem purged_visitAll (sites : List Site) :
    (visitAll catalogue context active sites).Purged := by
  have kept : ∀ progress : AuditProgress, progress.Purged →
      (sites.foldl (visit catalogue context active) progress).Purged := by
    induction sites with
    | nil => exact fun _ purged => purged
    | cons site rest induction =>
        intro progress purged
        exact induction _ (purged.foldl context active site _)
  exact kept {} AuditProgress.purged_empty

variable {rule : Rule} (member : rule ∈ catalogue.rules) (sites : List Site)

include member

theorem standing_visitAll :
    (visitAll catalogue context active sites).standing rule.id =
      if rule.id ∈ active then
        if rule.failsOn context sites then none else some (rule.draftsOn context sites)
      else some [] := by
  rw [visitAll]
  split
  · next included =>
      rw [standing_foldl_visit catalogue context active member included]
      simp [AuditProgress.standing_empty]
  · next exempt => exact standing_foldl_visit_of_inactive catalogue context active exempt {} sites

theorem mem_failed_visitAll :
    rule.id ∈ (visitAll catalogue context active sites).failed ↔
      rule.id ∈ active ∧ rule.failsOn context sites = true := by
  have standing := standing_visitAll catalogue context active member sites
  unfold AuditProgress.standing at standing
  constructor
  · intro failed
    rw [if_pos (List.contains_iff_mem.mpr failed)] at standing
    split at standing
    · next included =>
        split at standing
        · next fails => exact ⟨included, fails⟩
        · cases standing
    · cases standing
  · rintro ⟨included, fails⟩
    rw [if_pos included, if_pos fails] at standing
    split at standing
    · next failed => exact List.contains_iff_mem.mp failed
    · cases standing

theorem draftsOf_visitAll :
    (visitAll catalogue context active sites).draftsOf rule.id =
      if rule.id ∈ active ∧ rule.failsOn context sites = false then rule.draftsOn context sites
      else [] := by
  have standing := standing_visitAll catalogue context active member sites
  by_cases failed : rule.id ∈ (visitAll catalogue context active sites).failed
  · have fails := ((mem_failed_visitAll catalogue context active member sites).mp failed).2
    rw [purged_visitAll catalogue context active sites rule.id failed, fails]
    simp
  · rw [AuditProgress.standing, if_neg fun contained => failed (List.contains_iff_mem.mp contained)]
      at standing
    rw [mem_failed_visitAll catalogue context active member sites, not_and] at failed
    by_cases included : rule.id ∈ active
    · have succeeds : rule.failsOn context sites = false := by simpa using failed included
      simpa [included, succeeds] using standing
    · simpa [included] using standing

end Audit

end FormulaLint
