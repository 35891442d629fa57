import Mathlib.Data.List.Perm.Subperm
import Weaving.Proofs.Precedence.Sorting
import Weaving.Proofs.Resolution
import Weaving.Proofs.World.Wrapping

/-! Eligibility loses nothing. An advisor that takes part in the chain of some method of a class is eligible
for the class, where both sides know alike whether the class has introductions; so the chain of a method
can be resolved from the eligible advisors, sorted or not, as well as from all. -/
namespace Weaving

namespace Advisor

variable {as bs : List Advisor} {a : Advisor} {c : Class} {m : Method}

theorem concerns_of_isIntroduction (h : a.isIntroduction = true) (introductions : Bool) :
    a.concerns c introductions = a.concerns c false := by
  unfold isIntroduction introduction? at h
  cases hr : a.role with
  | introduction i => simp [concerns, hr]
  | pointcut p advice => simp [hr] at h

/-- An introduction is one that concerns the class just if its filter accepts it. -/
theorem isIntroduction_and_concerns (a : Advisor) (c : Class) (introductions : Bool) :
    (a.isIntroduction && a.concerns c introductions) =
      a.introduction?.any fun i => i.classFilter.accepts c := by
  cases hr : a.role <;> simp [isIntroduction, introduction?, concerns, hr]

/-- Both sides know alike whether there are introductions. -/
theorem introductions_nonempty (as : List Advisor) (c : Class) :
    (!(as.filter fun a => a.isIntroduction && a.concerns c false).isEmpty) = introduces as c := by
  simp only [introduces, ← isIntroduction_and_concerns _ c false]
  rw [Bool.eq_iff_iff]
  simp [List.filter_eq_nil_iff]

/-- The eligible advisors are those that concern the class, with the introductions in front. -/
theorem perm_eligible (as : List Advisor) (c : Class) :
    (eligible as c).Perm (as.filter fun a => a.concerns c (introduces as c)) := by
  let concerned := as.filter fun a => a.concerns c (introduces as c)
  have hintroductions : (as.filter fun a => a.isIntroduction && a.concerns c false) =
      concerned.filter isIntroduction := by
    rw [List.filter_filter]
    refine List.filter_congr fun a _ => ?_
    cases h : a.isIntroduction with
    | true => simp [concerns_of_isIntroduction h]
    | false => rfl
  have hothers : (as.filter fun a => !a.isIntroduction && a.concerns c (introduces as c)) =
      concerned.filter fun a => !a.isIntroduction :=
    (List.filter_filter ..).symm
  unfold eligible
  simp only [introductions_nonempty]
  rw [hintroductions, hothers]
  exact List.filter_append_perm _ _

theorem introduces_perm (h : as.Perm bs) (c : Class) : introduces as c = introduces bs c :=
  h.any_eq

theorem introduces_concerned (as : List Advisor) (c : Class) (introductions : Bool) :
    introduces (as.filter fun a => a.concerns c introductions) c = introduces as c := by
  simp only [introduces, ← isIntroduction_and_concerns _ c introductions, List.any_filter]
  refine List.any_congr rfl fun a => ?_
  cases a.isIntroduction <;> simp

theorem introduces_eligible (as : List Advisor) (c : Class) :
    introduces (eligible as c) c = introduces as c := by
  rw [introduces_perm (perm_eligible as c), introduces_concerned]

end Advisor

namespace Chain

variable {as bs : List Advisor} {c : Class} {m : Method}

/-- An advisor that takes part in the chain of a method of the class concerns the class. -/
theorem concerns_of_match? {a : Advisor} {introductions : Bool} (hm : m ∈ c.allMethods)
    (h : (match? m c introductions a).isSome = true) : a.concerns c introductions = true := by
  unfold match? at h
  unfold Advisor.concerns
  cases hr : a.role with
  | introduction i =>
    simp only [hr] at h ⊢
    split at h
    next hi => exact (Bool.and_eq_true_iff.mp hi).2
    next => contradiction
  | pointcut p advice =>
    simp only [hr] at h ⊢
    split at h
    next hp =>
      obtain ⟨hfilter, hmatcher⟩ := Bool.and_eq_true_iff.mp hp
      exact Bool.and_eq_true_iff.mpr ⟨hfilter, List.any_eq_true.mpr ⟨m, hm, hmatcher⟩⟩
    next => contradiction

theorem matched_perm (h : as.Perm bs) (m : Method) (c : Class) :
    (matched as m c).Perm (matched bs m c) := by
  unfold matched
  rw [Advisor.introduces_perm h]
  exact h.filterMap _

/-- Nothing that does not concern the class takes part. -/
theorem filterMap_concerns (hm : m ∈ c.allMethods) (as : List Advisor) (introductions : Bool) :
    (as.filter fun a => a.concerns c introductions).filterMap (match? m c introductions) =
      as.filterMap (match? m c introductions) := by
  rw [List.filterMap_filter]
  refine List.filterMap_congr fun a _ => ?_
  split
  next => rfl
  next h =>
    cases hmatch : match? m c introductions a with
    | none => rfl
    | some x => exact absurd (concerns_of_match? hm (by rw [hmatch]; rfl)) h

theorem matched_eligible (hm : m ∈ c.allMethods) (as : List Advisor) :
    (matched (Advisor.eligible as c) m c).Perm (matched as m c) := by
  unfold matched
  rw [Advisor.introduces_eligible, ← filterMap_concerns hm as]
  exact (Advisor.perm_eligible as c).filterMap _

/-- A method in whose chain no advisor takes part has an empty chain. -/
theorem resolve_of_matched_nil (h : matched as m c = []) (adapters : Adapters) :
    resolve adapters as m (some c) = (.ok ⟨[], true⟩, []) := by
  have hclass : classOf m (some c) = c := rfl
  simp only [resolve, hclass, h]

end Chain

namespace Creator

/-- A creator that is enabled leaves a bean alone only if no advisor is eligible, unless the bean is a
proxy. -/
theorem eligible_of_wrap_raw {c : Creator} {bean t : Target} {name : String} {beanClass : Class}
    {s s' : Scene} (enabled : c.enabled = true) (unwrapped : beanClass.isProxy = false)
    (h : c.wrap bean name beanClass s = .ok (.ok (.raw t)) s') :
    Advisor.eligible (s.world.candidates c.feed name) beanClass = [] := by
  unfold wrap at h
  simp only [enabled, unwrapped, Bool.not_true, Bool.or_self, Bool.false_eq_true, if_false,
    Deed.world_bind, Deed.journal_bind] at h
  split at h
  next hempty =>
    have hperm : (s.world.eligible c.feed name beanClass).items.Perm _ :=
      Sorting.perm_topologicalSort Advisor.precedence _
    rw [List.isEmpty_iff.mp hempty] at hperm
    exact hperm.nil_eq.symm
  next =>
    rw [makeProxy_eq] at h
    obtain ⟨r, u, -, h⟩ := exists_of_bind_ok h
    cases r with
    | error f => cases h
    | ok plan =>
      unfold present at h
      cases hg : c.generate plan with
      | error f =>
        simp only [hg] at h
        cases h
      | ok generated =>
        simp only [hg] at h
        cases generated <;> cases h

end Creator

namespace Advisor

variable {c : Class} {m : Method}

/-- Eligibility loses nothing. For a method of the class, the advisors that take part in its chain are the
same, each as often, out of all advisors, out of the eligible ones and out of these sorted; no advisor is
eligible more often than it was given. A bean that is left alone because no advisor is eligible has
empty chains. -/
theorem eligible_loses_nothing (hm : m ∈ c.allMethods) (as : List Advisor) :
    (Chain.matched (eligible as c) m c).Perm (Chain.matched as m c) ∧
    (Chain.matched (sort (eligible as c)).items m c).Perm (Chain.matched as m c) ∧
    (eligible as c).Subperm as ∧ (sort (eligible as c)).items.Subperm as ∧
    ∀ (creator : Creator) (bean t : Target) (name : String) (s s' : Scene),
      creator.enabled = true → c.isProxy = false → s.world.candidates creator.feed name = as →
      creator.wrap bean name c s = .ok (.ok (.raw t)) s' →
      ∀ adapters, Chain.resolve adapters as m (some c) = (.ok ⟨[], true⟩, []) := by
  have heligible : (Chain.matched (eligible as c) m c).Perm (Chain.matched as m c) :=
    Chain.matched_eligible hm as
  have hsort : (sort (eligible as c)).items.Perm (eligible as c) :=
    Sorting.perm_topologicalSort precedence _
  have hsub : (eligible as c).Subperm as :=
    (perm_eligible as c).subperm.trans List.filter_sublist.subperm
  refine ⟨heligible, (Chain.matched_perm hsort m c).trans heligible, hsub, hsort.subperm.trans hsub, ?_⟩
  intro creator bean t name s s' enabled unwrapped hcandidates hwrap adapters
  have hnone : eligible as c = [] := by
    rw [← hcandidates]
    exact Creator.eligible_of_wrap_raw enabled unwrapped hwrap
  rw [hnone] at heligible
  exact Chain.resolve_of_matched_nil heligible.nil_eq.symm adapters

/-- A class with one method of its own. -/
def vaultClass : Class := ⟨⟨"Vault", [], [⟨"Vault", "open", []⟩], false, false, false⟩, []⟩

def idle : Advice := .around ⟨"idle", Program.proceed⟩

/-- Advice for what has introductions, advice for another method, and an introduction. -/
def lockers : List Advisor :=
  [⟨.pointcut ⟨.any, .whenIntroduced (.names ["open"])⟩ idle, none, none⟩,
    ⟨.pointcut ⟨.any, .names ["close"]⟩ idle, none, none⟩,
    ⟨.introduction ⟨.any, ["Lockable"], ⟨0, ⟨"lock", Program.proceed⟩, fun _ _ => true⟩⟩, none, none⟩]

/-- A creator whose only advice is for a method that the class does not have. -/
def strangers : Creator := { feed := .fixed [⟨.pointcut ⟨.any, .names ["close"]⟩ idle, none, none⟩] }

theorem vault_loses_nothing :
    (⟨"Vault", "open", []⟩ : Method) ∈ vaultClass.allMethods ∧
      (Chain.matched (sort (eligible lockers vaultClass)).items ⟨"Vault", "open", []⟩ vaultClass).Perm
        (Chain.matched lockers ⟨"Vault", "open", []⟩ vaultClass) ∧
      strangers.wrap (.bean ⟨0, "vault"⟩) "vault" vaultClass {world := {}} =
        .ok (.ok (.raw (.bean ⟨0, "vault"⟩))) {world := {}} ∧
      Chain.resolve .builtIn (World.candidates {} strangers.feed "vault") ⟨"Vault", "open", []⟩
        (some vaultClass) = (.ok ⟨[], true⟩, []) := by
  have hm : (⟨"Vault", "open", []⟩ : Method) ∈ vaultClass.allMethods := by decide
  have hnone : World.eligible {} strangers.feed "vault" vaultClass = ⟨[], 0⟩ := by
    have heligible : eligible (World.candidates {} strangers.feed "vault") vaultClass = [] := rfl
    simp [World.eligible, heligible, sort, topologicalSort, placeFirst_nil]
  have hwrap : strangers.wrap (.bean ⟨0, "vault"⟩) "vault" vaultClass {world := {}} =
      .ok (.ok (.raw (.bean ⟨0, "vault"⟩))) {world := {}} := by
    have hproxied : (!strangers.enabled || vaultClass.isProxy) = false := rfl
    unfold Creator.wrap
    simp only [hproxied, Bool.false_eq_true, if_false, Deed.world_bind, Deed.journal_bind, hnone]
    rfl
  exact ⟨hm, (eligible_loses_nothing hm lockers).2.1, hwrap,
    (eligible_loses_nothing hm _).2.2.2.2 _ _ _ _ _ _ rfl rfl rfl hwrap _⟩

end Advisor
end Weaving
