import Weaving.Proofs.Proxy.Atomicity
import Weaving.Proxy.Plan

/-! What proxies expose. However a configuration has come about, it lists each of its interfaces once, and
among them all that its advisors introduce. A plan adds interfaces behind these and drops none, so that every
method of an introduced interface can be called through the proxy. -/
namespace Weaving

/-- A list that has grown at its end, and not by what it had already. -/
structure Grown (is js : List String) : Prop where
  prefixed : is <+: js
  nodup : is.Nodup → js.Nodup

namespace Grown

variable {is js ks : List String}

theorem refl (is : List String) : Grown is is := ⟨List.prefix_rfl, id⟩

theorem trans (h : Grown is js) (h' : Grown js ks) : Grown is ks :=
  ⟨h.prefixed.trans h'.prefixed, fun hn => h'.nodup (h.nodup hn)⟩

theorem addOnce (is : List String) (i : String) : Grown is (addOnce is i) :=
  ⟨prefix_addOnce is i, nodup_addOnce⟩

theorem addAll (is js : List String) : Grown is (addAll is js) := ⟨prefix_addAll is js, nodup_addAll⟩

end Grown

namespace Advised

/-- Each interface is listed once, and so is all that advisors introduce. -/
structure Exposing (d : Advised) : Prop where
  nodup : d.interfaces.Nodup
  introduced : ∀ a ∈ d.advisors, ∀ i ∈ introduced a, i ∈ d.interfaces

variable {d : Advised}

theorem Exposing.addInterfaces (h : d.Exposing) (is : List String) : (d.addInterfaces is).Exposing :=
  ⟨nodup_addAll h.nodup, fun a ha i hi => mem_addAll.mpr (.inl (h.introduced a ha i hi))⟩

theorem Exposing.add (h : d.Exposing) (a : Advisor) :
    ((d.addInterfaces (Advised.introduced a)).setAdvisors (d.advisors ++ [a])).Exposing := by
  refine ⟨nodup_addAll h.nodup, fun b hb i hi => mem_addAll.mpr ?_⟩
  obtain hb | hb := List.mem_append.mp hb
  · exact .inl (h.introduced b hb i hi)
  · obtain rfl := List.mem_singleton.mp hb
    exact .inr hi

theorem Exposing.remove (h : d.Exposing) (n : Nat) : (d.setAdvisors (d.advisors.eraseIdx n)).Exposing :=
  ⟨h.nodup, fun a ha => h.introduced a (List.mem_of_mem_eraseIdx ha)⟩

theorem Exposing.replace (h : d.Exposing) (as : List Advisor) :
    ((d.addInterfaces (as.flatMap Advised.introduced)).setAdvisors as).Exposing :=
  ⟨nodup_addAll h.nodup, fun a ha _ hi => mem_addAll.mpr (.inr (List.mem_flatMap.mpr ⟨a, ha, hi⟩))⟩

theorem Exposing.addAdvisor {e : Editing} (h : e.advised.Exposing) (a : Advisor) :
    (stateOf (addAdvisor a e)).advised.Exposing := by
  rw [addAdvisor_eq]
  split
  · exact h
  · obtain he | he := (validate_onlyAsks a).modifies _ e
    · rwa [he]
    · rw [he]
      exact h.add a

theorem Exposing.replaceAdvisors {e : Editing} (h : e.advised.Exposing) (as : List Advisor) :
    (stateOf (replaceAdvisors as e)).advised.Exposing := by
  rw [replaceAdvisors_eq]
  split
  · exact h
  · obtain he | he := (validateAll_onlyAsks as).modifies _ e
    · rwa [he]
    · rw [he]
      exact h.replace as

theorem Exposing.removeAdvisor {e : Editing} (h : e.advised.Exposing) (n : Nat) :
    (stateOf (removeAdvisor n e)).advised.Exposing := by
  rw [removeAdvisor_eq]
  split
  · exact h
  · cases e.advised.advisors[n]? with
    | none => exact h
    | some a => exact h.remove n

theorem Exposing.operate {e : Editing} (h : e.advised.Exposing) (op : Operation) :
    (stateOf (op.edit e)).advised.Exposing := by
  cases op with
  | add a => exact h.addAdvisor a
  | advise raw =>
    rw [Operation.edit, addAdvice_eq]
    cases raw.toAdvisor e.advised.adapters with
    | ok a => exact h.addAdvisor a
    | error f => exact h
  | remove n =>
    have hremove := h.removeAdvisor n
    rw [Operation.edit_remove]
    cases hr : Advised.removeAdvisor n e <;> rwa [hr] at hremove
  | replace as => exact h.replaceAdvisors as

end Advised

/-- A step by which a configuration is set up or changed. -/
inductive Setup
  | expose (interface : String)
  | freeze (frozen : Bool)
  | operate (op : Operation)

namespace Setup

def edit : Setup → Edit Unit
  | expose i => Advised.modify fun d => d.addInterfaces [i]
  | freeze frozen => Advised.modify fun d => d.freeze frozen
  | operate op => op.edit

/-- Attempts steps one after another, whether they fail or not. -/
def attempt (e : Editing) (steps : List Setup) : Editing := steps.foldl (fun e s => stateOf (s.edit e)) e

/-- What steps make of a configuration that has no interfaces and no advisors. -/
def result (config : ProxySettings) (adapters : Adapters) (asked : Asked) (steps : List Setup) : Advised :=
  (attempt ⟨{ config, adapters }, asked, []⟩ steps).advised

theorem edit_exposing (s : Setup) {e : Editing} (h : e.advised.Exposing) :
    (stateOf (s.edit e)).advised.Exposing := by
  cases s with
  | expose i => exact h.addInterfaces [i]
  | freeze frozen => exact ⟨h.nodup, h.introduced⟩
  | operate op => exact h.operate op

theorem attempt_exposing (steps : List Setup) {e : Editing} (h : e.advised.Exposing) :
    (attempt e steps).advised.Exposing := by
  induction steps generalizing e with
  | nil => exact h
  | cons s steps ih => exact ih (s.edit_exposing h)

theorem result_exposing (config : ProxySettings) (adapters : Adapters) (asked : Asked)
    (steps : List Setup) : (result config adapters asked steps).Exposing :=
  attempt_exposing steps ⟨List.nodup_nil, fun _ ha => nomatch ha⟩

end Setup

namespace Plan

variable {c : Class} {is : List String} {p plan : Plan}

/-- A class is extended itself, unless it is an interface or a proxy, whose interfaces are taken. -/
theorem extending_cases (h : extending c is = .ok p) :
    p = ⟨none, addOnce is c.name⟩ ∨ p = ⟨none, addAll is c.allInterfaces⟩ ∨ p = ⟨some c, is⟩ := by
  unfold extending at h
  split at h
  · cases h
    exact .inl rfl
  · split at h
    · cases h
      exact .inr (.inl rfl)
    · split at h
      · contradiction
      · cases h
        exact .inr (.inr rfl)

theorem grown_extending (h : extending c is = .ok p) : Grown is p.interfaces := by
  obtain rfl | rfl | rfl := extending_cases h
  · exact Grown.addOnce is c.name
  · exact Grown.addAll is c.allInterfaces
  · exact Grown.refl is

/-- Completing a plan fails if it has neither a superclass nor an interface, and else only adds the interface
that shows the configuration. -/
theorem complete_eq_ok {config : ProxySettings} : complete config p = .ok plan ↔
    (p.superclass ≠ none ∨ p.interfaces ≠ []) ∧
      plan = { p with interfaces :=
        if config.concealed then p.interfaces else addOnce p.interfaces advisedInterface } := by
  unfold complete
  split
  next h =>
    have hnone : p.superclass = none ∧ p.interfaces = [] := by simpa using h
    simp [hnone]
  next h =>
    have hsome : p.superclass ≠ none ∨ p.interfaces ≠ [] := by
      simpa [Classical.or_iff_not_imp_left] using h
    rw [Except.ok.injEq, and_iff_right hsome]
    exact eq_comm

theorem grown_complete {config : ProxySettings} (h : complete config p = .ok plan) :
    Grown p.interfaces plan.interfaces := by
  obtain ⟨-, rfl⟩ := complete_eq_ok.mp h
  dsimp only
  split
  · exact Grown.refl _
  · exact Grown.addOnce _ _

/-- A plan is completed from one that extends the class, or from one that has just the interfaces of the
configuration, where these have passed the check if the class is known. -/
theorem choose_cases {d : Advised} {c : Option Class} (h : choose d c = .ok plan) :
    ∃ p, complete d.config p = .ok plan ∧
      ((d.config.optimize = true ∨ d.config.proxyTargetClass = true ∨ d.interfaces = []) ∧
          (∃ x, c = some x ∧ extending x d.interfaces = .ok p) ∨
        p = ⟨none, d.interfaces⟩ ∧ ∀ x, c = some x → checkBacked x d.advisors d.interfaces = .ok ()) := by
  unfold choose at h
  split at h
  next hasked =>
    cases c with
    | none => contradiction
    | some x =>
      dsimp only at h
      cases hx : extending x d.interfaces with
      | error f =>
        rw [hx] at h
        contradiction
      | ok p =>
        rw [hx] at h
        exact ⟨p, h, .inl ⟨by simpa [or_assoc] using hasked, x, rfl, hx⟩⟩
  next =>
    cases c with
    | none => exact ⟨_, h, .inr ⟨rfl, fun _ hx => nomatch hx⟩⟩
    | some x =>
      dsimp only at h
      cases hx : checkBacked x d.advisors d.interfaces with
      | error f =>
        rw [hx] at h
        contradiction
      | ok u =>
        rw [hx] at h
        exact ⟨_, h, .inr ⟨rfl, fun y hy => Option.some.inj hy ▸ hx⟩⟩

theorem grown_choose {d : Advised} {c : Option Class} (h : choose d c = .ok plan) :
    Grown d.interfaces plan.interfaces := by
  obtain ⟨p, hcomplete, ⟨-, x, rfl, hx⟩ | ⟨rfl, -⟩⟩ := choose_cases h
  · exact (grown_extending hx).trans (grown_complete hcomplete)
  · exact grown_complete hcomplete

/-- Introduced interfaces are always exposed. Whatever has been done to a configuration, and whether it failed
or not, no interface is listed twice, and every interface that one of the advisors introduces is listed. Any
plan for the configuration has these interfaces in front, lists none twice, and exposes every method of an
introduced interface. -/
theorem introduced_exposed (config : ProxySettings) (adapters : Adapters) (asked : Asked)
    (steps : List Setup) :
    (Setup.result config adapters asked steps).interfaces.Nodup ∧
      (∀ a ∈ (Setup.result config adapters asked steps).advisors, ∀ i ∈ Advised.introduced a,
        i ∈ (Setup.result config adapters asked steps).interfaces) ∧
      ∀ (c : Option Class) (plan : Plan), choose (Setup.result config adapters asked steps) c = .ok plan →
        plan.interfaces.Nodup ∧
        (Setup.result config adapters asked steps).interfaces <+: plan.interfaces ∧
        ∀ a ∈ (Setup.result config adapters asked steps).advisors, ∀ m : Method,
          m.declaring ∈ Advised.introduced a → plan.exposes m = true := by
  have hd := Setup.result_exposing config adapters asked steps
  refine ⟨hd.nodup, hd.introduced, fun c plan hplan => ?_⟩
  have hgrown := grown_choose hplan
  refine ⟨hgrown.nodup hd.nodup, hgrown.prefixed, fun a ha m hm => ?_⟩
  have hlisted := hgrown.prefixed.subset (hd.introduced a ha _ hm)
  simp [exposes, hlisted]

/-- An introduction of auditing, by an interceptor that implements every interface. -/
def auditing : Advisor where
  role := .introduction
    { interfaces := ["Audited", "Store"]
      interceptor := ⟨0, ⟨"auditing", Program.proceed⟩, fun _ _ => true⟩ }

def storeClass : Class := ⟨{ name := "MemoryStore", interfaces := ["Store"] }, []⟩

/-- An introduction is added and cannot be removed once the configuration is frozen. -/
def storeSteps : List Setup :=
  [.expose "Store", .operate (.add auditing), .operate (.remove 3), .freeze true, .operate (.remove 0)]

def storePlan : Plan := ⟨none, ["Store", "Audited", advisedInterface]⟩

theorem store_exposed :
    choose (Setup.result {} .builtIn (fun _ => 0) storeSteps) (some storeClass) = .ok storePlan ∧
      (Setup.result {} .builtIn (fun _ => 0) storeSteps).interfaces <+: storePlan.interfaces ∧
      storePlan.exposes ⟨"Audited", "trail", []⟩ = true := by
  have hplan : choose (Setup.result {} .builtIn (fun _ => 0) storeSteps) (some storeClass) =
      .ok storePlan := rfl
  obtain ⟨-, -, h⟩ := introduced_exposed {} .builtIn (fun _ => 0) storeSteps
  obtain ⟨-, hprefix, hexposes⟩ := h (some storeClass) storePlan hplan
  exact ⟨hplan, hprefix, hexposes auditing (by exact List.mem_singleton.mpr rfl) _ (by decide)⟩

end Plan
end Weaving
