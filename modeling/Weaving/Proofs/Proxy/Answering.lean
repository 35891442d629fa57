import Weaving.Proofs.Invocation.Aborts
import Weaving.Proofs.Proxy.Edits
import Weaving.Script.Collaborators

/-! Configurations whose matchers answer. If the advisors of a configuration answer, then so do the chains that
are resolved for them, and so do the chains that are kept. No answering advisor that is added changes
that, and no lookup, if what resolves the chain gives it for the advisors and makes only such edits. -/
namespace Weaving

namespace Advised

/-- The advisors and the chains that are kept all answer. -/
structure Answers (d : Advised) : Prop where
  advisors : ∀ a ∈ d.advisors, a.Answers
  cache : ∀ x ∈ d.cache, x.2.Answers

/-- An edit of a configuration that answers leaves one that does. -/
abbrev KeepsAnswers {α : Type} (x : Edit α) : Prop :=
  Confined (fun e => e.advised.Answers) (fun _ => True) x

variable {d : Advised} {a : Advisor} {as : List Advisor}

theorem answers_setAdvisors (d : Advised) (has : ∀ a ∈ as, a.Answers) : (d.setAdvisors as).Answers :=
  ⟨has, by simp [Advised.setAdvisors, invalidate]⟩

theorem OnlyAsks.keepsAnswers {x : Edit Unit} (h : OnlyAsks x) {g : Advised → Advised}
    (hg : ∀ d, d.Answers → (g d).Answers) : KeepsAnswers (x >>= fun _ => modify g) := by
  refine fun e he => ⟨?_, fun _ _ => trivial⟩
  obtain h | h := h.modifies g e
  · rwa [h]
  · rw [h]
    exact hg _ he

theorem addAdvisor_keepsAnswers (ha : a.Answers) : KeepsAnswers (addAdvisor a) := by
  intro e he
  rw [addAdvisor_eq]
  split
  · exact ⟨he, fun _ _ => trivial⟩
  · refine (validate_onlyAsks a).keepsAnswers (fun d hd => ?_) e he
    refine answers_setAdvisors _ fun b hb => ?_
    obtain hb | hb := List.mem_append.mp hb
    · exact hd.advisors b hb
    · obtain rfl := List.mem_singleton.mp hb
      exact ha

theorem replaceAdvisors_keepsAnswers (has : ∀ a ∈ as, a.Answers) : KeepsAnswers (replaceAdvisors as) := by
  intro e he
  rw [replaceAdvisors_eq]
  split
  · exact ⟨he, fun _ _ => trivial⟩
  · exact (validateAll_onlyAsks as).keepsAnswers (fun _ _ => answers_setAdvisors _ has) e he

theorem Answers.cached (h : d.Answers) {k : ChainKey} {chain : Chain} (hk : d.cached? k = some chain) :
    chain.Answers := by
  obtain ⟨before, after, hcache, -⟩ := List.lookup_eq_some_iff.mp hk
  exact h.cache (k, chain) (by simp [hcache])

theorem Answers.publish (h : d.Answers) {r : Resolution} (hr : r.chain.Answers) (isStatic : Bool)
    (s : Snapshot) (k : ChainKey) :
    (d.publish isStatic s k r).1.Answers ∧ (d.publish isStatic s k r).2.Answers := by
  obtain ⟨chain, hk, hp⟩ | hp | ⟨-, -, hp⟩ := d.publish_cases isStatic s k r
  · rw [hp]
    exact ⟨h.cached hk, h⟩
  · rw [hp]
    exact ⟨hr, h⟩
  · rw [hp]
    refine ⟨hr, h.advisors, fun x hx => ?_⟩
    obtain rfl | hx := List.mem_cons.mp hx
    · exact hr
    · exact h.cache x hx

end Advised

/-- For a snapshot of advisors that answer, such a resolver gives a chain that does. Whatever it changes, it leaves
an answering configuration answering. -/
def Resolver.Answers (resolver : Resolver) : Prop :=
  ∀ s m c e, (∀ a ∈ s.advisors, a.Answers) → e.advised.Answers →
    (stateOf (resolver s m c e)).advised.Answers ∧
      ∀ r, outcomeOf (resolver s m c e) = .ok r → r.chain.Answers

namespace Resolver

variable {resolver : Resolver}

theorem answers_resolve : Resolver.Answers Advised.resolve := by
  intro s m c e hs he
  rw [Advised.resolve_eq]
  dsimp only
  cases hr : (Chain.resolve e.advised.adapters s.advisors m c).1 with
  | error f => exact ⟨he, nofun⟩
  | ok r =>
    refine ⟨he, ?_⟩
    rintro _ ⟨⟩
    exact Chain.answers_of_resolve hs hr

/-- A resolver may make an edit once it has resolved the chain. -/
theorem Answers.before (h : resolver.Answers) {x : Edit Unit} (hx : Advised.KeepsAnswers x) :
    Resolver.Answers fun s m c => do
      let r ← resolver s m c
      x
      return r := by
  intro s m c e hs he
  obtain ⟨hstate, hresolved⟩ := h s m c e hs he
  let after (r : Resolution) : Edit Resolution := x >>= fun _ => pure r
  change (stateOf ((resolver s m c >>= after) e)).advised.Answers ∧
    ∀ r, outcomeOf ((resolver s m c >>= after) e) = .ok r → r.chain.Answers
  cases hr : resolver s m c e with
  | error f e₁ =>
    rw [hr] at hstate
    rw [bind_of_error hr]
    exact ⟨hstate, nofun⟩
  | ok r e₁ =>
    rw [hr] at hstate hresolved
    rw [bind_of_ok hr]
    refine ⟨((hx.bind fun _ => .pure r) e₁ hstate).1, fun r' hr' => ?_⟩
    obtain ⟨_, _, -, hlast⟩ := exists_of_bind_ok (eq_ok_of_outcomeOf hr')
    cases hlast
    exact hresolved r rfl

/-- A meddler answers if the advisor does that it adds. -/
theorem answers_meddler (serial : Nat) {a : Advisor} (ha : a.Answers) :
    Resolver.Answers (Script.meddler serial a) := by
  refine answers_resolve.before (Confined.bind (.of_ok fun e he => ⟨e, e, rfl, he⟩) fun e => ?_)
  by_cases hfirst : e.asked serial = 0
  · rw [if_pos hfirst]
    exact Confined.bind (.of_ok fun e he => ⟨_, _, rfl, by exact he⟩) fun _ =>
      Advised.addAdvisor_keepsAnswers ha
  · rw [if_neg hfirst]
    exact .pure _

/-- A lookup by an answering resolver keeps the configuration answering, and gives a chain that answers. -/
theorem Answers.chainBy (h : resolver.Answers) (isStatic : Bool) (m : Method) (c : Option Class)
    {e : Editing} (he : e.advised.Answers) :
    (stateOf (Advised.chainBy resolver isStatic m c e)).advised.Answers ∧
      ∀ chain, outcomeOf (Advised.chainBy resolver isStatic m c e) = .ok chain → chain.Answers := by
  rw [Advised.chainBy_eq]
  cases hk : e.advised.cached? (Advised.keyFor m c) with
  | some chain =>
    refine ⟨he, ?_⟩
    rintro _ ⟨⟩
    exact he.cached hk
  | none =>
    obtain ⟨hstate, hresolved⟩ := h e.advised.snapshot m c e he.advisors he
    cases hr : resolver e.advised.snapshot m c e with
    | error f e' =>
      rw [hr] at hstate
      exact ⟨hstate, nofun⟩
    | ok r e' =>
      rw [hr] at hstate hresolved
      have hpublish :=
        hstate.publish (hresolved r rfl) isStatic e.advised.snapshot (Advised.keyFor m c)
      refine ⟨hpublish.2, ?_⟩
      rintro _ ⟨⟩
      exact hpublish.1

theorem Answers.chainBy_keepsAnswers (h : resolver.Answers) (isStatic : Bool) (m : Method)
    (c : Option Class) : Advised.KeepsAnswers (Advised.chainBy resolver isStatic m c) :=
  fun _ he => ⟨(h.chainBy isStatic m c he).1, fun _ _ => trivial⟩

end Resolver
end Weaving
