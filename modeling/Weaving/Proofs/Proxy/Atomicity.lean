import Weaving.Proofs.Proxy.Edits

/-! Operations on a configuration are atomic. One that fails has changed nothing but the count of questions,
wherever it failed, and a frozen configuration refuses every one. -/
namespace Weaving

namespace Advised

/-- Where it fails, an edit has changed nothing but the count of questions. -/
def Atomic {α : Type} (x : Edit α) : Prop :=
  ∀ e f e', x e = .error f e' → ∃ asked, e' = { e with asked }

theorem OnlyAsks.atomic {x : Edit Unit} (h : OnlyAsks x) (g : Advised → Advised) :
    Atomic (x >>= fun _ => modify g) := by
  intro e f e' he
  obtain ⟨asked, hx⟩ := h e
  change EStateM.bind x _ e = _ at he
  unfold EStateM.bind at he
  cases hr : x e with
  | ok u e₁ =>
    rw [hr] at he
    cases he
  | error f₁ e₁ =>
    rw [hr] at he hx
    cases he
    exact ⟨asked, hx⟩

/-- An edit that a frozen configuration refuses is atomic if it is so otherwise. -/
theorem Atomic.guarded {α : Type} {x y : Edit α} {fault : Fault} (h : Atomic y)
    (hx : ∀ e, x e = if e.advised.config.frozen then .error fault e else y e) : Atomic x := by
  intro e f e' he
  rw [hx] at he
  split at he
  · cases he
    exact ⟨e.asked, rfl⟩
  · exact h e f e' he

theorem addAdvisor_atomic (a : Advisor) : Atomic (addAdvisor a) :=
  ((validate_onlyAsks a).atomic _).guarded (addAdvisor_eq a)

theorem replaceAdvisors_atomic (as : List Advisor) : Atomic (replaceAdvisors as) :=
  ((validateAll_onlyAsks as).atomic _).guarded (replaceAdvisors_eq as)

theorem removeAdvisor_atomic (n : Nat) : Atomic (removeAdvisor n) := by
  refine Atomic.guarded (fun e f e' he => ?_) (removeAdvisor_eq n)
  cases hn : e.advised.advisors[n]? with
  | some a =>
    rw [hn] at he
    cases he
  | none =>
    rw [hn] at he
    cases he
    exact ⟨e.asked, rfl⟩

/-- Adding advice fails if no adapter supports it, and is else adding the advisor made of it. -/
theorem addAdvice_eq (raw : Advisable) (e : Editing) :
    addAdvice raw e = match raw.toAdvisor e.advised.adapters with
      | .ok a => addAdvisor a e
      | .error f => .error f e := by
  unfold addAdvice
  rw [get_bind]
  cases raw.toAdvisor e.advised.adapters <;> rfl

theorem addAdvice_atomic (raw : Advisable) : Atomic (addAdvice raw) := by
  intro e f e' he
  rw [addAdvice_eq] at he
  cases ha : raw.toAdvisor e.advised.adapters with
  | ok a =>
    rw [ha] at he
    exact addAdvisor_atomic a e f e' he
  | error g =>
    rw [ha] at he
    cases he
    exact ⟨e.asked, rfl⟩

end Advised

/-- An operation on the advisors of a configuration. -/
inductive Operation
  | add (a : Advisor)
  | advise (raw : Advisable)
  | remove (n : Nat)
  | replace (as : List Advisor)

namespace Operation

open Advised

def edit : Operation → Edit Unit
  | add a => addAdvisor a
  | advise raw => addAdvice raw
  | remove n => do let _ ← removeAdvisor n
  | replace as => replaceAdvisors as

/-- Attempts operations one after another, whether they fail or not. -/
def attempt (e : Editing) (ops : List Operation) : Editing := ops.foldl (fun e op => stateOf (op.edit e)) e

theorem edit_remove (n : Nat) (e : Editing) :
    (remove n).edit e = match removeAdvisor n e with
      | .ok _ e' => .ok () e'
      | .error f e' => .error f e' := by
  change EStateM.bind (removeAdvisor n) _ e = _
  unfold EStateM.bind
  cases removeAdvisor n e <;> rfl

theorem edit_atomic (op : Operation) : Atomic op.edit := by
  cases op with
  | add a => exact addAdvisor_atomic a
  | advise raw => exact addAdvice_atomic raw
  | remove n =>
    intro e f e' he
    rw [edit_remove] at he
    cases hr : removeAdvisor n e with
    | ok a e₁ =>
      rw [hr] at he
      cases he
    | error g e₁ =>
      rw [hr] at he
      cases he
      exact removeAdvisor_atomic n e f e' hr
  | replace as => exact replaceAdvisors_atomic as

/-- A frozen configuration refuses every operation, and nothing at all is asked or changed. -/
theorem edit_frozen (op : Operation) {e : Editing} (h : e.advised.config.frozen = true) :
    ∃ f, op.edit e = .error f e := by
  cases op with
  | add a => exact ⟨_, by rw [edit, addAdvisor_eq, if_pos h]⟩
  | advise raw =>
    rw [edit, addAdvice_eq]
    cases raw.toAdvisor e.advised.adapters with
    | ok a => exact ⟨_, by simp only [addAdvisor_eq, if_pos h]; rfl⟩
    | error f => exact ⟨f, rfl⟩
  | remove n => exact ⟨_, by simp only [edit_remove, removeAdvisor_eq, if_pos h]; rfl⟩
  | replace as => exact ⟨_, by rw [edit, replaceAdvisors_eq, if_pos h]⟩

theorem attempt_frozen (ops : List Operation) {e : Editing} (h : e.advised.config.frozen = true) :
    attempt e ops = e := by
  induction ops with
  | nil => rfl
  | cons op ops ih =>
    obtain ⟨f, hf⟩ := op.edit_frozen h
    change attempt (stateOf (op.edit e)) ops = e
    rw [hf]
    exact ih

end Operation
end Weaving
