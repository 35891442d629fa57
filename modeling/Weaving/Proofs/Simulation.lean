import Weaving.Routine

/-! Simulation between two stateful computations. They run side by side from related states, end in the
same way with the same value, and leave related states; an abort has a relation of its own, since it
may leave a computation half done. -/
namespace Weaving

variable {ε σ τ α β : Type}

theorem bind_of_ok {x : EStateM ε σ α} {f : α → EStateM ε σ β} {s t : σ} {a : α}
    (h : x s = .ok a t) : (x >>= f) s = f a t := by
  change EStateM.bind x f s = f a t
  unfold EStateM.bind
  rw [h]

theorem bind_of_error {x : EStateM ε σ α} {f : α → EStateM ε σ β} {s t : σ} {e : ε}
    (h : x s = .error e t) : (x >>= f) s = .error e t := by
  change EStateM.bind x f s = .error e t
  unfold EStateM.bind
  rw [h]

theorem exists_of_bind_ok {x : EStateM ε σ α} {f : α → EStateM ε σ β} {s t : σ} {b : β}
    (h : (x >>= f) s = .ok b t) : ∃ a u, x s = .ok a u ∧ f a u = .ok b t := by
  change EStateM.bind x f s = .ok b t at h
  unfold EStateM.bind at h
  cases hx : x s with
  | ok a u => exact ⟨a, u, rfl, by rwa [hx] at h⟩
  | error e u =>
    rw [hx] at h
    contradiction

/-- Two results with the same value in related states, or with the same abort. -/
inductive Paired (post aborted : σ → τ → Prop) :
    EStateM.Result ε σ α → EStateM.Result ε τ α → Prop
  | ok {a s t} (related : post s t) : Paired post aborted (.ok a s) (.ok a t)
  | error {e s t} (related : aborted s t) : Paired post aborted (.error e s) (.error e t)

theorem Paired.mono {post aborted post' aborted' : σ → τ → Prop} {r : EStateM.Result ε σ α}
    {r' : EStateM.Result ε τ α} (h : Paired post aborted r r')
    (hpost : ∀ s t, post s t → post' s t) (haborted : ∀ s t, aborted s t → aborted' s t) :
    Paired post' aborted' r r' := by
  cases h with
  | ok hq => exact .ok (hpost _ _ hq)
  | error he => exact .error (haborted _ _ he)

/-- From states related by `pre`, both computations end alike in states related by `post`. -/
def Simulates (pre post aborted : σ → τ → Prop) (x : EStateM ε σ α) (y : EStateM ε τ α) : Prop :=
  ∀ s t, pre s t → Paired post aborted (x s) (y t)

namespace Simulates

variable {pre mid post aborted : σ → τ → Prop} {x : EStateM ε σ α} {y : EStateM ε τ α}
  {f : α → EStateM ε σ β} {g : α → EStateM ε τ β}

theorem pure (a : α) (h : ∀ s t, pre s t → post s t) :
    Simulates pre post aborted (Pure.pure a : EStateM ε σ α) (Pure.pure a : EStateM ε τ α) :=
  fun s t hs => .ok (h s t hs)

theorem throw (e : ε) (h : ∀ s t, pre s t → aborted s t) :
    Simulates pre post aborted (MonadExcept.throw e : EStateM ε σ α)
      (MonadExcept.throw e : EStateM ε τ α) :=
  fun s t hs => .error (h s t hs)

/-- Simulations compose along the steps of two computations. -/
theorem bind (hx : Simulates pre mid aborted x y) (hf : ∀ a, Simulates mid post aborted (f a) (g a)) :
    Simulates pre post aborted (x >>= f) (y >>= g) := by
  intro s t hs
  have h := hx s t hs
  change Paired post aborted (EStateM.bind x f s) (EStateM.bind y g t)
  unfold EStateM.bind
  generalize x s = rx at h
  generalize y t = ry at h
  cases h with
  | ok hm => exact hf _ _ _ hm
  | error he => exact .error he

/-- A step that only one side takes before. -/
theorem before {u : EStateM ε σ PUnit} {k : PUnit → EStateM ε σ α}
    (hu : Simulates pre mid aborted u (Pure.pure PUnit.unit))
    (h : Simulates mid post aborted (k PUnit.unit) y) : Simulates pre post aborted (u >>= k) y := by
  have hy : y = (Pure.pure PUnit.unit >>= fun _ => y) := by simp
  rw [hy]
  exact hu.bind fun _ => h

/-- A step that only one side takes after. -/
theorem after {u : EStateM ε σ PUnit} (h : Simulates pre mid aborted x y)
    (hu : Simulates mid post aborted u (Pure.pure PUnit.unit)) :
    Simulates pre post aborted (x >>= fun a => u >>= fun _ => Pure.pure a) y := by
  have hy : y = (y >>= Pure.pure) := by simp
  rw [hy]
  exact h.bind fun a => hu.before (Simulates.pure a fun _ _ hs => hs)

end Simulates

/-- A routine is simulated by itself if the meanings of its operations simulate each other. -/
theorem Simulates.run {Op : Type} {Reply : Op → Type} {related aborted : σ → τ → Prop}
    {f : (op : Op) → EStateM ε σ (Reply op)} {g : (op : Op) → EStateM ε τ (Reply op)}
    (h : ∀ op, Simulates related related aborted (f op) (g op)) (p : Routine Op Reply α) :
    Simulates related related aborted (p.run f) (p.run g) := by
  induction p with
  | done a => exact Simulates.pure a fun _ _ hs => hs
  | step op next ih => exact (h op).bind ih

/-- The state in which a computation ends, however it ends. -/
def stateOf : EStateM.Result ε σ α → σ
  | .ok _ s => s
  | .error _ s => s

/-- What a computation ends with. -/
def outcomeOf : EStateM.Result ε σ α → Except ε α
  | .ok a _ => .ok a
  | .error e _ => .error e

theorem eq_ok_of_outcomeOf {r : EStateM.Result ε σ α} {a : α} (h : outcomeOf r = .ok a) :
    r = .ok a (stateOf r) := by
  cases r with
  | ok b s =>
    cases h
    rfl
  | error e s => contradiction

theorem exists_of_isOk {r : EStateM.Result ε σ α} (h : (outcomeOf r).isOk = true) :
    ∃ a, r = .ok a (stateOf r) := by
  cases r with
  | ok a s => exact ⟨a, rfl⟩
  | error e s => contradiction

/-- One state on both sides, which has a property. -/
def Shared (P : σ → Prop) (s t : σ) : Prop := s = t ∧ P s

/-- From states with a property, both computations do the same and keep the property. -/
def Coincide (P : σ → Prop) (x y : EStateM ε σ α) : Prop :=
  Simulates (Shared P) (Shared P) (Shared P) x y

namespace Coincide

variable {P : σ → Prop} {x y : EStateM ε σ α} {f g : α → EStateM ε σ β}

theorem of_eq (h : ∀ s, P s → x s = y s ∧ P (stateOf (x s))) : Coincide P x y := by
  rintro s _ ⟨rfl, hs⟩
  obtain ⟨hxy, hx⟩ := h s hs
  rw [← hxy]
  cases hr : x s with
  | ok a s' =>
    rw [hr] at hx
    exact .ok ⟨rfl, hx⟩
  | error e s' =>
    rw [hr] at hx
    exact .error ⟨rfl, hx⟩

theorem eq (h : Coincide P x y) {s : σ} (hs : P s) : x s = y s := by
  have hxy := h s s ⟨rfl, hs⟩
  generalize x s = r, y s = r' at hxy
  cases hxy with
  | ok hs => rw [hs.1]
  | error hs => rw [hs.1]

theorem keeps (h : Coincide P x y) {s : σ} (hs : P s) : P (stateOf (x s)) := by
  have hxy := h s s ⟨rfl, hs⟩
  generalize x s = r, y s = r' at hxy
  cases hxy with
  | ok hs => exact hs.2
  | error hs => exact hs.2

/-- A computation that keeps the property coincides with itself. -/
theorem refl (h : ∀ s, P s → P (stateOf (x s))) : Coincide P x x :=
  of_eq fun s hs => ⟨rfl, h s hs⟩

theorem pure (a : α) : Coincide P (Pure.pure a : EStateM ε σ α) (Pure.pure a) :=
  refl fun _ hs => hs

theorem throw (e : ε) :
    Coincide P (MonadExcept.throw e : EStateM ε σ α) (MonadExcept.throw e) :=
  refl fun _ hs => hs

theorem bind (hx : Coincide P x y) (hf : ∀ a, Coincide P (f a) (g a)) :
    Coincide P (x >>= f) (y >>= g) :=
  Simulates.bind hx hf

theorem run {Op : Type} {Reply : Op → Type} {f g : (op : Op) → EStateM ε σ (Reply op)}
    (h : ∀ op, Coincide P (f op) (g op)) (p : Routine Op Reply α) :
    Coincide P (p.run f) (p.run g) :=
  Simulates.run h p

end Coincide

end Weaving
