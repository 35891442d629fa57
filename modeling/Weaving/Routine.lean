/-! Routines: courses of action that are written down before they are carried out. A routine is done, or
names an operation and goes on with each reply. Carrying it out needs nothing but a meaning for the
operations, so what a routine may do is said by its operations alone. -/
namespace Weaving

inductive Routine (Op : Type) (Reply : Op → Type) (α : Type) : Type
  | done (a : α)
  | step (op : Op) (next : Reply op → Routine Op Reply α)

namespace Routine

variable {Op : Type} {Reply : Op → Type} {α β γ : Type}

def bind : Routine Op Reply α → (α → Routine Op Reply β) → Routine Op Reply β
  | done a, f => f a
  | step op next, f => step op fun r => (next r).bind f

instance : Monad (Routine Op Reply) where
  pure := done
  bind := bind

/-- The routine of one operation, which gives back its reply. -/
def perform (op : Op) : Routine Op Reply (Reply op) := step op done

/-- Carries a routine out, each operation by its meaning. -/
def run {m : Type → Type} [Monad m] (meaning : (op : Op) → m (Reply op)) :
    Routine Op Reply α → m α
  | done a => pure a
  | step op next => do
    let r ← meaning op
    (next r).run meaning

@[simp] theorem pure_eq (a : α) : (pure a : Routine Op Reply α) = done a := rfl

@[simp] theorem done_bind (a : α) (f : α → Routine Op Reply β) : (done a >>= f) = f a := rfl

@[simp] theorem step_bind (op : Op) (next : Reply op → Routine Op Reply α)
    (f : α → Routine Op Reply β) : (step op next >>= f) = step op fun r => next r >>= f := rfl

@[simp] theorem run_done {m : Type → Type} [Monad m] (meaning : (op : Op) → m (Reply op)) (a : α) :
    (done a).run meaning = pure a := rfl

@[simp] theorem run_step {m : Type → Type} [Monad m] (meaning : (op : Op) → m (Reply op)) (op : Op)
    (next : Reply op → Routine Op Reply α) :
    (step op next).run meaning = meaning op >>= fun r => (next r).run meaning := rfl

theorem run_bind {m : Type → Type} [Monad m] [LawfulMonad m] (meaning : (op : Op) → m (Reply op))
    (p : Routine Op Reply α) (f : α → Routine Op Reply β) :
    (p >>= f).run meaning = p.run meaning >>= fun a => (f a).run meaning := by
  induction p with
  | done a => simp
  | step op next ih => simp [ih]

end Routine
end Weaving
