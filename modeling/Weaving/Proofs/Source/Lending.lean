import Mathlib.Data.List.InsertIdx
import Mathlib.Data.List.Nodup
import Mathlib.Data.List.Perm.Basic
import Weaving.Source

/-! Targets on loan. Guards take targets from a source, and each gives its target back when it is dropped, in
whatever order that happens. A pool keeps its accounts all the while: what it has made is idle or held by one
guard, and its counters say how much of each there is. -/
namespace Weaving

/-- What is done with the guards of a source: another one is acquired, or one of those alive is dropped. -/
inductive Dealing
  | acquire
  | drop (n : Nat)

/-- A source and the guards that are alive, in the order in which they were acquired, each with its target. -/
structure Lending where
  source : Source
  guards : List (Option Target) := []

namespace Lending

/-- An acquisition that fails makes no guard. Dropping a guard gives its target back, if it has one. -/
def step (l : Lending) : Dealing → Lending
  | .acquire =>
    let r := l.source.acquire
    ⟨r.2, l.guards ++ r.1.2.toOption.toList⟩
  | .drop n => match l.guards[n]? with
    | none => l
    | some target =>
      ⟨target.elim l.source fun t => (l.source.dispose t).2, l.guards.eraseIdx n⟩

def run (l : Lending) (ds : List Dealing) : Lending := ds.foldl step l

end Lending

namespace Factory

/-- The targets that a number of attempts have made, in order. -/
def made (factory : Factory) (attempts : Nat) : List Target :=
  (List.range attempts).filterMap fun n => (factory (n + 1)).2.toOption

/-- Every attempt that succeeds makes another target. -/
def Fresh (factory : Factory) : Prop :=
  ∀ n k t, (factory n).2 = .ok t → (factory k).2 = .ok t → n = k

variable {factory : Factory}

@[simp] theorem made_zero : factory.made 0 = [] := rfl

theorem made_succ (n : Nat) :
    factory.made (n + 1) = factory.made n ++ (factory (n + 1)).2.toOption.toList := by
  rw [made, List.range_succ, List.filterMap_append, ← made]
  cases h : (factory (n + 1)).2 <;> simp [h, Except.toOption]

theorem mem_made {n : Nat} {t : Target} :
    t ∈ factory.made n ↔ ∃ k < n, (factory (k + 1)).2 = .ok t := by
  simp only [made, List.mem_filterMap, List.mem_range]
  refine exists_congr fun k => and_congr_right fun _ => ?_
  cases (factory (k + 1)).2 <;> simp [Except.toOption]

theorem Fresh.nodup_made (h : factory.Fresh) (n : Nat) : (factory.made n).Nodup := by
  induction n with
  | zero => simp
  | succ n ih =>
    rw [made_succ]
    cases hn : (factory (n + 1)).2 with
    | error f => simpa [Except.toOption] using ih
    | ok t =>
      have ht : t ∉ factory.made n := by
        rw [mem_made]
        rintro ⟨k, hk, hkt⟩
        have hkn := h _ _ t hkt hn
        omega
      simpa [Except.toOption, List.nodup_append, ih] using fun a ha => ne_of_mem_of_not_mem ha ht

end Factory

namespace Pool

variable {factory : Factory} {size : Nat} {p : Pool} {held : List Target} {className : String} {t : Target}

/-- The accounts of a pool of a size while guards hold some targets. -/
structure Balanced (factory : Factory) (size : Nat) (p : Pool) (held : List Target) : Prop where
  maxSize : p.maxSize = max 1 size
  targets : (p.idle ++ held).Perm (factory.made p.attempts)
  created : p.created = (factory.made p.attempts).length
  created_le : p.created ≤ p.maxSize
  active : p.active = held.length
  acquired : p.acquired = p.released + p.active

theorem balanced_ofSize (factory : Factory) (size : Nat) : Balanced factory size (ofSize size) [] where
  maxSize := rfl
  targets := by simp [ofSize]
  created := rfl
  created_le := Nat.zero_le _
  active := rfl
  acquired := rfl

theorem Balanced.length_eq (h : Balanced factory size p held) : p.idle.length + p.active = p.created := by
  rw [h.created, ← h.targets.length_eq, List.length_append, h.active]

/-- The idle target on top is lent. -/
theorem acquire_idle {idle : List Target} (h : p.idle = t :: idle) :
    p.acquire className factory = (([], .ok t), { p with idle }.lend) := by
  simp only [acquire, h]

/-- Without an idle target the factory is asked for a new one, unless there are as many as allowed. -/
theorem acquire_made (className : String) (h : p.idle = []) (hroom : p.created < p.maxSize)
    (hnew : (factory (p.attempts + 1)).2 = .ok t) :
    p.acquire className factory = (((factory (p.attempts + 1)).1, .ok t),
      { p with attempts := p.attempts + 1, created := p.created + 1 }.lend) := by
  simp only [acquire, h, ge_iff_le, Nat.not_le.mpr hroom, if_false, hnew]

theorem acquire_failed (className : String) {f : Failure} (h : p.idle = []) (hroom : p.created < p.maxSize)
    (hnew : (factory (p.attempts + 1)).2 = .error f) :
    p.acquire className factory =
      (((factory (p.attempts + 1)).1, .error f), { p with attempts := p.attempts + 1 }) := by
  simp only [acquire, h, ge_iff_le, Nat.not_le.mpr hroom, if_false, hnew]

theorem acquire_exhausted (className : String) (factory : Factory) (h : p.idle = [])
    (hfull : p.maxSize ≤ p.created) : ∃ f, p.acquire className factory = (([], .error f), p) := by
  simp only [acquire, h, ge_iff_le, hfull, if_true]
  exact ⟨_, rfl⟩

theorem Balanced.lendIdle {idle : List Target} (h : Balanced factory size p held)
    (hidle : p.idle = t :: idle) : Balanced factory size { p with idle }.lend (held ++ [t]) := by
  have htargets : (idle ++ (held ++ [t])).Perm (p.idle ++ held) := by
    rw [hidle, ← List.append_assoc]
    exact List.perm_append_singleton ..
  have hactive := h.active
  have hacquired := h.acquired
  refine ⟨h.maxSize, htargets.trans h.targets, h.created, h.created_le, ?_, ?_⟩
  · simp [lend, hactive]
  · dsimp only [lend]
    omega

theorem Balanced.lendNew (h : Balanced factory size p held) (hroom : p.created < p.maxSize)
    (hnew : (factory (p.attempts + 1)).2 = .ok t) :
    Balanced factory size { p with attempts := p.attempts + 1, created := p.created + 1 }.lend
      (held ++ [t]) := by
  have hmade : factory.made (p.attempts + 1) = factory.made p.attempts ++ [t] := by
    rw [Factory.made_succ, hnew]
    rfl
  have hactive := h.active
  have hacquired := h.acquired
  refine ⟨h.maxSize, ?_, ?_, hroom, ?_, ?_⟩
  · simpa [lend, hmade] using h.targets.append_right [t]
  · simp [lend, hmade, h.created]
  · simp [lend, hactive]
  · dsimp only [lend]
    omega

theorem Balanced.failNew {f : Failure} (h : Balanced factory size p held)
    (hnew : (factory (p.attempts + 1)).2 = .error f) :
    Balanced factory size { p with attempts := p.attempts + 1 } held := by
  have hmade : factory.made (p.attempts + 1) = factory.made p.attempts := by
    rw [Factory.made_succ, hnew]
    exact List.append_nil _
  exact ⟨h.maxSize, hmade ▸ h.targets, hmade ▸ h.created, h.created_le, h.active, h.acquired⟩

/-- An acquisition lends a target. If it fails, all targets are lent or the factory has failed, and nothing
has changed but the number of attempts. -/
theorem Balanced.acquire (h : Balanced factory size p held) (className : String) :
    (∃ es t p', p.acquire className factory = ((es, .ok t), p') ∧
        Balanced factory size p' (held ++ [t])) ∨
      ∃ es f attempts, p.acquire className factory = ((es, .error f), { p with attempts }) ∧
        Balanced factory size { p with attempts } held ∧
        (held.length = max 1 size ∨ (factory (p.attempts + 1)).2 = .error f) := by
  by_cases hidle : p.idle = []
  · by_cases hroom : p.created < p.maxSize
    · cases hnew : (factory (p.attempts + 1)).2 with
      | ok t => exact .inl ⟨_, t, _, acquire_made className hidle hroom hnew, h.lendNew hroom hnew⟩
      | error f =>
        exact .inr ⟨_, f, _, acquire_failed className hidle hroom hnew, h.failNew hnew, .inr rfl⟩
    · obtain ⟨f, hf⟩ := acquire_exhausted className factory hidle (Nat.not_lt.mp hroom)
      have hlength := h.length_eq
      have hle := h.created_le
      have hmax := h.maxSize
      have hactive := h.active
      rw [hidle, List.length_nil] at hlength
      exact .inr ⟨_, f, p.attempts, hf, h, .inl (by omega)⟩
  · obtain ⟨t, idle, hidle⟩ := List.exists_cons_of_ne_nil hidle
    exact .inl ⟨_, t, _, acquire_idle hidle, h.lendIdle hidle⟩

/-- A guard that is dropped, wherever it stands among those alive, makes its target idle. -/
theorem Balanced.release (h : Balanced factory size p held) {n : Nat} (hn : held[n]? = some t) :
    Balanced factory size (p.release t) (held.eraseIdx n) := by
  obtain ⟨hlt, rfl⟩ := List.getElem?_eq_some_iff.mp hn
  obtain ⟨hmax, htargets, hcreated, hle, hactive, hacquired⟩ := h
  have hback : (held[n] :: held.eraseIdx n).Perm held := List.getElem_cons_eraseIdx_perm hlt
  refine ⟨hmax, ?_, hcreated, hle, ?_, ?_⟩
  · exact (List.perm_middle.symm.trans (hback.append_left p.idle)).trans htargets
  · simp [Pool.release, hactive, List.length_eraseIdx, hlt]
  · dsimp only [Pool.release]
    omega

end Pool

namespace Lending

variable {c : Class} {factory : Factory} {size : Nat}

/-- A pool lends its targets, and its accounts balance. -/
def Sound (c : Class) (factory : Factory) (size : Nat) (l : Lending) : Prop :=
  ∃ p held, l = ⟨.pool c factory p, held.map some⟩ ∧ p.Balanced factory size held

theorem Sound.step {l : Lending} (h : l.Sound c factory size) (d : Dealing) :
    (l.step d).Sound c factory size := by
  obtain ⟨p, held, rfl, hp⟩ := h
  cases d with
  | acquire =>
    obtain ⟨es, t, p', ht, hnext⟩ | ⟨es, f, attempts, hf, hnext, -⟩ := hp.acquire c.name
    · refine ⟨p', held ++ [t], ?_, hnext⟩
      simp [Lending.step, Source.acquire, ht, Except.toOption, Except.map]
    · refine ⟨_, held, ?_, hnext⟩
      simp [Lending.step, Source.acquire, hf, Except.toOption, Except.map]
  | drop n =>
    cases hn : held[n]? with
    | none => exact ⟨p, held, by simp [Lending.step, hn], hp⟩
    | some t =>
      refine ⟨p.release t, held.eraseIdx n, ?_, hp.release hn⟩
      simp [Lending.step, hn, Source.dispose, Source.release, ← List.eraseIdx_map]

theorem Sound.run {l : Lending} (h : l.Sound c factory size) (ds : List Dealing) :
    (l.run ds).Sound c factory size := by
  induction ds generalizing l with
  | nil => exact h
  | cons d ds ih => exact ih (h.step d)

theorem sound_start (c : Class) (factory : Factory) (size : Nat) :
    Sound c factory size ⟨.pool c factory (.ofSize size), []⟩ :=
  ⟨.ofSize size, [], rfl, Pool.balanced_ofSize factory size⟩

/-- Pools keep account of their targets. Whatever guards have been acquired and dropped so far, as many
targets are active as there are guards, the targets that are idle or active are those that have been made, at
most as many as the pool may have, and each of them is idle once or held by one guard. An acquisition fails only
if all targets that the pool may have are lent or the factory fails, and then neither the pool nor the guards
have changed. -/
theorem pool_accounts (c : Class) {factory : Factory} (fresh : factory.Fresh) (size : Nat)
    (ds : List Dealing) :
    ∃ (p : Pool) (held : List Target),
      run ⟨.pool c factory (.ofSize size), []⟩ ds = ⟨.pool c factory p, held.map some⟩ ∧
      p.active = held.length ∧
      p.idle.length + p.active = (factory.made p.attempts).length ∧
      p.created = (factory.made p.attempts).length ∧
      p.idle.length + p.active ≤ max 1 size ∧
      p.acquired = p.released + p.active ∧
      (∀ t, t ∈ p.idle ∨ t ∈ held ↔ t ∈ factory.made p.attempts) ∧
      (∀ t ∈ factory.made p.attempts,
        p.idle.count t = 1 ∧ held.count t = 0 ∨ p.idle.count t = 0 ∧ held.count t = 1) ∧
      ∀ f, (Source.pool c factory p).acquire.1.2 = .error f →
        (held.length = max 1 size ∨ (factory (p.attempts + 1)).2 = .error f) ∧
        ∃ attempts, step ⟨.pool c factory p, held.map some⟩ .acquire =
          ⟨.pool c factory { p with attempts }, held.map some⟩ := by
  obtain ⟨p, held, hrun, hp⟩ := (sound_start c factory size).run ds
  have hlength := hp.length_eq
  have hcreated := hp.created
  have hle := hp.created_le
  refine ⟨p, held, hrun, hp.active, by omega, hcreated, by rw [← hp.maxSize]; omega, hp.acquired, ?_, ?_, ?_⟩
  · intro t
    rw [← hp.targets.mem_iff, List.mem_append]
  · intro t ht
    have hcount := hp.targets.count_eq t
    rw [List.count_append, List.count_eq_one_of_mem (fresh.nodup_made _) ht] at hcount
    omega
  · intro f hf
    obtain ⟨es, t, p', ht, -⟩ | ⟨es, g, attempts, hg, -, hwhy⟩ := hp.acquire c.name
    · simp [Source.acquire, ht, Except.map] at hf
    · have hfg : g = f := by simpa [Source.acquire, hg, Except.map] using hf
      subst hfg
      refine ⟨hwhy, attempts, ?_⟩
      simp [Lending.step, Source.acquire, hg, Except.toOption, Except.map]

/-- Makes connections, except at the second attempt. -/
def connecting : Factory := fun n =>
  ([], if n = 2 then .error (.ofMessage "refused") else .ok (.bean ⟨n, "connection"⟩))

theorem connecting_fresh : connecting.Fresh := by
  intro n k t hn hk
  simp only [connecting] at hn hk
  split at hn
  · contradiction
  · split at hk
    · contradiction
    · cases hn
      cases hk
      rfl

/-- Two connections at most, of which the first comes back and is lent again. -/
def connections : List Dealing := [.acquire, .acquire, .acquire, .acquire, .drop 0, .acquire]

theorem connections_accounted : connecting.Fresh ∧
    ∃ (p : Pool) (held : List Target),
      run ⟨.pool (.named "Connection") connecting (.ofSize 2), []⟩ connections =
        ⟨.pool (.named "Connection") connecting p, held.map some⟩ ∧
      p.active = held.length ∧
      (∀ t ∈ connecting.made p.attempts,
        p.idle.count t = 1 ∧ held.count t = 0 ∨ p.idle.count t = 0 ∧ held.count t = 1) ∧
      held = [.bean ⟨3, "connection"⟩, .bean ⟨1, "connection"⟩] := by
  obtain ⟨p, held, hrun, hactive, -, -, -, -, -, honce, -⟩ :=
    pool_accounts (.named "Connection") connecting_fresh 2 connections
  have hguards : held.map some =
      [.bean ⟨3, "connection"⟩, .bean ⟨1, "connection"⟩].map some := congrArg guards hrun.symm
  refine ⟨connecting_fresh, p, held, hrun, hactive, honce, ?_⟩
  exact List.map_injective_iff.mpr (fun _ _ => Option.some.inj) hguards

end Lending
end Weaving
