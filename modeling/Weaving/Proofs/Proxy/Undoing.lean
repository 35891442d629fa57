import Mathlib.Data.Fintype.EquivFin
import Weaving.Proofs.Proxy.Backing
import Weaving.Proofs.Proxy.Interleaving

/-! Removing the advisor that was added last. The advisors and the chains are again what they were, and so is
the plan if the advisor introduced no interface that was not listed before. An interface that it did bring
stays behind, and then the plan for some class is another one, or there is none. -/
namespace Weaving

theorem Operation.edit_resets (op : Operation) : Advised.Resets op.edit := by
  cases op with
  | add a => exact Advised.addAdvisor_resets a
  | advise raw =>
    intro e
    rw [Operation.edit, Advised.addAdvice_eq]
    cases raw.toAdvisor e.advised.adapters with
    | ok a => exact Advised.addAdvisor_resets a e
    | error f => exact .inl rfl
  | remove n => exact (Advised.removeAdvisor_resets n).void
  | replace as => exact Advised.replaceAdvisors_resets as

namespace Advised

/-- The states of a configuration: it is set up and changed, whether the steps fail or not, told that its
advisors have changed, and asked for chains, where each class goes by a name of its own. -/
inductive Reached (directory : String → Class) : Editing → Prop
  | start (config : ProxySettings) (adapters : Adapters) (asked : Asked) :
      Reached directory ⟨{ config, adapters }, asked, []⟩
  | setup {e : Editing} (s : Setup) (before : Reached directory e) :
      Reached directory (stateOf (s.edit e))
  | notice {e : Editing} (before : Reached directory e) :
      Reached directory (stateOf (modify invalidate e))
  | lookup {e : Editing} (q : Request) (agrees : q.Agrees directory) (before : Reached directory e) :
      Reached directory (stateOf (chainFor q.isStatic q.method q.targetClass e))

variable {directory : String → Class} {d : Advised} {e : Editing}

theorem Reached.coherent (h : Reached directory e) : e.advised.Coherent directory := by
  induction h with
  | start config adapters asked => exact fun _ hx => nomatch hx
  | setup s _ ih =>
    cases s with
    | expose i => exact ih
    | freeze frozen => exact ih
    | operate op => exact op.edit_resets.coherent ih
  | notice _ ih => exact invalidate_resets.coherent ih
  | lookup q agrees _ ih => exact Traffic.chainFor_coherent ih agrees

theorem Reached.exposing (h : Reached directory e) : e.advised.Exposing := by
  induction h with
  | start config adapters asked => exact ⟨List.nodup_nil, fun _ ha => nomatch ha⟩
  | setup s _ ih => exact s.edit_exposing ih
  | notice _ ih => exact ⟨ih.nodup, ih.introduced⟩
  | @lookup e q agrees before ih =>
    obtain ⟨cache, journal, he⟩ := chainFor_frame q.isStatic q.method q.targetClass e
    rw [he]
    exact ⟨ih.nodup, ih.introduced⟩

/-- What becomes of a configuration if an advisor is added to it and removed again. -/
def undone (d : Advised) (a : Advisor) : Advised :=
  ((d.addInterfaces (introduced a)).setAdvisors (d.advisors ++ [a])).setAdvisors d.advisors

theorem coherent_undone (d : Advised) (a : Advisor) : (d.undone a).Coherent directory :=
  coherent_setAdvisors _ _

/-- The advisor that was added last can be removed, which gives it back. -/
theorem removeAdvisor_added {a : Advisor} {e₁ : Editing} (h : addAdvisor a e = .ok () e₁) :
    ∃ asked, removeAdvisor (e₁.advised.advisors.length - 1) e₁ =
      .ok a { e with advised := e.advised.undone a, asked } := by
  obtain ⟨hthawed, asked, rfl⟩ := addAdvisor_sets h
  refine ⟨asked, ?_⟩
  have herase : (e.advised.advisors ++ [a]).eraseIdx e.advised.advisors.length = e.advised.advisors := by
    simp [List.eraseIdx_append_of_length_le]
  rw [removeAdvisor_eq]
  simp [undone, setAdvisors, invalidate, addInterfaces, hthawed, herase]

end Advised

namespace Plan

variable {d d' : Advised}

/-- The plan depends on the settings, the advisors and the interfaces of a configuration only. -/
theorem choose_congr (hconfig : d'.config = d.config) (hadvisors : d'.advisors = d.advisors)
    (hinterfaces : d'.interfaces = d.interfaces) (c : Option Class) : choose d' c = choose d c := by
  unfold choose
  rw [hconfig, hadvisors, hinterfaces]

theorem complete_ok (config : ProxySettings) {p : Plan} (h : p.interfaces ≠ []) :
    ∃ plan, complete config p = .ok plan :=
  ⟨_, complete_eq_ok.mpr ⟨.inr h, rfl⟩⟩

/-- A class of which nothing is known but that it is an interface of this name and has some others. -/
def stranger (name : String) (is : List String) : Class :=
  ⟨{ name, interfaces := is, isInterface := true }, []⟩

@[simp] theorem provides_stranger {name i : String} {is : List String} :
    (stranger name is).provides i = true ↔ name = i ∨ i ∈ is := by
  simp [stranger, Class.provides, Class.lineage, Declaration.provides]

theorem extending_stranger {name : String} {is : List String} (h : name ∉ is) :
    extending (stranger name is) is = .ok ⟨none, is ++ [name]⟩ := by
  simp [stranger, extending, Class.isInterface, Class.name, addOnce, h]

/-- There is a plan for a stranger that has all that is listed. If a subclass is asked for, its own name comes
right behind what is listed. -/
theorem exists_choose_stranger {name : String} (h : name ∉ d.interfaces) :
    ∃ plan, choose d (some (stranger name d.interfaces)) = .ok plan ∧
      ((d.config.optimize || d.config.proxyTargetClass) = true →
        d.interfaces ++ [name] <+: plan.interfaces) := by
  unfold choose
  split
  next =>
    obtain ⟨plan, hplan⟩ := complete_ok d.config (p := ⟨none, d.interfaces ++ [name]⟩) (by simp)
    refine ⟨plan, ?_, fun _ => (grown_complete hplan).prefixed⟩
    dsimp only
    rw [extending_stranger h]
    exact hplan
  next hasked =>
    have hcheck : checkBacked (stranger name d.interfaces) d.advisors d.interfaces = .ok () :=
      checkBacked_eq_ok.mpr fun i hi => .inr (provides_stranger.mpr (.inr hi))
    obtain ⟨hforced, hne⟩ : (d.config.optimize || d.config.proxyTargetClass) = false ∧
        d.interfaces ≠ [] := by simpa using hasked
    obtain ⟨plan, hplan⟩ := complete_ok d.config (p := ⟨none, d.interfaces⟩) hne
    refine ⟨plan, ?_, fun h => ?_⟩
    · dsimp only
      rw [hcheck]
      exact hplan
    · rw [hforced] at h
      contradiction

/-- With a new interface the plan for a stranger that does not have it is another one: the interface either
stands where the stranger's name stood before, or it is not backed. -/
theorem choose_stranger_ne {name z : String} {zs is : List String} (h : d.Exposing)
    (hz : z ∉ d.interfaces) (hname : name ∉ d.interfaces) (hne : name ≠ z)
    (hlisted : (d.addInterfaces is).interfaces = d.interfaces ++ z :: zs) :
    choose (d.addInterfaces is) (some (stranger name d.interfaces)) ≠
      choose d (some (stranger name d.interfaces)) := by
  intro hsame
  obtain ⟨plan, hplan, hforced⟩ := exists_choose_stranger hname
  have hafter := hsame.trans hplan
  obtain ⟨-, -, ⟨hasked, -⟩ | ⟨-, hcheck⟩⟩ := choose_cases hafter
  · rw [hlisted] at hasked
    have hasked : (d.config.optimize || d.config.proxyTargetClass) = true := by
      simpa [Advised.addInterfaces] using hasked
    have hbehind : d.interfaces ++ [name] <+: d.interfaces ++ z :: zs :=
      List.prefix_of_prefix_length_le (hforced hasked) (hlisted ▸ (grown_choose hafter).prefixed)
        (by simp)
    have hfirst : [name] <+: z :: zs := (List.prefix_append_right_inj _).mp hbehind
    exact hne (List.cons_prefix_cons.mp hfirst).1
  · obtain ⟨a, ha, hintroduced⟩ | hprovides := checkBacked_eq_ok.mp (hcheck _ rfl) z (by simp [hlisted])
    · exact hz (h.introduced a ha z hintroduced)
    · exact (provides_stranger.mp hprovides).elim hne hz

/-- Interfaces that are listed already change no plan, and new ones the plan for some class. -/
theorem choose_addInterfaces_iff (h : d.Exposing) (is : List String) :
    (∀ c, choose (d.addInterfaces is) c = choose d c) ↔ ∀ i ∈ is, i ∈ d.interfaces := by
  constructor
  · intro hsame
    by_contra hnew
    obtain ⟨z, zs, hlisted, hz⟩ := exists_addAll_eq hnew
    obtain ⟨name, hname⟩ := Infinite.exists_notMem_finset (z :: d.interfaces).toFinset
    obtain ⟨hne, hfresh⟩ : name ≠ z ∧ name ∉ d.interfaces := by simpa using hname
    exact choose_stranger_ne h hz hfresh hne hlisted (hsame _)
  · intro hlisted
    have hsame : (d.addInterfaces is).interfaces = d.interfaces := addAll_eq_self hlisted
    exact choose_congr rfl rfl hsame

theorem choose_undone (d : Advised) (a : Advisor) (c : Option Class) :
    choose (d.undone a) c = choose (d.addInterfaces (Advised.introduced a)) c :=
  choose_congr rfl rfl rfl c

/-- Removing the advisor that was added last undoes the addition but for its interfaces. If an advisor has
been added to a configuration in any of its states, removing the last one succeeds and gives it back; the
advisors and the chain of every method are then what they were before. The interfaces it introduces stay
listed, so that the plans for all classes are what they were if and only if these had been listed
before, as they have for an advisor that is no introduction. -/
theorem remove_undoes_add {directory : String → Class} {e e₁ : Editing} {a : Advisor}
    (reached : Advised.Reached directory e) (added : Advised.addAdvisor a e = .ok () e₁) :
    ∃ e₂, Advised.removeAdvisor (e₁.advised.advisors.length - 1) e₁ = .ok a e₂ ∧
      e₂.advised.advisors = e.advised.advisors ∧
      (∀ q : Request, q.Agrees directory →
        outcomeOf (Advised.chainFor q.isStatic q.method q.targetClass e₂) =
          outcomeOf (Advised.chainFor q.isStatic q.method q.targetClass e)) ∧
      e₂.advised.interfaces = addAll e.advised.interfaces (Advised.introduced a) ∧
      ((∀ c, choose e₂.advised c = choose e.advised c) ↔
        ∀ i ∈ Advised.introduced a, i ∈ e.advised.interfaces) := by
  obtain ⟨asked, hremoved⟩ := Advised.removeAdvisor_added added
  refine ⟨_, hremoved, rfl, fun q hq => ?_, rfl, ?_⟩
  · rw [Traffic.outcomeOf_chainFor (Advised.coherent_undone e.advised a) hq,
      Traffic.outcomeOf_chainFor reached.coherent hq]
    rfl
  · rw [← choose_addInterfaces_iff reached.exposing]
    exact forall_congr' fun c => by rw [choose_undone]

/-- Nothing is listed at first, and after an introduction has come and gone what it introduced is. -/
theorem audited_lingers :
    ∃ e₁ e₂, Advised.addAdvisor auditing ⟨{}, fun _ => 0, []⟩ = .ok () e₁ ∧
      Advised.removeAdvisor (e₁.advised.advisors.length - 1) e₁ = .ok auditing e₂ ∧
      choose {} (some storeClass) = .ok ⟨some storeClass, [advisedInterface]⟩ ∧
      choose e₂.advised (some storeClass) = .error (.proxyCreation
        "MemoryStore does not implement Audited and no introduction provides it") :=
  ⟨_, _, rfl, rfl, rfl, rfl⟩

/-- The trail of a store is asked for where the interfaces for it are listed already. -/
def trail : Request := ⟨true, ⟨"Audited", "trail", []⟩, some storeClass⟩

def listing : Editing := Setup.attempt ⟨{}, fun _ => 0, []⟩ [.expose "Audited", .expose "Store"]

def asking : Editing := stateOf (Advised.chainFor trail.isStatic trail.method trail.targetClass listing)

theorem auditing_undone :
    ∃ e₁ e₂, Advised.addAdvisor auditing asking = .ok () e₁ ∧
      Advised.removeAdvisor (e₁.advised.advisors.length - 1) e₁ = .ok auditing e₂ ∧
      e₁.advised.advisors.length = 1 ∧ e₂.advised.advisors = [] ∧
      outcomeOf (Advised.chainFor trail.isStatic trail.method trail.targetClass e₂) = .ok [] ∧
      ∀ c, choose e₂.advised c = choose asking.advised c := by
  have hagrees : trail.Agrees fun _ => storeClass := Request.agrees_class _ _ _
  have hlisting : Advised.Reached (fun _ => storeClass) listing :=
    .setup (.expose "Store") (.setup (.expose "Audited") (.start {} .builtIn _))
  have hadded : ∃ e₁, Advised.addAdvisor auditing asking = .ok () e₁ ∧ e₁.advised.advisors.length = 1 :=
    ⟨_, rfl, rfl⟩
  obtain ⟨e₁, hadded, hlength⟩ := hadded
  obtain ⟨e₂, hremoved, hadvisors, hchains, -, hplans⟩ :=
    remove_undoes_add (hlisting.lookup trail hagrees) hadded
  exact ⟨e₁, e₂, hadded, hremoved, hlength, hadvisors, hchains trail hagrees, hplans.mpr (by decide)⟩

end Plan
end Weaving
