import Weaving.Proofs.World.Follower

/-! What deeds mean for a proxy that follows the registry. Those on other handles, sources and
configurations leave it alone; its own handle takes over what is eligible, and its own lookups give the
chain for its advisors. -/
namespace Weaving

/-- Looking up a chain, for beans of one class, gives the chain for the advisors of the configuration and
changes nothing but the chains that it keeps. -/
theorem Deed.edit_lookup {s : Scene} {n : Nat} {x : Configuration} {c : Class}
    (configuration : s.world.configurations[n]? = some x) (coherent : x.advised.Coherent fun _ => c)
    (m : Method) :
    ∃ cache journal, edit n (Advised.chainFor true m (some c)) s =
        .ok ((Chain.resolve x.advised.adapters x.advised.advisors m (some c)).1.map Resolution.chain)
          ⟨{ s.world with configurations :=
              s.world.configurations.set n { x with advised := { x.advised with cache } } }, journal⟩ ∧
      ({ x.advised with cache } : Advised).Coherent fun _ => c := by
  let e : Editing := ⟨x.advised, s.world.asked, []⟩
  have hagree := Request.agrees_class true m c
  have hc : e.advised.Coherent fun _ => c := coherent
  have houtcome : outcomeOf (Advised.chainFor true m (some c) e) =
      (Chain.resolve x.advised.adapters x.advised.advisors m (some c)).1.map Resolution.chain :=
    Traffic.outcomeOf_chainFor hc hagree
  have hcoherent : (stateOf (Advised.chainFor true m (some c) e)).advised.Coherent _ :=
    Traffic.chainFor_coherent hc hagree
  obtain ⟨cache, journal, hframe⟩ := Advised.chainFor_frame true m (some c) e
  rw [hframe] at hcoherent
  have hedit := edit_eq (Advised.chainFor true m (some c)) configuration
  rw [houtcome, hframe] at hedit
  exact ⟨cache, _, hedit, hcoherent⟩

namespace Follower

open Deed

variable {f : Follower} {host host' : Host World}

abbrev Within (f : Follower) : Scene → Prop := Deed.Within f.Holds

theorem coincide_acquire (n : Nat) : Coincide f.Within (acquire n) (acquire n) := by
  refine .refl fun s hs => ?_
  obtain ⟨seen, d, h⟩ := hs
  refine ⟨seen, d, h.setSource fun hn => ?_⟩
  subst hn
  rw [h.source_eq]
  rfl

theorem coincide_dispose (n : Nat) (t : Option Target) :
    Coincide f.Within (dispose n t) (dispose n t) := by
  cases t with
  | none => exact .pure _
  | some t =>
    refine .refl fun s hs => ?_
    obtain ⟨seen, d, h⟩ := hs
    refine ⟨seen, d, h.setSource fun hn => ?_⟩
    subst hn
    rw [h.source_eq]
    rfl

theorem holds_edited {n : Nat} (hn : n ≠ f.configuration) (s : Scene) (c : Configuration) (e : Editing)
    (hs : f.Holds s.world) : f.Holds (s.edited n c e).world := by
  obtain ⟨seen, d, h⟩ := hs
  exact ⟨seen, d, h.setConfiguration hn _ _⟩

theorem other_configuration {w : World} {k : Nat} {h : Handle} (hk : k ≠ f.serial) (hw : f.Holds w)
    (hh : w.handles[k]? = some h) : h.configuration ≠ f.configuration := by
  obtain ⟨seen, d, hp⟩ := hw
  exact fun hc => hk (hp.alone k h hh hc)

/-- Other handles take over advisors into other configurations. -/
theorem coincide_refresh_other {k : Nat} (hk : k ≠ f.serial) :
    Coincide f.Within (refresh k) (refresh k) := by
  refine coincide_refresh (fun w h hw hh => holds_edited (other_configuration hk hw hh)) ?_
  intro w w' h g version hw hh hw'
  have hn := other_configuration hk hw hh
  obtain ⟨seen, d, hp⟩ := hw'
  exact ⟨seen, d, hp.setHandle hk hn⟩

theorem coincide_callBean (o : ObjectRef) (m : Method) (args : List Value) :
    Coincide f.Within (callBean o m args) (callBean o m args) := by
  refine .refl fun s hs => ?_
  simp only [callBean, world_bind]
  cases hb : s.world.beans[o.serial]? with
  | none => exact hs
  | some b =>
    obtain ⟨seen, d, h⟩ := hs
    exact ⟨seen, d, h.answered _ _⟩

/-- Calls through other configurations. -/
theorem coincide_callThrough (h : Host.Coincide f.Holds host host') {n : Nat}
    (hn : n ≠ f.configuration) (proxy : Value) (m : Method) (args : List Value) :
    Coincide f.Within (callThrough host n proxy m args) (callThrough host' n proxy m args) := by
  refine coincide_world.bind fun w => ?_
  cases w.configurations[n]? with
  | none => exact .pure _
  | some c =>
    refine coincide_world.bind fun w => (coincide_acquire _).bind fun r => ?_
    cases r with
    | error e => exact .pure _
    | ok target =>
      refine coincide_ensuring ((coincide_edit (holds_edited hn) _).bind fun r => ?_)
        (coincide_dispose _ _)
      cases r with
      | error e => exact .pure _
      | ok chain => exact (coincide_callAlong h _ _).bind fun _ => .pure _

theorem coincide_callHandle (h : Host.Coincide f.Holds host host') {o : ObjectRef}
    (ho : o.serial ≠ f.serial) (m : Method) (args : List Value) :
    Coincide f.Within (callHandle host o m args) (callHandle host' o m args) := by
  apply Coincide.of_eq
  intro s hs
  simp only [callHandle, world_bind]
  cases hh : s.world.handles[o.serial]? with
  | none =>
    dsimp only
    exact ⟨rfl, hs⟩
  | some x =>
    dsimp only
    have hn : x.configuration ≠ f.configuration := other_configuration ho hs hh
    by_cases hm : x.plan.exposes m = true
    · rw [if_pos hm, if_pos hm]
      have hcall := (coincide_refresh_other ho).bind fun _ =>
        coincide_callThrough h hn (.object (.handle o)) m args
      exact ⟨hcall.eq hs, hcall.keeps hs⟩
    · rw [if_neg hm, if_neg hm]
      exact ⟨rfl, hs⟩

theorem takeOver_own {s : Scene} {seen : Nat} {d : Advised} (h : f.Present s.world seen d) :
    ∃ t d', takeOver f.configuration (f.following seen) s = .ok () t ∧ f.Present t.world seen d' ∧
      t.world.registry = s.world.registry ∧ d'.advisors = f.eligible s.world := by
  obtain ⟨asked, hr⟩ := Advised.replaceAdvisors_ok (fun a => h.eligible_valid)
    (e := ⟨d, s.world.asked, []⟩) h.thawed
  exact ⟨_, _, takeOver_accepted (f := f.following seen) h.configuration h.thawed hr,
    h.setOwn ((d.addInterfaces _).setAdvisors (f.eligible s.world)) h.thawed h.adapters
      (Advised.coherent_setAdvisors _ _) (fun _ => rfl) _, rfl, rfl⟩

/-- The proxy's own handle takes over what is eligible at the moment. -/
theorem refresh_own {s : Scene} {seen : Nat} {d : Advised} (h : f.Present s.world seen d) :
    ∃ t seen' d', refresh f.serial s = .ok () t ∧ f.Present t.world seen' d' ∧
      d'.advisors = f.eligible s.world := by
  by_cases hv : s.world.registry.version = seen
  · refine ⟨s, seen, d, refresh_unchanged fun x g hx hg => ?_, h, h.current hv.symm⟩
    rw [h.handle] at hx
    cases hx
    cases hg
    exact hv
  · obtain ⟨t, d', htake, hp, hregistry, hadvisors⟩ := takeOver_own h
    have hcurrent : d'.advisors = f.eligible t.world := by
      rw [hadvisors, eligible, eligible, World.eligible, World.eligible, World.candidates,
        World.candidates, hregistry]
    have hseen := hp.setSeen hcurrent
    have hversion : t.world.registry.version = s.world.registry.version := by rw [hregistry]
    rw [hversion] at hseen
    exact ⟨⟨_, t.journal⟩, _, d', (refresh_changed h.handle rfl hv).trans (bind_of_ok htake), hseen,
      hadvisors⟩

/-- Looking up a chain of the proxy gives the one for its advisors, and keeps them. -/
theorem edit_chainFor {s : Scene} {seen : Nat} {d : Advised} (h : f.Present s.world seen d)
    (m : Method) : ∃ t d', edit f.configuration (Advised.chainFor true m (some f.beanClass)) s =
        .ok ((Chain.resolve f.adapters d.advisors m (some f.beanClass)).1.map Resolution.chain) t ∧
      f.Present t.world seen d' := by
  obtain ⟨cache, journal, hedit, hcoherent⟩ := edit_lookup h.configuration h.coherent m
  rw [← h.adapters]
  exact ⟨_, _, hedit, h.setOwn { d with cache } h.thawed h.adapters hcoherent h.current _⟩

end Follower
end Weaving
