import Weaving.Proofs.Invocation.Hosts
import Weaving.World.Call

/-! What deeds do in the world: equations for those that look at it, and what deeds under two hosts have in
common if the hosts obey alike in the worlds with a property. -/
namespace Weaving

/-- A handle after it has seen a version of its feed. -/
def Handle.upTo (h : Handle) (f : Following) (version : Nat) : Handle :=
  { h with following := some { f with seen := version } }

/-- The scene after an edit of a configuration. -/
def Scene.edited (s : Scene) (n : Nat) (c : Configuration) (e : Editing) : Scene :=
  ⟨{ s.world with
      configurations := s.world.configurations.set n { c with advised := e.advised }
      asked := e.asked }, s.journal ++ e.journal⟩

namespace Deed

theorem world_bind {α : Type} (k : World → Deed α) (s : Scene) : (world >>= k) s = k s.world s := rfl

theorem journal_bind {α : Type} (es : List Entry) (k : Unit → Deed α) (s : Scene) :
    (journal es >>= k) s = k () ⟨s.world, s.journal ++ es⟩ := rfl

theorem modifyWorld_bind {α : Type} (f : World → World) (k : Unit → Deed α) (s : Scene) :
    (modifyWorld f >>= k) s = k () ⟨f s.world, s.journal⟩ := rfl

theorem journal_eq (es : List Entry) (s : Scene) :
    journal es s = .ok () ⟨s.world, s.journal ++ es⟩ := rfl

theorem acquire_eq (n : Nat) (s : Scene) :
    acquire n s = .ok (s.world.source n).acquire.1.2
      ⟨s.world.setSource n (s.world.source n).acquire.2,
        s.journal ++ (s.world.source n).acquire.1.1⟩ := rfl

theorem edit_eq {α : Type} {n : Nat} {c : Configuration} {s : Scene} (x : Edit α)
    (hc : s.world.configurations[n]? = some c) :
    edit n x s = .ok (outcomeOf (x ⟨c.advised, s.world.asked, []⟩))
      (s.edited n c (stateOf (x ⟨c.advised, s.world.asked, []⟩))) := by
  simp only [edit, world_bind, hc]
  cases x ⟨c.advised, s.world.asked, []⟩ <;> rfl

theorem exists_of_edit_ok {α : Type} {n : Nat} {c : Configuration} {s t : Scene} {x : Edit α} {a : α}
    (hc : s.world.configurations[n]? = some c) (h : edit n x s = .ok (.ok a) t) :
    ∃ e, x ⟨c.advised, s.world.asked, []⟩ = .ok a e ∧ t = s.edited n c e := by
  rw [edit_eq x hc] at h
  cases hx : x ⟨c.advised, s.world.asked, []⟩ with
  | ok b e =>
    rw [hx] at h
    cases h
    exact ⟨e, rfl, rfl⟩
  | error f e =>
    rw [hx] at h
    cases h

theorem edit_none {α : Type} {n : Nat} {s : Scene} (x : Edit α)
    (hc : s.world.configurations[n]? = none) :
    edit n x s = .ok (.error (.config "no such configuration")) s := by
  simp only [edit, world_bind, hc]
  rfl

/-- Takes over the advisors that are eligible now, unless the configuration is frozen. -/
def takeOver (n : Nat) (f : Following) : Deed Unit := do
  let w ← world
  if !(w.configurations[n]?.any fun c => c.advised.config.frozen) then
    let sorted := w.eligible f.feed f.bean f.beanClass
    journal sorted.warnings
    match ← edit n (Advised.replaceAdvisors sorted.items) with
    | .ok () => pure ()
    | .error e => journal [.warn ("Failed to refresh advisors for bean '" ++ f.bean ++ "': " ++
        e.message)]

/-- A frozen configuration takes nothing over. -/
theorem takeOver_frozen {n : Nat} {f : Following} {c : Configuration} {s : Scene}
    (hc : s.world.configurations[n]? = some c) (frozen : c.advised.config.frozen = true) :
    takeOver n f s = .ok () s := by
  simp only [takeOver, world_bind, hc, Option.any_some, frozen, Bool.not_true, Bool.false_eq_true,
    if_false]
  rfl

theorem takeOver_thawed {n : Nat} {f : Following} {c : Configuration} {s : Scene}
    (hc : s.world.configurations[n]? = some c) (thawed : c.advised.config.frozen = false) :
    takeOver n f s = (edit n (Advised.replaceAdvisors (s.world.eligible f.feed f.bean f.beanClass).items)
      >>= fun
        | .ok () => pure ()
        | .error e => journal [.warn ("Failed to refresh advisors for bean '" ++ f.bean ++ "': " ++
            e.message)])
      ⟨s.world, s.journal ++ (s.world.eligible f.feed f.bean f.beanClass).warnings⟩ := by
  simp only [takeOver, world_bind, hc, Option.any_some, thawed, Bool.not_false, if_true, journal_bind]

/-- Advisors that are not refused are taken over. -/
theorem takeOver_accepted {n : Nat} {f : Following} {c : Configuration} {s : Scene} {e : Editing}
    (hc : s.world.configurations[n]? = some c) (thawed : c.advised.config.frozen = false)
    (h : Advised.replaceAdvisors (s.world.eligible f.feed f.bean f.beanClass).items
      ⟨c.advised, s.world.asked, []⟩ = .ok () e) :
    takeOver n f s = .ok () (Scene.edited
      ⟨s.world, s.journal ++ (s.world.eligible f.feed f.bean f.beanClass).warnings⟩ n c e) := by
  have hedit := edit_eq (s := ⟨s.world, s.journal ++
    (s.world.eligible f.feed f.bean f.beanClass).warnings⟩)
    (Advised.replaceAdvisors (s.world.eligible f.feed f.bean f.beanClass).items) hc
  dsimp only at hedit
  rw [h] at hedit
  exact (takeOver_thawed hc thawed).trans (bind_of_ok hedit)

/-- If they are refused, a warning says so. -/
theorem takeOver_refused {n : Nat} {f : Following} {c : Configuration} {s : Scene} {fault : Fault}
    {e : Editing} (hc : s.world.configurations[n]? = some c) (thawed : c.advised.config.frozen = false)
    (h : Advised.replaceAdvisors (s.world.eligible f.feed f.bean f.beanClass).items
      ⟨c.advised, s.world.asked, []⟩ = .error fault e) :
    takeOver n f s = journal [.warn ("Failed to refresh advisors for bean '" ++ f.bean ++ "': " ++
      fault.message)] (Scene.edited
        ⟨s.world, s.journal ++ (s.world.eligible f.feed f.bean f.beanClass).warnings⟩ n c e) := by
  have hedit := edit_eq (s := ⟨s.world, s.journal ++
    (s.world.eligible f.feed f.bean f.beanClass).warnings⟩)
    (Advised.replaceAdvisors (s.world.eligible f.feed f.bean f.beanClass).items) hc
  dsimp only at hedit
  rw [h] at hedit
  exact (takeOver_thawed hc thawed).trans (bind_of_ok hedit)

/-- A handle that has not seen the version of its feed takes over what is eligible. -/
theorem refresh_changed {k : Nat} {s : Scene} {h : Handle} {f : Following}
    (hk : s.world.handles[k]? = some h) (hf : h.following = some f)
    (hv : s.world.version f.feed ≠ f.seen) :
    refresh k s = (takeOver h.configuration f >>= fun _ => modifyWorld fun w =>
      { w with handles := w.handles.set k (h.upTo f (s.world.version f.feed)) }) s := by
  simp only [refresh, takeOver, world_bind, bind_assoc, hk, hf, ne_eq, hv, not_false_eq_true, if_true]
  split
  · simp only [bind_assoc, journal_bind]
    refine congrArg (fun k => (edit h.configuration _ >>= k) _) (funext fun r => ?_)
    cases r <;> rfl
  · rfl

/-- Nothing changes for a handle that follows nothing, or has seen the version of its feed. -/
theorem refresh_unchanged {k : Nat} {s : Scene}
    (hv : ∀ h f, s.world.handles[k]? = some h → h.following = some f →
      s.world.version f.feed = f.seen) : refresh k s = .ok () s := by
  simp only [refresh, world_bind]
  cases hk : s.world.handles[k]? with
  | none => rfl
  | some h =>
    cases hf : h.following with
    | none =>
      simp only [hf]
      rfl
    | some f =>
      simp only [hf, hv h f hk hf, ne_eq, not_true_eq_false, if_false]
      rfl

/-- A call along a chain is a whole invocation, also where an empty chain makes it a direct call. -/
theorem callAlong_eq (host : Host World) (chain : Chain) (proxy : Value) (target : Option Target)
    (targetClass : Option Class) (m : Method) (args : List Value) (s : Scene) :
    callAlong host chain { proxy, target, targetClass, method := m, arguments := args } s =
      (play { proxy, target, targetClass, method := m, arguments := args } (Invocation.proceed host chain)
        >>= fun r => pure r.1) s := by
  cases chain with
  | cons e chain => rfl
  | nil =>
    cases target with
    | none => rfl
    | some t =>
      let i : Invocation := { proxy, target := some t, targetClass, method := m, arguments := args }
      have hproceed : Invocation.proceed host [] ⟨i, s.world, s.journal⟩ =
          (Play.command host (.call t m args) >>= fun outcome => do
            Play.modifyInvocation fun i =>
              { i with depth := i.depth - 1, completed := i.completed || i.depth - 1 = 0 }
            return outcome) ⟨{ i with depth := 1 }, s.world, s.journal⟩ := rfl
      change obey host (.call t m args) s = (play i (Invocation.proceed host []) >>= fun r => pure r.1) s
      generalize hr : host.obey (.call t m args) s.world = r
      cases hresult : r.result with
      | ok o =>
        have hcommand : Play.command host (.call t m args) ⟨{ i with depth := 1 }, s.world, s.journal⟩ =
            .ok o ⟨{ i with depth := 1 }, r.world, s.journal ++ r.entries⟩ := by
          simp only [Play.command, hr, hresult]
        have hplay : play i (Invocation.proceed host []) s =
            .ok (o, { i with completed := true }) ⟨r.world, s.journal ++ r.entries⟩ := by
          unfold play
          rw [hproceed, bind_of_ok hcommand]
          rfl
        rw [bind_of_ok hplay]
        simp only [obey, hr, hresult]
        rfl
      | error a =>
        have hcommand : Play.command host (.call t m args) ⟨{ i with depth := 1 }, s.world, s.journal⟩ =
            .error a ⟨{ i with depth := 1 }, r.world, s.journal ++ r.entries⟩ := by
          simp only [Play.command, hr, hresult]
        have hplay : play i (Invocation.proceed host []) s =
            .error a ⟨r.world, s.journal ++ r.entries⟩ := by
          unfold play
          rw [hproceed, bind_of_error hcommand]
        rw [bind_of_error hplay]
        simp only [obey, hr, hresult]

/-- A call on a handle, after its refresh, is a call through its configuration. -/
theorem callHandle_eq {host : Host World} {o : ObjectRef} {h : Handle} {m : Method} {s t : Scene}
    (hh : s.world.handles[o.serial]? = some h) (hm : h.plan.exposes m = true)
    (hr : refresh o.serial s = .ok () t) (args : List Value) :
    callHandle host o m args s =
      callThrough host h.configuration (.object (.handle o)) m args t := by
  simp only [callHandle, world_bind, hh, hm, if_true]
  exact bind_of_ok hr

theorem play_of_ok {α : Type} {i : Invocation} {p : Play World α} {s : Scene} {a : α} {stage : Stage World}
    (h : p ⟨i, s.world, s.journal⟩ = .ok a stage) :
    play i p s = .ok (a, stage.invocation) ⟨stage.world, stage.journal⟩ := by
  unfold play
  rw [h]

theorem reaction_eq {α : Type} (d : Deed α) (w : World) : reaction d w =
    ⟨outcomeOf (d ⟨w, []⟩), (stateOf (d ⟨w, []⟩)).world, (stateOf (d ⟨w, []⟩)).journal⟩ := by
  unfold reaction
  cases d ⟨w, []⟩ <;> rfl

section Returns

variable {α β : Type}

/-- The deed is never aborted. -/
def Returns (d : Deed α) : Prop := ∀ s, ∃ a t, d s = .ok a t

theorem Returns.bind {d : Deed α} {f : α → Deed β} (h : Returns d) (hf : ∀ a, Returns (f a)) :
    Returns (d >>= f) := by
  intro s
  obtain ⟨a, t, hd⟩ := h s
  rw [bind_of_ok hd]
  exact hf a t

theorem returns_pure (a : α) : Returns (pure a) := fun s => ⟨a, s, rfl⟩

theorem returns_journal (es : List Entry) : Returns (journal es) := fun _ => ⟨_, _, rfl⟩

theorem returns_edit (n : Nat) (x : Edit α) : Returns (edit n x) := by
  intro s
  cases hc : s.world.configurations[n]? with
  | none => exact ⟨_, _, edit_none x hc⟩
  | some c => exact ⟨_, _, edit_eq x hc⟩

theorem returns_takeOver (n : Nat) (f : Following) : Returns (takeOver n f) := by
  refine Returns.bind (fun s => ⟨_, s, rfl⟩) fun w => ?_
  by_cases hw : (!(w.configurations[n]?.any fun c => c.advised.config.frozen)) = true
  · simp only [hw, if_true]
    refine (returns_journal _).bind fun _ => (returns_edit n _).bind fun r => ?_
    cases r with
    | ok u => exact returns_pure _
    | error e => exact returns_journal _
  · simp only [hw]
    exact returns_pure _

theorem returns_refresh (k : Nat) : Returns (refresh k) := by
  intro s
  by_cases hv : ∀ h f, s.world.handles[k]? = some h → h.following = some f →
      s.world.version f.feed = f.seen
  · exact ⟨_, _, refresh_unchanged hv⟩
  · simp only [Classical.not_forall] at hv
    obtain ⟨h, f, hh, hf, hv⟩ := hv
    rw [refresh_changed hh hf hv]
    exact (returns_takeOver _ f).bind (fun _ _ => ⟨_, _, rfl⟩) s

theorem returns_dispose (n : Nat) (target : Option Target) : Returns (dispose n target) := by
  cases target with
  | none => exact returns_pure _
  | some t => exact fun s => ⟨_, _, rfl⟩

/-- What is done last leaves the outcome as it is. -/
theorem outcomeOf_ensuring {last : Deed Unit} (h : Returns last) (d : Deed α) (s : Scene) :
    outcomeOf (ensuring d last s) = outcomeOf (d s) := by
  obtain ⟨u, t, ht⟩ := h (stateOf (d s))
  unfold ensuring
  cases hd : d s with
  | ok a s' =>
    rw [hd] at ht
    simp only [stateOf] at ht
    simp only [ht, outcomeOf]
  | error e s' =>
    rw [hd] at ht
    simp only [stateOf] at ht
    simp only [ht, outcomeOf]

/-- A call through a configuration that has acquired its target has the outcome that it is intercepted to. -/
theorem outcomeOf_callThrough {host : Host World} {n : Nat} {c : Configuration} {s s' : Scene}
    {target : Option Target} (hc : s.world.configurations[n]? = some c)
    (hacquire : acquire c.source s = .ok (.ok target) s') (proxy : Value) (m : Method) (args : List Value) :
    outcomeOf (callThrough host n proxy m args s) =
      outcomeOf (intercept host n c.resolver (s.world.sourceOf c) target proxy m args s') := by
  simp only [callThrough, world_bind, hc]
  rw [bind_of_ok hacquire]
  exact outcomeOf_ensuring (returns_dispose _ _) _ _

end Returns

/-- The world of the scene has a property. -/
def Within (P : World → Prop) (s : Scene) : Prop := P s.world

variable {P : World → Prop} {host host' : Host World}

theorem coincide_journal (es : List Entry) : Coincide (Within P) (journal es) (journal es) :=
  .refl fun _ hs => hs

theorem coincide_world : Coincide (Within P) world world := .refl fun _ hs => hs

theorem coincide_edit {α : Type} {n : Nat} (h : ∀ (s : Scene) c e, P s.world → P (s.edited n c e).world)
    (x : Edit α) : Coincide (Within P) (edit n x) (edit n x) := by
  refine .refl fun s hs => ?_
  cases hc : s.world.configurations[n]? with
  | none =>
    rw [edit_none x hc]
    exact hs
  | some c =>
    rw [edit_eq x hc]
    exact h s c _ hs

theorem coincide_takeOver {n : Nat} (h : ∀ (s : Scene) c e, P s.world → P (s.edited n c e).world)
    (g : Following) : Coincide (Within P) (takeOver n g) (takeOver n g) := by
  refine coincide_world.bind fun w => ?_
  by_cases hw : (!(w.configurations[n]?.any fun c => c.advised.config.frozen)) = true
  · simp only [hw, if_true]
    refine (coincide_journal _).bind fun _ => (coincide_edit h _).bind fun r => ?_
    cases r with
    | ok u => exact .pure _
    | error e => exact coincide_journal _
  · simp only [hw]
    exact .pure _

/-- A handle takes over advisors into its own configuration. -/
theorem coincide_refresh {k : Nat} (hedit : ∀ (w : World) h, P w → w.handles[k]? = some h →
      ∀ (s : Scene) c e, P s.world → P (s.edited h.configuration c e).world)
    (hseen : ∀ (w w' : World) h g version, P w → w.handles[k]? = some h → P w' →
      P { w' with handles := w'.handles.set k (h.upTo g version) }) :
    Coincide (Within P) (refresh k) (refresh k) := by
  refine .refl fun s hs => ?_
  by_cases hv : ∀ h g, s.world.handles[k]? = some h → h.following = some g →
      s.world.version g.feed = g.seen
  · rw [refresh_unchanged hv]
    exact hs
  · simp only [Classical.not_forall] at hv
    obtain ⟨h, g, hh, hg, hv⟩ := hv
    rw [refresh_changed hh hg hv]
    refine ((coincide_takeOver (hedit s.world h hs hh) g).bind fun _ => .refl fun t ht => ?_).keeps hs
    exact hseen s.world t.world h g _ hs hh ht

theorem coincide_play {α : Type} {p p' : Play World α} (h : Coincide (Play.Amid P) p p')
    (i : Invocation) : Coincide (Within P) (play i p) (play i p') := by
  apply Coincide.of_eq
  intro s hs
  have hs : Play.Amid P ⟨i, s.world, s.journal⟩ := hs
  have hk := h.keeps hs
  unfold play
  rw [← h.eq hs]
  cases hr : p ⟨i, s.world, s.journal⟩ with
  | ok a t => exact ⟨rfl, by rwa [hr] at hk⟩
  | error e t => exact ⟨rfl, by rwa [hr] at hk⟩

theorem coincide_obey (h : Host.Coincide P host host') (c : Command) :
    Coincide (Within P) (obey host c) (obey host' c) := by
  apply Coincide.of_eq
  intro s hs
  obtain ⟨heq, hp⟩ := h.obey c s.world hs
  unfold obey
  rw [← heq]
  dsimp only
  cases (host.obey c s.world).result with
  | ok o => exact ⟨rfl, hp⟩
  | error a => exact ⟨rfl, hp⟩

theorem coincide_callAlong (h : Host.Coincide P host host') (chain : Chain) (i : Invocation) :
    Coincide (Within P) (callAlong host chain i) (callAlong host' chain i) := by
  have hproceed := (coincide_play (Play.coincide_proceed h chain) i).bind fun r => .pure r.1
  unfold callAlong
  cases chain with
  | nil =>
    cases i.target with
    | some t => exact coincide_obey h _
    | none => exact .pure _
  | cons e chain => exact hproceed

theorem coincide_ensuring {α : Type} {first first' : Deed α} {last : Deed Unit}
    (hfirst : Coincide (Within P) first first') (hlast : Coincide (Within P) last last) :
    Coincide (Within P) (ensuring first last) (ensuring first' last) := by
  apply Coincide.of_eq
  intro s hs
  have hk := hfirst.keeps hs
  unfold ensuring
  rw [← hfirst.eq hs]
  refine ⟨rfl, ?_⟩
  cases hr : first s with
  | ok a t =>
    rw [hr] at hk
    have hl := hlast.keeps hk
    cases hlr : last t <;> simpa [stateOf, hlr] using hl
  | error e t =>
    rw [hr] at hk
    have hl := hlast.keeps hk
    cases hlr : last t <;> simpa [stateOf, hlr] using hl

theorem coincide_reaction {α : Type} {d d' : Deed α} (h : Coincide (Within P) d d') {w : World}
    (hw : P w) : reaction d w = reaction d' w ∧ P (reaction d w).world := by
  have hs : Within P ⟨w, []⟩ := hw
  rw [reaction_eq, reaction_eq, ← h.eq hs]
  exact ⟨rfl, h.keeps hs⟩

end Deed
end Weaving
