import Weaving.Proofs.Simulation
import Weaving.Proxy.Lookup

/-! What each edit of a configuration does: one equation for each, which says when it fails, what is left
then, and what has changed otherwise. Asking introductions changes no more than the count of questions, and
looking up a chain as usual no more than the chains that are kept. -/
namespace Weaving

namespace Advised

/-- An edit that leaves everything but the count of questions. -/
def OnlyAsks {α : Type} (x : Edit α) : Prop :=
  ∀ e, ∃ asked, stateOf (x e) = { e with asked }

theorem OnlyAsks.advised_eq {α : Type} {x : Edit α} (h : OnlyAsks x) (e : Editing) :
    (stateOf (x e)).advised = e.advised := by
  obtain ⟨asked, h⟩ := h e
  rw [h]

theorem validate_onlyAsks (a : Advisor) : OnlyAsks (validate a) := by
  intro e
  unfold validate
  cases a.introduction? with
  | none => exact ⟨e.asked, rfl⟩
  | some i =>
    dsimp only
    cases i.validate e.asked with
    | ok u asked => exact ⟨asked, rfl⟩
    | error f asked => exact ⟨asked, rfl⟩

theorem validateAll_onlyAsks (as : List Advisor) : OnlyAsks (validateAll as) := by
  induction as with
  | nil => exact fun e => ⟨e.asked, rfl⟩
  | cons a as ih =>
    intro e
    obtain ⟨asked, h⟩ := validate_onlyAsks a e
    change ∃ asked, stateOf (EStateM.bind (validate a) (fun _ => validateAll as) e) = _
    unfold EStateM.bind
    cases hv : validate a e with
    | error f e' => exact ⟨asked, by simpa [hv, stateOf] using h⟩
    | ok u e' =>
      obtain rfl : e' = { e with asked } := by simpa [hv, stateOf] using h
      exact ih _

theorem get_bind {α : Type} (k : Editing → Edit α) (e : Editing) : (get >>= k) e = k e e := rfl

theorem ensureThawed_bind {α : Type} (action : String) (k : Unit → Edit α) (e : Editing) :
    (ensureThawed action >>= k) e =
      if e.advised.config.frozen then .error (.configFrozen ("cannot " ++ action)) e else k () e := by
  simp only [ensureThawed, bind_assoc, get_bind]
  split <;> rfl

/-- Adding an advisor fails if the configuration is frozen or the advisor is not valid. -/
theorem addAdvisor_eq (a : Advisor) (e : Editing) :
    addAdvisor a e =
      if e.advised.config.frozen then .error (.configFrozen "cannot add advisor") e
      else (validate a >>= fun _ => modify fun d =>
        (d.addInterfaces (introduced a)).setAdvisors (d.advisors ++ [a])) e := by
  unfold addAdvisor
  rw [ensureThawed_bind]
  split
  · rfl
  · change EStateM.bind (validate a) _ e = EStateM.bind (validate a) _ e
    unfold EStateM.bind
    cases validate a e <;> rfl

/-- Replacing the advisors fails if the configuration is frozen or one of them is not valid. -/
theorem replaceAdvisors_eq (as : List Advisor) (e : Editing) :
    replaceAdvisors as e =
      if e.advised.config.frozen then .error (.configFrozen "cannot replace advisors") e
      else (validateAll as >>= fun _ => modify fun d =>
        (d.addInterfaces (as.flatMap introduced)).setAdvisors as) e := by
  unfold replaceAdvisors
  rw [ensureThawed_bind]
  split
  · rfl
  · change EStateM.bind (validateAll as) _ e = EStateM.bind (validateAll as) _ e
    unfold EStateM.bind
    cases validateAll as e <;> rfl

/-- Removing an advisor fails if the configuration is frozen or there is none at the place. -/
theorem removeAdvisor_eq (n : Nat) (e : Editing) :
    removeAdvisor n e =
      if e.advised.config.frozen then .error (.configFrozen "cannot remove advisor") e
      else match e.advised.advisors[n]? with
        | some a =>
          .ok a { e with advised := e.advised.setAdvisors (e.advised.advisors.eraseIdx n) }
        | none => .error (.config ("advisor index " ++ toString n ++ " out of range (" ++
            toString e.advised.advisors.length ++ " advisors)")) e := by
  unfold removeAdvisor
  rw [ensureThawed_bind]
  split
  · rfl
  · change (match e.advised.advisors[n]? with
      | some a => _
      | none => _ : Edit Advisor) e = _
    cases e.advised.advisors[n]? <;> rfl

/-- An edit that leaves the configuration as it is, or sets its advisors. -/
def Resets {α : Type} (x : Edit α) : Prop :=
  ∀ e, (stateOf (x e)).advised = e.advised ∨
    ∃ interfaces as, (stateOf (x e)).advised = { e.advised with interfaces }.setAdvisors as

/-- An edit that may fail before it changes the configuration. -/
theorem OnlyAsks.modifies {x : Edit Unit} (h : OnlyAsks x) (g : Advised → Advised) (e : Editing) :
    (stateOf ((x >>= fun _ => modify g) e)).advised = e.advised ∨
      (stateOf ((x >>= fun _ => modify g) e)).advised = g e.advised := by
  have hx := h.advised_eq e
  change (stateOf (EStateM.bind x _ e)).advised = _ ∨ (stateOf (EStateM.bind x _ e)).advised = _
  unfold EStateM.bind
  cases hr : x e with
  | error f e' => exact .inl (by rwa [hr] at hx)
  | ok u e' =>
    rw [hr] at hx
    exact .inr (congrArg g hx)

theorem OnlyAsks.resets {x : Edit Unit} (h : OnlyAsks x) (interfaces : Advised → List String)
    (as : Advised → List Advisor) : Resets (x >>= fun _ => modify fun d =>
      ({ d with interfaces := interfaces d }).setAdvisors (as d)) :=
  fun e => (h.modifies _ e).imp_right fun he => ⟨_, _, he⟩

theorem addAdvisor_resets (a : Advisor) : Resets (addAdvisor a) := by
  intro e
  rw [addAdvisor_eq]
  split
  · exact .inl rfl
  · exact (validate_onlyAsks a).resets (fun d => addAll d.interfaces (introduced a))
      (fun d => d.advisors ++ [a]) e

theorem replaceAdvisors_resets (as : List Advisor) : Resets (replaceAdvisors as) := by
  intro e
  rw [replaceAdvisors_eq]
  split
  · exact .inl rfl
  · exact (validateAll_onlyAsks as).resets
      (fun d => addAll d.interfaces (as.flatMap introduced)) (fun _ => as) e

theorem removeAdvisor_resets (n : Nat) : Resets (removeAdvisor n) := by
  intro e
  rw [removeAdvisor_eq]
  split
  · exact .inl rfl
  · cases e.advised.advisors[n]? with
    | none => exact .inl rfl
    | some a => exact .inr ⟨e.advised.interfaces, _, rfl⟩

theorem invalidate_resets : Resets (modify invalidate) :=
  fun e => .inr ⟨e.advised.interfaces, e.advised.advisors, rfl⟩

theorem Resets.void {α : Type} {x : Edit α} (h : Resets x) :
    Resets (x >>= fun _ => pure ()) := by
  intro e
  have hx := h e
  change (stateOf (EStateM.bind x _ e)).advised = _ ∨
    ∃ interfaces as, (stateOf (EStateM.bind x _ e)).advised = _
  unfold EStateM.bind
  cases hr : x e with
  | ok a e' => rwa [hr] at hx
  | error f e' => rwa [hr] at hx

/-- The usual resolver changes nothing but the journal. -/
theorem resolve_eq (s : Snapshot) (m : Method) (c : Option Class) (e : Editing) :
    resolve s m c e =
      let r := Chain.resolve e.advised.adapters s.advisors m c
      let logged := { e with journal := e.journal ++ r.2 }
      match r.1 with
      | .ok resolved => .ok resolved logged
      | .error f => .error f logged := by
  change (match (Chain.resolve e.advised.adapters s.advisors m c).1 with
    | .ok resolved => pure resolved
    | .error f => throw f : Edit Resolution)
      { e with journal := e.journal ++ (Chain.resolve e.advised.adapters s.advisors m c).2 } = _
  dsimp only
  cases (Chain.resolve e.advised.adapters s.advisors m c).1 with
  | error f => rfl
  | ok resolved => rfl

/-- Publishing gives the chain that is kept, or else the new one, which is kept if the advisors are
still those of the snapshot. -/
theorem publish_cases (d : Advised) (isStatic : Bool) (s : Snapshot) (k : ChainKey) (r : Resolution) :
    (∃ chain, d.cached? k = some chain ∧ d.publish isStatic s k r = (chain, d)) ∨
    d.publish isStatic s k r = (r.chain, d) ∨
    r.cacheable = true ∧ d.generation = s.generation ∧
      d.publish isStatic s k r = (r.chain, { d with cache := (k, r.chain) :: d.cache }) := by
  unfold publish
  split
  next h =>
    obtain ⟨⟨hr, -⟩, hs⟩ : (r.cacheable = true ∧ isStatic = true) ∧ d.generation = s.generation := by
      simpa using h
    cases hk : d.cached? k with
    | some chain => exact .inl ⟨chain, rfl, rfl⟩
    | none => exact .inr (.inr ⟨hr, hs, rfl⟩)
  next => exact .inr (.inl rfl)

/-- If no chain is kept, publishing gives the new one and changes nothing but the chains that are kept. -/
theorem publish_of_not_cached {d : Advised} {k : ChainKey} (hk : d.cached? k = none) (isStatic : Bool)
    (s : Snapshot) (r : Resolution) : ∃ cache, d.publish isStatic s k r = (r.chain, { d with cache }) := by
  obtain ⟨chain, hkept, -⟩ | hp | ⟨-, -, hp⟩ := d.publish_cases isStatic s k r
  · rw [hk] at hkept
    contradiction
  · exact ⟨_, hp⟩
  · exact ⟨_, hp⟩

/-- Looking up a chain: what is kept is used, and otherwise what is resolved is published in the configuration
that the resolver has left. -/
theorem chainBy_eq (resolver : Resolver) (isStatic : Bool) (m : Method) (c : Option Class) (e : Editing) :
    chainBy resolver isStatic m c e =
      match e.advised.cached? (keyFor m c) with
      | some chain => .ok chain e
      | none => match resolver e.advised.snapshot m c e with
        | .error f e' => .error f e'
        | .ok r e' =>
          let p := e'.advised.publish isStatic e.advised.snapshot (keyFor m c) r
          .ok p.1 { e' with advised := p.2 } := by
  change (match e.advised.cached? (keyFor m c) with
    | some chain => pure chain
    | none => _ : Edit Chain) e = _
  cases e.advised.cached? (keyFor m c) with
  | some chain => rfl
  | none =>
    change EStateM.bind (resolver e.advised.snapshot m c) _ e = _
    unfold EStateM.bind
    cases resolver e.advised.snapshot m c e <;> rfl

/-- What the usual lookup comes to. It gives the chain that is kept and leaves everything as it is; or none is
kept, and it fails as resolving one does, or gives the one that is resolved, which may be kept from then on. -/
theorem chainFor_cases (isStatic : Bool) (m : Method) (c : Option Class) (e : Editing) :
    let resolved := Chain.resolve e.advised.adapters e.advised.advisors m c
    (∃ chain, e.advised.cached? (keyFor m c) = some chain ∧ chainFor isStatic m c e = .ok chain e) ∨
      e.advised.cached? (keyFor m c) = none ∧
        ((∃ f, resolved.1 = .error f ∧
            chainFor isStatic m c e = .error f { e with journal := e.journal ++ resolved.2 }) ∨
          ∃ r cache, resolved.1 = .ok r ∧ chainFor isStatic m c e = .ok r.chain
            { e with advised := { e.advised with cache }, journal := e.journal ++ resolved.2 }) := by
  rw [chainFor, chainBy_eq, resolve_eq]
  dsimp only [snapshot]
  generalize Chain.resolve e.advised.adapters e.advised.advisors m c = resolved
  cases hk : e.advised.cached? (keyFor m c) with
  | some chain => exact .inl ⟨chain, rfl, rfl⟩
  | none =>
    refine .inr ⟨rfl, ?_⟩
    obtain ⟨f | r, warnings⟩ := resolved
    · exact .inl ⟨f, rfl, rfl⟩
    · obtain ⟨cache, hp⟩ := publish_of_not_cached hk isStatic ⟨e.advised.advisors, e.advised.generation⟩ r
      refine .inr ⟨r, cache, rfl, ?_⟩
      dsimp only
      rw [hp]

/-- With the usual resolver, looking up a chain changes nothing but the chains that are kept. -/
theorem chainFor_frame (isStatic : Bool) (m : Method) (c : Option Class) (e : Editing) :
    ∃ cache journal,
      stateOf (chainFor isStatic m c e) = { e with advised := { e.advised with cache }, journal } := by
  obtain ⟨chain, -, h⟩ | ⟨-, ⟨f, -, h⟩ | ⟨r, cache, -, h⟩⟩ := chainFor_cases isStatic m c e
  all_goals
    rw [h]
    exact ⟨_, _, rfl⟩

/-- The chain that a lookup gives for the advisors at hand: the one that is kept, or else a new one. -/
def chainNow (d : Advised) (m : Method) (c : Option Class) : Except Fault Chain :=
  match d.cached? (keyFor m c) with
  | some chain => .ok chain
  | none => (Chain.resolve d.adapters d.advisors m c).1.map Resolution.chain

/-- Which chain the usual lookup gives is decided by the configuration alone. -/
theorem outcomeOf_chainFor (isStatic : Bool) (m : Method) (c : Option Class) (e : Editing) :
    outcomeOf (chainFor isStatic m c e) = e.advised.chainNow m c := by
  unfold chainNow
  obtain ⟨chain, hk, h⟩ | ⟨hk, ⟨f, hr, h⟩ | ⟨r, cache, hr, h⟩⟩ := chainFor_cases isStatic m c e
  · rw [h, hk]
    rfl
  · rw [h, hk, hr]
    rfl
  · rw [h, hk, hr]
    rfl

/-- An introduction that is valid whenever it is asked, if the advisor is one. -/
def AlwaysValid (a : Advisor) : Prop :=
  ∀ i, a.introduction? = some i → ∀ asked, ∃ asked', i.validate asked = .ok () asked'

theorem validate_ok {a : Advisor} (h : AlwaysValid a) (e : Editing) :
    ∃ asked, validate a e = .ok () { e with asked } := by
  unfold validate
  cases ha : a.introduction? with
  | none => exact ⟨e.asked, rfl⟩
  | some i =>
    obtain ⟨asked, hi⟩ := h i ha e.asked
    exact ⟨asked, by simp only [hi]⟩

theorem validateAll_ok {as : List Advisor} (h : ∀ a ∈ as, AlwaysValid a) (e : Editing) :
    ∃ asked, validateAll as e = .ok () { e with asked } := by
  induction as generalizing e with
  | nil => exact ⟨e.asked, rfl⟩
  | cons a as ih =>
    obtain ⟨asked, ha⟩ := validate_ok (h a (by simp)) e
    obtain ⟨asked', has⟩ := ih (fun b hb => h b (by simp [hb])) { e with asked }
    refine ⟨asked', ?_⟩
    change (validate a >>= fun _ => validateAll as) e = _
    rw [bind_of_ok ha, has]

/-- Valid advisors take the place of those of a configuration that is not frozen. -/
theorem replaceAdvisors_ok {as : List Advisor} (h : ∀ a ∈ as, AlwaysValid a) {e : Editing}
    (thawed : e.advised.config.frozen = false) : ∃ asked, replaceAdvisors as e = .ok ()
      { e with advised := (e.advised.addInterfaces (as.flatMap introduced)).setAdvisors as, asked } := by
  obtain ⟨asked, hv⟩ := validateAll_ok h e
  refine ⟨asked, ?_⟩
  rw [replaceAdvisors_eq, thawed]
  exact bind_of_ok hv

/-- Advisors that are not refused take the place of those of the configuration. -/
theorem replaceAdvisors_sets {as : List Advisor} {e e' : Editing}
    (h : replaceAdvisors as e = .ok () e') : ∃ asked, e' =
      { e with advised := (e.advised.addInterfaces (as.flatMap introduced)).setAdvisors as, asked } := by
  rw [replaceAdvisors_eq] at h
  split at h
  · contradiction
  · obtain ⟨asked, hasks⟩ := validateAll_onlyAsks as e
    obtain ⟨u, e₁, hv, h⟩ := exists_of_bind_ok h
    rw [hv] at hasks
    cases h
    obtain rfl : e₁ = { e with asked } := hasks
    exact ⟨asked, rfl⟩

/-- An advisor that is not refused goes behind the others, and its interfaces behind those that are listed. -/
theorem addAdvisor_sets {a : Advisor} {e e' : Editing} (h : addAdvisor a e = .ok () e') :
    e.advised.config.frozen = false ∧ ∃ asked, e' =
      { e with
        advised := (e.advised.addInterfaces (introduced a)).setAdvisors (e.advised.advisors ++ [a])
        asked } := by
  rw [addAdvisor_eq] at h
  split at h
  next => contradiction
  next hthawed =>
    obtain ⟨asked, hasks⟩ := validate_onlyAsks a e
    obtain ⟨u, e₁, hv, h⟩ := exists_of_bind_ok h
    rw [hv] at hasks
    cases h
    obtain rfl : e₁ = { e with asked } := hasks
    exact ⟨Bool.eq_false_iff.mpr hthawed, asked, rfl⟩

/-- What a configuration is after advisors have been added to it. -/
structure Extended (d : Advised) (as : List Advisor) (d' : Advised) : Prop where
  advisors : d'.advisors = d.advisors ++ as
  config : d'.config = d.config
  adapters : d'.adapters = d.adapters
  cache : d.cache = [] → d'.cache = []

theorem addAdvisor_extends {a : Advisor} {e e' : Editing} (h : addAdvisor a e = .ok () e') :
    Extended e.advised [a] e'.advised := by
  obtain ⟨-, asked, rfl⟩ := addAdvisor_sets h
  exact ⟨rfl, rfl, rfl, fun _ => rfl⟩

theorem addAdvisors_extends {as : List Advisor} {e e' : Editing} (h : addAdvisors as e = .ok () e') :
    Extended e.advised as e'.advised := by
  induction as generalizing e with
  | nil =>
    cases h
    exact ⟨by simp, rfl, rfl, id⟩
  | cons a as ih =>
    obtain ⟨u, e₁, ha, has⟩ := exists_of_bind_ok h
    have h₁ := addAdvisor_extends ha
    have h₂ := ih has
    refine ⟨?_, h₂.config.trans h₁.config, h₂.adapters.trans h₁.adapters,
      fun hc => h₂.cache (h₁.cache hc)⟩
    rw [h₂.advisors, h₁.advisors, List.append_assoc, List.singleton_append]

end Advised
end Weaving
