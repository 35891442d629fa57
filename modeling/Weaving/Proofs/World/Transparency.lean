import Weaving.Proofs.Invocation.Observers
import Weaving.Proofs.World.Deeds

/-! Observers are transparent. A call along a chain with observers put in anywhere ends as it does without them,
with the same outcome, arguments and attributes, and everything else is carried out in the same order; the
only difference is in the log. -/
namespace Weaving

variable {ω υ : Type}

/-- Related worlds and journals of which the second has more in the log. -/
structure Stage.Echoed (R : ω → υ → Prop) (s : Stage ω) (s' : Stage υ) : Prop where
  world : R s.world s'.world
  journal : Embellished s.journal s'.journal

/-- And the same invocation, with its arguments and attributes. -/
structure Stage.Alike (R : ω → υ → Prop) (s : Stage ω) (s' : Stage υ) : Prop extends Stage.Echoed R s s' where
  invocation : s.invocation = s'.invocation

structure Scene.Echoed (R : World → World → Prop) (s s' : Scene) : Prop where
  world : R s.world s'.world
  journal : Embellished s.journal s'.journal

namespace Program

variable {α : Type}

theorem blind_sign (es : List Entry) {p : Program α} (hp : p.Blind) : (sign es >>= fun _ => p).Blind := by
  induction es with
  | nil => exact hp
  | cons e es ih => exact .step (by simp) fun _ => ih

end Program

theorem Chain.Blind.signed {chain : Chain} (h : chain.Blind) (sign : Execution → List Entry) :
    (chain.signed sign).Blind := by
  intro e he
  obtain ⟨k, hk, rfl⟩ := List.mem_mapIdx.mp he
  exact Program.blind_sign _ (h _ (List.getElem_mem hk))

namespace Nesting

variable {R : ω → υ → Prop} {host : Host ω} {host' : Host υ} {chain chain' : Chain} {call : Call}

/-- An invocation that begins does the same along a chain with observers put in. -/
theorem proceed_echoes (h : Host.Echoes R host host') (observed : Chain.Observed chain chain')
    (blind : chain.Blind) {c : Carried ω} {c' : Carried υ} (hc : Alike R c c') :
    Paired (Stage.Alike R) (Stage.Echoed R) (Invocation.proceed host chain (c.stage call ⟨0, 0, false⟩))
      (Invocation.proceed host' chain' (c'.stage call ⟨0, 0, false⟩)) := by
  have hleft : Paired (AtPlace call ⟨0, 0, true⟩) Leaves
      (Invocation.proceed host chain (c.stage call ⟨0, 0, false⟩)) (onward host call chain 0 c) :=
    follows_proceed chain 0 _ c rfl
  have hright : Paired (AtPlace call ⟨0, 0, true⟩) Leaves
      (Invocation.proceed host' chain' (c'.stage call ⟨0, 0, false⟩)) (onward host' call chain' 0 c') :=
    follows_proceed chain' 0 _ c' rfl
  have hrun : Paired (Alike R) (Alike R) (onward host call chain 0 c) (onward host' call chain' 0 c') :=
    echoing_run h observed blind c c' hc
  generalize onward host call chain 0 c = r, onward host' call chain' 0 c' = r' at hleft hright hrun
  generalize Invocation.proceed host chain _ = p, Invocation.proceed host' chain' _ = p' at hleft hright ⊢
  cases hleft with
  | ok hs =>
    cases hrun with
    | ok hd =>
      cases hright with
      | ok hs' =>
        subst hs hs'
        refine .ok ⟨⟨hd.world, hd.journal⟩, ?_⟩
        simp [Carried.stage, hd.arguments, hd.attributes]
  | error hs =>
    cases hrun with
    | error hd =>
      cases hright with
      | error hs' =>
        refine .error ⟨?_, ?_⟩
        · rw [hs.1, hs'.1]
          exact hd.world
        · rw [hs.2, hs'.2]
          exact hd.journal

end Nesting

namespace Deed

theorem play_echoes {P : World → World → Prop} {i : Invocation} {p p' : Play World (Outcome Value)}
    {s s' : Scene} (h : Paired (Stage.Alike P) (Stage.Echoed P) (p ⟨i, s.world, s.journal⟩)
      (p' ⟨i, s'.world, s'.journal⟩)) :
    Paired (Scene.Echoed P) (Scene.Echoed P) ((play i p >>= fun r => pure r.1) s)
      ((play i p' >>= fun r => pure r.1) s') := by
  change Paired _ _ (EStateM.bind (play i p) _ s) (EStateM.bind (play i p') _ s')
  unfold EStateM.bind play
  generalize p _ = r, p' _ = r' at h
  cases h with
  | ok hs => exact .ok ⟨hs.world, hs.journal⟩
  | error hs => exact .error ⟨hs.world, hs.journal⟩

end Deed

namespace Nesting

/-- A call along a chain with observers put in is the call without them: its outcome, its arguments and
attributes at the end and what it leaves of the world are the same, and the journal, in which the interceptors
may sign each of their executions and the host each of the commands, has some more log entries. -/
theorem observers_transparent {R : ω → υ → Prop} {host : Host ω} {host' : Host υ} {chain chain' : Chain}
    {call : Call} {c : Carried ω} {c' : Carried υ} (h : Host.Echoes R host host')
    (observed : Chain.Observed chain chain') (blind : chain.Blind) (hc : Alike R c c') :
    Paired (Stage.Alike R) (Stage.Echoed R) (Invocation.proceed host chain (c.stage call ⟨0, 0, false⟩))
        (Invocation.proceed host' chain' (c'.stage call ⟨0, 0, false⟩)) ∧
      (∀ sign chain'', Chain.Observed (chain.signed sign) chain'' →
        Paired (Stage.Alike R) (Stage.Echoed R)
          (Invocation.proceed (host.signed sign) (chain.signed sign) (c.stage call ⟨0, 0, false⟩))
          (Invocation.proceed (host'.signed sign) chain'' (c'.stage call ⟨0, 0, false⟩))) ∧
      ∀ (P : World → World → Prop) (k k' : Host World), Host.Echoes P k k' →
        ∀ proxy target targetClass m args s s', Scene.Echoed P s s' →
          Paired (Scene.Echoed P) (Scene.Echoed P)
            (Deed.callAlong k chain { proxy, target, targetClass, method := m, arguments := args } s)
            (Deed.callAlong k' chain' { proxy, target, targetClass, method := m, arguments := args } s') := by
  refine ⟨proceed_echoes h observed blind hc, ?_, ?_⟩
  · intro sign chain'' hsigned
    exact proceed_echoes (h.signed sign) hsigned (blind.signed sign) hc
  · intro P k k' hk proxy target targetClass m args s s' hs
    rw [Deed.callAlong_eq, Deed.callAlong_eq]
    have hcarried : Alike P (⟨args, [], s.world, s.journal⟩ : Carried World) ⟨args, [], s'.world, s'.journal⟩ :=
      ⟨rfl, rfl, hs.world, hs.journal⟩
    exact Deed.play_echoes
      (@proceed_echoes _ _ P k k' chain chain' ⟨proxy, target, targetClass, m⟩ hk observed blind _ _ hcarried)

/-- A shop that is busy for the first two orders. -/
def shop : Host Nat where
  obey _ w := ⟨.ok (if w < 2 then .error (.ofFault (.config "busy")) else .ok (.int w)), w + 1, []⟩
  clock := id

/-- Asks once more after a failure. -/
def stubborn : Element :=
  ⟨⟨"stubborn", .step .proceed fun
    | .ok v => .done (.ok v)
    | .error _ => .step .proceed fun o => .done o⟩, none⟩

/-- Sends a copy ahead. -/
def scouting : Element :=
  ⟨⟨"scouting", .step (.fork ⟨[.int 1], [], false⟩) fun _ => .step .proceed fun o => .done o⟩, none⟩

def watched : Chain :=
  [⟨.tracing true, none⟩, scouting, ⟨.performance 0, none⟩, ⟨.throws .exceptionLogging, none⟩, stubborn,
    ⟨.tracing false, none⟩]

def order : Stage Nat :=
  Carried.stage ⟨[.int 7], [], 0, []⟩
    ⟨.unit, some (.bean ⟨0, "shop"⟩), none, ⟨"Shop", "order", []⟩⟩ ⟨0, 0, false⟩

theorem watched_observed : Chain.Observed [scouting, stubborn] watched := by
  have hanswers (i : Interceptor) : Element.Answers ⟨i, none⟩ := fun _ => ⟨true, rfl⟩
  refine .inserted (.tracing true) (hanswers _) (.kept scouting ?_)
  refine .inserted (.performance 0) (hanswers _) (.inserted .exceptionLogging (hanswers _) (.kept stubborn ?_))
  exact .inserted (.tracing false) (hanswers _) .nil

theorem blind_stubborn : stubborn.interceptor.body.Blind := by
  refine .step nofun fun o => ?_
  cases o with
  | ok v => exact .done _
  | error f => exact .step nofun fun _ => .done _

theorem blind_scouting : scouting.interceptor.body.Blind :=
  .step nofun fun _ => .step nofun fun _ => .done _

/-- A copy of an order is sent ahead and finds the shop busy, twice as it is tried again; then the order itself
gets through. All of it comes to the same when it is watched. -/
theorem shop_transparent :
    Paired (Stage.Alike Eq) (Stage.Echoed Eq) (Invocation.proceed shop [scouting, stubborn] order)
        (Invocation.proceed shop watched order) ∧
      outcomeOf (Invocation.proceed shop [scouting, stubborn] order) = .ok (.ok (.int 2)) := by
  have blind : Chain.Blind [scouting, stubborn] := by
    intro e he
    obtain rfl | rfl : e = scouting ∨ e = stubborn := by simpa using he
    · exact blind_scouting
    · exact blind_stubborn
  refine ⟨?_, rfl⟩
  exact (observers_transparent (Host.Echoes.refl shop) watched_observed blind ⟨rfl, rfl, rfl, .nil⟩).1

end Nesting
end Weaving
