import Weaving.Advice

/-! What happens on the way through a chain of advice, as events. Before advice runs on the way in and the
rest on the way back, and each piece of advice has its say in the outcome. The events of a call are told by
recursion on the chain; from that it is read off how often each piece of advice runs, when and in which
order, and what comes of the call. -/
namespace Weaving.Advising

/-- Advice that runs on one side of the rest of the chain, which it leaves to proceed once. -/
inductive Adapted
  | before (body : Inspection (Outcome Unit))
  | afterReturning (body : Value → Inspection (Outcome Unit))
  | throws (t : ThrowsAdvice)
  | afterFinally (body : Inspection (Outcome Unit))

/-- Advice runs at a place in the chain and answers, or the target is called at the end of the chain. -/
inductive Event
  | before (place : Nat) (answer : Outcome Unit)
  | target (outcome : Outcome Value)
  | afterReturning (place : Nat) (v : Value) (answer : Outcome Unit)
  /-- A failure is dispatched, and a handler answers if there is one. -/
  | throws (place : Nat) (f : Failure) (answer : Option (Outcome Verdict))
  | afterFinally (place : Nat) (answer : Outcome Unit)

namespace Event

def place? : Event → Option Nat
  | before k _ | afterReturning k _ _ | throws k _ _ | afterFinally k _ => some k
  | target _ => none

/-- The place of advice that runs on the way back. -/
def after? : Event → Option Nat
  | before _ _ | target _ => none
  | afterReturning k _ _ | throws k _ _ | afterFinally k _ => some k

def reached? : Event → Option (Outcome Value)
  | target o => some o
  | _ => none

/-- First before advice in the order of the chain, then the target, then the other advice in reverse. -/
inductive Precedes : Event → Event → Prop
  | inwards {j k : Nat} {r s : Outcome Unit} (h : j < k) : Precedes (before j r) (before k s)
  | call {j : Nat} {r : Outcome Unit} {o : Outcome Value} : Precedes (before j r) (target o)
  | across {j k : Nat} {r : Outcome Unit} {e : Event} (h : e.after? = some k) : Precedes (before j r) e
  | back {o : Outcome Value} {e : Event} {k : Nat} (h : e.after? = some k) : Precedes (target o) e
  | outwards {e e' : Event} {j k : Nat} (h : e.after? = some j) (h' : e'.after? = some k) (hk : k < j) :
      Precedes e e'

/-- What advice makes of the outcome of the rest of the chain, if that has one. -/
def settle (below : Option (Outcome Value)) : Event → Option (Outcome Value)
  | before _ (.error f) | afterReturning _ _ (.error f) | afterFinally _ (.error f) => some (.error f)
  | throws _ _ (some (.ok (.recover v))) => some (.ok v)
  | throws _ _ (some (.error g)) => some (.error g)
  | before _ (.ok ()) | target _ | afterReturning _ _ (.ok ()) | afterFinally _ (.ok ())
  | throws _ _ none | throws _ _ (some (.ok .rethrow)) => below

theorem place_of_after {e : Event} {k : Nat} (h : e.after? = some k) : e.place? = some k := by
  cases e <;> first | exact h | contradiction

theorem reached_of_place {e : Event} {k : Nat} (h : e.place? = some k) : e.reached? = none := by
  cases e <;> first | rfl | contradiction

end Event

/-- The events at a place. -/
def occurrences (es : List Event) (k : Nat) : List Event := es.filter fun e => e.place? = some k

/-- The outcomes of the calls of the target. -/
def calls (es : List Event) : List (Outcome Value) := es.filterMap Event.reached?

/-- What comes of a chain: from the target outwards each piece of advice has its say, if it has run. -/
def ending (es : List Event) (advice : List (Nat × Adapted)) : Option (Outcome Value) :=
  advice.foldr (fun p below => (occurrences es p.1).foldl Event.settle below) (calls es).head?

/-- All before advice ahead of a place has succeeded. -/
def Open (advice : List (Nat × Adapted)) (es : List Event) (k : Nat) : Prop :=
  ∀ j body, (j, .before body) ∈ advice → j < k → .before j (.ok ()) ∈ es

def below (advice : List (Nat × Adapted)) (k : Nat) : List (Nat × Adapted) :=
  advice.filter fun p => k < p.1

/-- There is one event, of a kind, when it is due, and none when it is not. -/
def Once (due : Prop) (kind : Event → Prop) (es : List Event) : Prop :=
  due ∧ (∃ e, kind e ∧ es = [e]) ∨ ¬due ∧ es = []

/-- When advice at a place runs, and with what. -/
def Runs (advice : List (Nat × Adapted)) (es : List Event) (k : Nat) : Adapted → Prop
  | .before _ => Once (Open advice es k) (fun e => ∃ r, e = .before k r) (occurrences es k)
  | .afterReturning _ => Once (∃ v, ending es (below advice k) = some (.ok v))
      (fun e => ∃ v r, ending es (below advice k) = some (.ok v) ∧ e = .afterReturning k v r)
      (occurrences es k)
  | .throws _ => Once (∃ f, ending es (below advice k) = some (.error f))
      (fun e => ∃ f r, ending es (below advice k) = some (.error f) ∧ e = .throws k f r)
      (occurrences es k)
  | .afterFinally _ => Once (Open advice es k) (fun e => ∃ r, e = .afterFinally k r) (occurrences es k)

/-- How a call goes along the pieces of advice that count, each at its place, and how it ends. -/
structure Disciplined (advice : List (Nat × Adapted)) (es : List Event) (o : Outcome Value) : Prop where
  order : es.Pairwise Event.Precedes
  known : ∀ e ∈ es, ∀ k, e.place? = some k → ∃ a, (k, a) ∈ advice
  runs : ∀ k a, (k, a) ∈ advice → Runs advice es k a
  called : (calls es).length ≤ 1
  called_iff : (calls es).length = 1 ↔
    ∀ k body, (k, .before body) ∈ advice → .before k (.ok ()) ∈ es
  outcome : ending es advice = some o

/-- What advice that runs on the way back makes of an outcome, if it heeds it. -/
inductive Heeds (k : Nat) : Adapted → Outcome Value → Event → Prop
  | returned (body : Value → Inspection (Outcome Unit)) (v : Value) (answer : Outcome Unit) :
      Heeds k (.afterReturning body) (.ok v) (.afterReturning k v answer)
  | thrown (t : ThrowsAdvice) (f : Failure) (answer : Option (Outcome Verdict)) :
      Heeds k (.throws t) (.error f) (.throws k f answer)
  | anyhow (body : Inspection (Outcome Unit)) (o : Outcome Value) (answer : Outcome Unit) :
      Heeds k (.afterFinally body) o (.afterFinally k answer)

inductive Ignores : Adapted → Outcome Value → Prop
  | failed (body : Value → Inspection (Outcome Unit)) (f : Failure) :
      Ignores (.afterReturning body) (.error f)
  | returned (t : ThrowsAdvice) (v : Value) : Ignores (.throws t) (.ok v)

/-- The events of a call, told along the chain, and its outcome. -/
inductive Told : List (Nat × Adapted) → List Event → Outcome Value → Prop
  | target (o : Outcome Value) : Told [] [.target o] o
  | failed (k : Nat) (body : Inspection (Outcome Unit)) (rest : List (Nat × Adapted)) (f : Failure) :
      Told ((k, .before body) :: rest) [.before k (.error f)] (.error f)
  | passed {k : Nat} {body : Inspection (Outcome Unit)} {rest : List (Nat × Adapted)} {es : List Event}
      {o : Outcome Value} (told : Told rest es o) :
      Told ((k, .before body) :: rest) (.before k (.ok ()) :: es) o
  | heeded {k : Nat} {a : Adapted} {rest : List (Nat × Adapted)} {es : List Event} {o o' : Outcome Value}
      {e : Event} (told : Told rest es o) (heeds : Heeds k a o e)
      (settled : e.settle (some o) = some o') : Told ((k, a) :: rest) (es ++ [e]) o'
  | ignored {k : Nat} {a : Adapted} {rest : List (Nat × Adapted)} {es : List Event} {o : Outcome Value}
      (told : Told rest es o) (ignores : Ignores a o) : Told ((k, a) :: rest) es o

theorem Once.congr {due due' : Prop} {kind kind' : Event → Prop} {es es' : List Event} (hd : due ↔ due')
    (hk : ∀ e, kind e ↔ kind' e) (he : es = es') : Once due kind es ↔ Once due' kind' es' := by
  simp only [Once, hd, hk, he]

theorem Heeds.after {k : Nat} {a : Adapted} {o : Outcome Value} {e : Event} (h : Heeds k a o e) :
    e.after? = some k := by
  cases h <;> rfl

/-- One side has more events, at one place. -/
structure Within (k : Nat) (es es' : List Event) : Prop where
  elsewhere : ∀ j, j ≠ k → occurrences es' j = occurrences es j
  reached : calls es' = calls es

variable {k : Nat} {a : Adapted} {rest advice : List (Nat × Adapted)} {es es' : List Event}
  {e : Event} {o o' : Outcome Value}

namespace Within

theorem refl (k : Nat) (es : List Event) : Within k es es := ⟨fun _ _ => rfl, rfl⟩

theorem append (h : e.place? = some k) (es : List Event) : Within k es (es ++ [e]) where
  elsewhere j hj := by simp [occurrences, h, Ne.symm hj]
  reached := by simp [calls, Event.reached_of_place h]

theorem cons (h : e.place? = some k) (es : List Event) : Within k es (e :: es) where
  elsewhere j hj := by simp [occurrences, h, Ne.symm hj]
  reached := by simp [calls, Event.reached_of_place h]

theorem mem_iff (h : Within k es es') {j : Nat} (hj : j ≠ k) (he : e.place? = some j) :
    e ∈ es' ↔ e ∈ es := by
  have hmem : ∀ l : List Event, e ∈ occurrences l j ↔ e ∈ l := fun l => by simp [occurrences, he]
  rw [← hmem es', ← hmem es, h.elsewhere j hj]

theorem ending_eq (h : Within k es es') (hk : ∀ p ∈ advice, p.1 ≠ k) :
    ending es' advice = ending es advice := by
  induction advice with
  | nil => simp [ending, h.reached]
  | cons p advice ih =>
    have hp := h.elsewhere p.1 (hk p (by simp))
    have ih := ih fun q hq => hk q (by simp [hq])
    simp only [ending, List.foldr_cons] at ih ⊢
    rw [ih, hp]

end Within

/-- All the places come later in the chain. -/
abbrev Ahead (k : Nat) (rest : List (Nat × Adapted)) : Prop := ∀ p ∈ rest, k < p.1

theorem below_self (h : Ahead k rest) : below ((k, a) :: rest) k = rest := by
  simpa [below] using h

theorem below_cons {j : Nat} (hj : k < j) : below ((k, a) :: rest) j = below rest j := by
  simp [below, Nat.not_lt_of_gt hj]

theorem open_self (h : Ahead k rest) : Open ((k, a) :: rest) es k := by
  intro j body hj hlt
  obtain hj | hj := List.mem_cons.mp hj
  · cases hj
    omega
  · exact absurd (h _ hj) (Nat.not_lt_of_gt hlt)

/-- For the elements ahead nothing changes by an element that is not in their way. -/
theorem Within.runs_iff (h : Within k es es') (hk : Ahead k rest)
    (hpast : ∀ body, a = .before body → .before k (.ok ()) ∈ es') {j : Nat} {b : Adapted}
    (hj : (j, b) ∈ rest) : Runs ((k, a) :: rest) es' j b ↔ Runs rest es j b := by
  have hkj : k < j := hk _ hj
  have hocc := h.elsewhere j (by omega)
  have hbelow : below ((k, a) :: rest) j = below rest j := below_cons hkj
  have hending : ending es' (below rest j) = ending es (below rest j) :=
    h.ending_eq fun p hp => Nat.ne_of_gt (hk p (List.mem_filter.mp hp).1)
  have hopen : Open ((k, a) :: rest) es' j ↔ Open rest es j := by
    constructor
    · intro ho i body hi hij
      exact (h.mem_iff (Nat.ne_of_gt (hk _ hi)) rfl).mp (ho i body (List.mem_cons_of_mem _ hi) hij)
    · intro ho i body hi hij
      obtain hi | hi := List.mem_cons.mp hi
      · cases hi
        exact hpast body rfl
      · exact (h.mem_iff (Nat.ne_of_gt (hk _ hi)) rfl).mpr (ho i body hi hij)
  cases b with
  | before body | afterFinally body => exact Once.congr hopen (fun _ => Iff.rfl) hocc
  | afterReturning body | throws t => simp only [Runs, hbelow, hending, hocc]

theorem Disciplined.ahead (h : Disciplined rest es o) (hk : Ahead k rest) (he : e ∈ es) {j : Nat}
    (hj : e.place? = some j) : k < j := by
  obtain ⟨b, hb⟩ := h.known e he j hj
  exact hk _ hb

theorem Disciplined.occurrences_nil (h : Disciplined rest es o) (hk : Ahead k rest) :
    occurrences es k = [] := by
  refine List.filter_eq_nil_iff.mpr fun e he hp => ?_
  exact Nat.lt_irrefl _ (h.ahead hk he (of_decide_eq_true hp))

/-- The discipline of the elements ahead is kept by an element that is not in their way. -/
theorem Disciplined.extend (h : Disciplined rest es o) (hk : Ahead k rest) (hw : Within k es es')
    (hpast : ∀ body, a = .before body → .before k (.ok ()) ∈ es')
    (order : es'.Pairwise Event.Precedes)
    (known : ∀ e ∈ es', e ∈ es ∨ e.place? = some k)
    (own : Runs ((k, a) :: rest) es' k a) (outcome : ending es' ((k, a) :: rest) = some o') :
    Disciplined ((k, a) :: rest) es' o' where
  order := order
  known e he j hj := by
    obtain he | he := known e he
    · obtain ⟨b, hb⟩ := h.known e he j hj
      exact ⟨b, List.mem_cons_of_mem _ hb⟩
    · cases he.symm.trans hj
      exact ⟨a, List.mem_cons_self⟩
  runs j b hj := by
    obtain hj | hj := List.mem_cons.mp hj
    · cases hj
      exact own
    · exact (hw.runs_iff hk hpast hj).mpr (h.runs j b hj)
  called := by
    rw [hw.reached]
    exact h.called
  called_iff := by
    rw [hw.reached, h.called_iff]
    constructor
    · intro hrest j body hj
      obtain hj | hj := List.mem_cons.mp hj
      · cases hj
        exact hpast body rfl
      · exact (hw.mem_iff (Nat.ne_of_gt (hk _ hj)) rfl).mpr (hrest j body hj)
    · intro hall j body hj
      exact (hw.mem_iff (Nat.ne_of_gt (hk _ hj)) rfl).mp (hall j body (List.mem_cons_of_mem _ hj))
  outcome := outcome

theorem disciplined_target (o : Outcome Value) : Disciplined [] [.target o] o where
  order := List.pairwise_singleton _ _
  known e he j hj := by
    cases List.mem_singleton.mp he
    contradiction
  runs j a hj := by contradiction
  called := Nat.le_refl 1
  called_iff := by simp [calls, Event.reached?]
  outcome := rfl

/-- Where nothing has happened there is no outcome. -/
theorem ending_eq_none (hcalls : calls es = []) (h : ∀ p ∈ advice, occurrences es p.1 = []) :
    ending es advice = none := by
  induction advice with
  | nil => simp [ending, hcalls]
  | cons p advice ih =>
    have ih := ih fun q hq => h q (by simp [hq])
    simp only [ending, List.foldr_cons] at ih ⊢
    rw [ih, h p (by simp), List.foldl_nil]

/-- Before advice that fails is all that happens. -/
theorem disciplined_failed (hk : Ahead k rest) (body : Inspection (Outcome Unit)) (f : Failure) :
    Disciplined ((k, .before body) :: rest) [.before k (.error f)] (.error f) := by
  have hself : occurrences [.before k (.error f)] k = [.before k (.error f)] := by
    simp [occurrences, Event.place?]
  have hother : ∀ p ∈ rest, occurrences [.before k (.error f)] p.1 = [] := by
    intro p hp
    simpa [occurrences, Event.place?] using Nat.ne_of_lt (hk p hp)
  have hcalls : calls [.before k (.error f)] = [] := rfl
  have hblocked : Event.before k (.ok ()) ∉ [Event.before k (.error f)] := by simp
  refine ⟨List.pairwise_singleton _ _, fun e he j hj => ?_, fun j b hj => ?_, by simp [hcalls], ?_, ?_⟩
  · cases List.mem_singleton.mp he
    cases hj
    exact ⟨_, List.mem_cons_self⟩
  · obtain hj | hj := List.mem_cons.mp hj
    · cases hj
      exact .inl ⟨open_self hk, _, ⟨_, rfl⟩, hself⟩
    · have hkj : k < j := hk _ hj
      have hclosed : ¬Open ((k, .before body) :: rest) [.before k (.error f)] j :=
        fun ho => hblocked (ho k body List.mem_cons_self hkj)
      have hnone : ending [.before k (.error f)] (below ((k, .before body) :: rest) j) = none := by
        rw [below_cons hkj]
        exact ending_eq_none hcalls fun p hp => hother p (List.mem_filter.mp hp).1
      cases b with
      | before body' | afterFinally body' => exact .inr ⟨hclosed, hother _ hj⟩
      | afterReturning body' | throws t =>
        refine .inr ⟨?_, hother _ hj⟩
        simp [hnone]
  · refine iff_of_false (by simp [hcalls]) fun hall => ?_
    exact hblocked (hall k body List.mem_cons_self)
  · simp [ending, hself, Event.settle]

theorem disciplined_passed (h : Disciplined rest es o) (hk : Ahead k rest)
    (body : Inspection (Outcome Unit)) :
    Disciplined ((k, .before body) :: rest) (.before k (.ok ()) :: es) o := by
  have hself : occurrences (.before k (.ok ()) :: es) k = [.before k (.ok ())] := by
    simpa [occurrences, Event.place?] using h.occurrences_nil hk
  have hw : Within k es (.before k (.ok ()) :: es) := Within.cons rfl es
  have hfirst : ∀ e ∈ es, Event.Precedes (.before k (.ok ())) e := by
    intro e he
    cases e with
    | before j r => exact .inwards (h.ahead hk he rfl)
    | target o => exact .call
    | afterReturning j v r | throws j f r | afterFinally j r => exact .across rfl
  refine h.extend hk hw (fun _ _ => List.mem_cons_self) (List.pairwise_cons.mpr ⟨hfirst, h.order⟩)
    (fun e he => ?_) (.inl ⟨open_self hk, _, ⟨_, rfl⟩, hself⟩) ?_
  · obtain rfl | he := List.mem_cons.mp he
    · exact .inr rfl
    · exact .inl he
  · change (occurrences _ k).foldl Event.settle (ending _ rest) = some o
    rw [hself, hw.ending_eq fun p hp => Nat.ne_of_gt (hk p hp), h.outcome]
    rfl

theorem disciplined_heeded (h : Disciplined rest es o) (hk : Ahead k rest) (heeds : Heeds k a o e)
    (settled : e.settle (some o) = some o') : Disciplined ((k, a) :: rest) (es ++ [e]) o' := by
  have hplace := Event.place_of_after heeds.after
  have hself : occurrences (es ++ [e]) k = [e] := by
    have := h.occurrences_nil hk
    simp only [occurrences, List.filter_append] at this ⊢
    simp [this, hplace]
  have hw := Within.append hplace es
  have hending : ending (es ++ [e]) rest = some o := by
    rw [hw.ending_eq fun p hp => Nat.ne_of_gt (hk p hp), h.outcome]
  have hlast : ∀ e' ∈ es, Event.Precedes e' e := by
    intro e' he'
    cases e' with
    | before j r => exact .across heeds.after
    | target o => exact .back heeds.after
    | afterReturning j v r | throws j f r | afterFinally j r =>
      exact .outwards rfl heeds.after (h.ahead hk he' rfl)
  have hnever : ∀ body, a ≠ .before body := by
    rintro body rfl
    cases heeds
  refine h.extend hk hw (fun body ha => absurd ha (hnever body)) ?_ (fun e' he' => ?_) ?_ ?_
  · refine List.pairwise_append.mpr ⟨h.order, List.pairwise_singleton _ _, fun e' he' x hx => ?_⟩
    rw [List.mem_singleton.mp hx]
    exact hlast e' he'
  · obtain he' | he' := List.mem_append.mp he'
    · exact .inl he'
    · rw [List.mem_singleton.mp he']
      exact .inr hplace
  · cases heeds with
    | returned body v r =>
      simp only [Runs, below_self hk, hending]
      exact .inl ⟨⟨v, rfl⟩, _, ⟨v, r, rfl, rfl⟩, hself⟩
    | thrown t f r =>
      simp only [Runs, below_self hk, hending]
      exact .inl ⟨⟨f, rfl⟩, _, ⟨f, r, rfl, rfl⟩, hself⟩
    | anyhow body o r => exact .inl ⟨open_self hk, _, ⟨r, rfl⟩, hself⟩
  · change (occurrences _ k).foldl Event.settle (ending _ rest) = some o'
    rw [hself, hending]
    exact settled

theorem disciplined_ignored (h : Disciplined rest es o) (hk : Ahead k rest) (ignores : Ignores a o) :
    Disciplined ((k, a) :: rest) es o := by
  have hself := h.occurrences_nil hk
  have hnever : ∀ body, a ≠ .before body := by
    rintro body rfl
    cases ignores
  refine h.extend hk (.refl k es) (fun body ha => absurd ha (hnever body)) h.order
    (fun e he => .inl he) ?_ ?_
  · cases ignores with
    | failed body f | returned t v =>
      simp only [Runs, below_self hk, h.outcome]
      exact .inr ⟨by simp, hself⟩
  · change (occurrences _ k).foldl Event.settle (ending _ rest) = some o
    rw [hself, h.outcome]
    rfl

/-- Events that are told along a chain are disciplined. -/
theorem Told.disciplined (h : Told advice es o) (hsorted : advice.Pairwise fun p q => p.1 < q.1) :
    Disciplined advice es o := by
  induction h with
  | target o => exact disciplined_target o
  | failed k body rest f => exact disciplined_failed (List.pairwise_cons.mp hsorted).1 body f
  | passed _ ih =>
    obtain ⟨hk, hrest⟩ := List.pairwise_cons.mp hsorted
    exact disciplined_passed (ih hrest) hk _
  | heeded _ heeds settled ih =>
    obtain ⟨hk, hrest⟩ := List.pairwise_cons.mp hsorted
    exact disciplined_heeded (ih hrest) hk heeds settled
  | ignored _ ignores ih =>
    obtain ⟨hk, hrest⟩ := List.pairwise_cons.mp hsorted
    exact disciplined_ignored (ih hrest) hk ignores

/-- Whatever is below advice that runs on the way back, it is told on. -/
theorem Told.onward (h : Told rest es o) (k : Nat) (hafter : ∀ body, a ≠ .before body) :
    ∃ more o', Told ((k, a) :: rest) (es ++ more) o' := by
  cases a with
  | before body => exact absurd rfl (hafter body)
  | afterReturning body =>
    cases o with
    | ok v => exact ⟨_, _, h.heeded (.returned body v (.ok ())) rfl⟩
    | error f => exact ⟨[], _, by simpa using h.ignored (.failed body f)⟩
  | throws t =>
    cases o with
    | ok v => exact ⟨[], _, by simpa using h.ignored (.returned t v)⟩
    | error f => exact ⟨_, _, h.heeded (.thrown t f none) rfl⟩
  | afterFinally body => exact ⟨_, _, h.heeded (.anyhow body o (.ok ())) rfl⟩

theorem Told.total (advice : List (Nat × Adapted)) : ∃ es o, Told advice es o := by
  induction advice with
  | nil => exact ⟨_, _, .target (.ok .unit)⟩
  | cons p advice ih =>
    obtain ⟨k, a⟩ := p
    obtain ⟨es, o, h⟩ := ih
    by_cases hb : ∃ body, a = .before body
    · obtain ⟨body, rfl⟩ := hb
      exact ⟨_, _, h.passed⟩
    · obtain ⟨more, o', h'⟩ := h.onward k fun body ha => hb ⟨body, ha⟩
      exact ⟨_, _, h'⟩

end Weaving.Advising
