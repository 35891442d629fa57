import Mathlib.Data.List.Induction
import Mathlib.Tactic.MkIffOfInductiveProp
import Weaving.Advice

/-! Dispatch of failures. Throws advice is built by registering handlers one after the other, and a later one
for the same type takes the place of an earlier one. However it was built, a failure goes to the handler
registered last for the type of the nearest cause whose type has one, and to no other; a failure without
such a cause goes to the fallback registered last. So it matters neither in which order different types
were registered, nor what was registered and replaced, nor which contexts are around the failure. -/
namespace Weaving

/-- A handler takes the place of the one for its type, and of no other. -/
theorem ThrowsAdvice.find?_on (t : ThrowsAdvice) (g : Handler) (type : String) :
    ((t.on g).handlers.find? fun h => h.type = type) =
      if g.type = type then some g else t.handlers.find? fun h => h.type = type := by
  rw [ThrowsAdvice.on, List.find?_append, List.find?_filter]
  by_cases hg : g.type = type
  · rw [List.find?_eq_none.mpr (by simp [hg])]
    simp [hg]
  · have hkept (h : Handler) : (h.type ≠ g.type ∧ h.type = type) ↔ h.type = type := by
      constructor
      · exact And.right
      · rintro rfl
        exact ⟨Ne.symm hg, rfl⟩
    simp only [decide_eq_true_eq, hkept, hg, if_false]
    simp [hg]

/-- A step in the building of throws advice. -/
inductive Registration
  | on (h : Handler)
  | otherwise (react : Failure → Inspection (Outcome Verdict))

namespace Registration

variable {rs ss : List Registration} {f : Failure} {c : Cause} {h g : Handler}

/-- The type that the registration is for; a fallback is for none. -/
def type? : Registration → Option String
  | on h => some h.type
  | otherwise _ => none

def register (t : ThrowsAdvice) : Registration → ThrowsAdvice
  | on h => t.on h
  | otherwise react => t.otherwise react

/-- The advice after a number of registrations. -/
def build (name : String) (rs : List Registration) : ThrowsAdvice :=
  rs.foldl register { name }

/-- The last registration for a type, or the last fallback. -/
def last? (rs : List Registration) (type : Option String) : Option Registration :=
  (rs.filter fun r => r.type? = type).getLast?

/-- Whether there is a handler for the type of a cause. -/
def handled (rs : List Registration) (c : Cause) : Bool :=
  c.type?.isSome && rs.any fun r => r.type? = c.type?

/-- A failure goes to a handler with one of its causes: the cause is the nearest one whose type has a handler,
and the handler is the last for that type. -/
@[mk_iff] structure Dispatched (rs : List Registration) (f : Failure) (h : Handler) (c : Cause) : Prop where
  nearest : f.chain.find? (handled rs) = some c
  last : last? rs c.type? = some (on h)

/-- The same registrations in another order, in which those for one type keep theirs, or with others among
them that are replaced later on. -/
inductive Rearranged : List Registration → List Registration → Prop
  | permuted {rs ss : List Registration}
      (same : ∀ type, rs.filter (fun r => r.type? = type) = ss.filter fun r => r.type? = type) :
      Rearranged rs ss
  | replaced {before after : List Registration} {r : Registration}
      (later : ∃ s ∈ after, s.type? = r.type?) : Rearranged (before ++ after) (before ++ r :: after)
  | symm {rs ss : List Registration} (there : Rearranged rs ss) : Rearranged ss rs
  | trans {rs ss us : List Registration} (there : Rearranged rs ss) (onward : Rearranged ss us) :
      Rearranged rs us

theorem last?_append (rs ss : List Registration) (type : Option String) :
    last? (rs ++ ss) type = (last? ss type).or (last? rs type) := by
  simp [last?]

theorem last?_singleton (r : Registration) (type : Option String) :
    last? [r] type = if r.type? = type then some r else none := by
  by_cases hr : r.type? = type <;> simp [last?, hr]

theorem type?_of_last? {type : Option String} {r : Registration} (hr : last? rs type = some r) :
    r.type? = type := by
  simpa using (List.mem_filter.mp (List.mem_of_getLast? hr)).2

theorem isSome_last? (rs : List Registration) (type : Option String) :
    (last? rs type).isSome = rs.any fun r => r.type? = type := by
  rw [Bool.eq_iff_iff]
  simp [last?, Option.isSome_iff_ne_none]

theorem handled_eq (rs : List Registration) (c : Cause) :
    handled rs c = (c.type?.isSome && (last? rs c.type?).isSome) := by
  rw [isSome_last?, handled]

theorem build_append_singleton (name : String) (rs : List Registration) (r : Registration) :
    build name (rs ++ [r]) = register (build name rs) r := by
  simp [build]

/-- The table of handlers has for each type the handler registered last. -/
theorem find?_handlers (name : String) (rs : List Registration) (type : String) :
    ((build name rs).handlers.find? fun h => h.type = type).map on = last? rs (some type) := by
  induction rs using List.reverseRecOn with
  | nil => rfl
  | append_singleton rs r ih =>
    rw [build_append_singleton, last?_append, last?_singleton]
    cases r with
    | otherwise react => exact ih
    | on g =>
      simp only [register, ThrowsAdvice.find?_on, type?, Option.some.injEq]
      by_cases hg : g.type = type
      · simp [hg]
      · simpa [hg] using ih

/-- The fallback is the one registered last. -/
theorem fallback_build (name : String) (rs : List Registration) :
    (build name rs).fallback.map otherwise = last? rs none := by
  induction rs using List.reverseRecOn with
  | nil => rfl
  | append_singleton rs r ih =>
    rw [build_append_singleton, last?_append, last?_singleton, ← ih]
    cases r <;> rfl

theorem reaction?_of_last (name : String) (hlast : last? rs c.type? = some (on h)) :
    (build name rs).reaction? c = some (h.react c) := by
  have hc : c.type? = some h.type := (type?_of_last? hlast).symm
  rw [hc, ← find?_handlers name, Option.map_eq_some_iff] at hlast
  obtain ⟨g, hg, hgh⟩ := hlast
  cases hgh
  simp only [ThrowsAdvice.reaction?, hc, Option.some.injEq, eq_comm (a := h.type), hg, Option.map_some]

theorem reaction?_of_unhandled (name : String) (hc : handled rs c = false) :
    (build name rs).reaction? c = none := by
  cases htype : c.type? with
  | none => simp [ThrowsAdvice.reaction?, htype]
  | some type =>
    rw [handled_eq, htype, Option.isSome_some, Bool.true_and, Option.isSome_eq_false_iff,
      Option.isNone_iff_eq_none, ← find?_handlers name, Option.map_eq_none_iff] at hc
    simp only [ThrowsAdvice.reaction?, htype, Option.some.injEq, eq_comm (a := type), hc, Option.map_none]

/-- What is done about a failure is what the handler does that it goes to, with the cause that it goes with. -/
theorem Dispatched.handle (hd : Dispatched rs f h c) (name : String) :
    (build name rs).handle f = some (h.react c) := by
  obtain ⟨-, nearer, further, hchain, hnearer⟩ := List.find?_eq_some_iff_append.mp hd.nearest
  have hpassed : nearer.findSome? (build name rs).reaction? = none := by
    rw [List.findSome?_eq_none_iff]
    intro d hd
    exact reaction?_of_unhandled name (by simpa using hnearer d hd)
  rw [ThrowsAdvice.handle, hchain, List.findSome?_append, hpassed, Option.none_or, List.findSome?_cons,
    reaction?_of_last name hd.last]

theorem handle_of_unhandled (name : String) (hf : ∀ c ∈ f.chain, handled rs c = false) :
    (build name rs).handle f = (build name rs).fallback.map fun react => react f := by
  have hpassed : f.chain.findSome? (build name rs).reaction? = none := by
    rw [List.findSome?_eq_none_iff]
    exact fun c hc => reaction?_of_unhandled name (hf c hc)
  rw [ThrowsAdvice.handle, hpassed]

theorem exists_dispatched (hc : f.chain.find? (handled rs) = some c) : ∃ h, Dispatched rs f h c := by
  have hhandled : handled rs c = true := List.find?_some hc
  rw [handled_eq, Bool.and_eq_true_iff, Option.isSome_iff_exists, Option.isSome_iff_exists] at hhandled
  obtain ⟨⟨type, htype⟩, r, hr⟩ := hhandled
  cases r with
  | on h => exact ⟨h, hc, hr⟩
  | otherwise react =>
    have hnone := type?_of_last? hr
    rw [htype] at hnone
    contradiction

theorem Dispatched.unique (h₁ : Dispatched rs f h c) {d : Cause} (h₂ : Dispatched rs f g d) :
    h = g ∧ c = d := by
  obtain rfl : c = d := Option.some.inj (h₁.nearest.symm.trans h₂.nearest)
  have hlast := h₁.last.symm.trans h₂.last
  cases hlast
  exact ⟨rfl, rfl⟩

theorem Rearranged.last?_eq (hr : Rearranged rs ss) (type : Option String) :
    last? rs type = last? ss type := by
  induction hr with
  | permuted same => rw [last?, last?, same]
  | @replaced before after r later =>
    rw [← List.singleton_append, last?_append, last?_append, last?_append]
    by_cases hr : r.type? = type
    · -- The later registration for the same type is there on both sides, and hides this one.
      obtain ⟨s, hs, hst⟩ := later
      obtain ⟨t, ht⟩ : ∃ t, last? after type = some t := by
        rw [← Option.isSome_iff_exists, isSome_last?, List.any_eq_true]
        exact ⟨s, hs, by simp [hst, hr]⟩
      simp [ht]
    · rw [last?_singleton, if_neg hr, Option.or_none]
  | symm _ ih => exact ih.symm
  | trans _ _ ih₁ ih₂ => exact ih₁.trans ih₂

theorem Rearranged.handled_eq (hr : Rearranged rs ss) : handled rs = handled ss := by
  funext c
  rw [Registration.handled_eq, Registration.handled_eq, hr.last?_eq]

/-- Contexts have no type, so no handler is for them. -/
theorem find?_withContext (rs : List Registration) (contexts : List String) (f : Failure) :
    (contexts.foldl Failure.withContext f).chain.find? (handled rs) = f.chain.find? (handled rs) := by
  induction contexts generalizing f with
  | nil => rfl
  | cons s contexts ih => exact ih (f.withContext s)

/-- Throws advice goes by the nearest cause. However it was built, either the failure goes to one handler, that
registered last for the type of the nearest cause whose type has any, with that cause; or no cause has a
handler, and it goes to the fallback registered last, as a whole, if there is any. Other orders of
registration, registrations that are replaced and contexts around the failure change nothing about which
handler it goes to and with which cause. -/
theorem handles_nearest (name : String) (rs : List Registration) (f : Failure) :
    ((∃ h c, Dispatched rs f h c ∧ (∀ g d, Dispatched rs f g d → h = g ∧ c = d) ∧
          (build name rs).handle f = some (h.react c)) ∨
      (∀ c ∈ f.chain, handled rs c = false) ∧
        ((∃ react, last? rs none = some (otherwise react) ∧
            (build name rs).handle f = some (react f)) ∨
          last? rs none = none ∧ (build name rs).handle f = none)) ∧
    ∀ ss, Rearranged rs ss → ∀ (contexts : List String) (h : Handler) (c : Cause),
      Dispatched ss (contexts.foldl Failure.withContext f) h c ↔ Dispatched rs f h c := by
  constructor
  · cases hfind : f.chain.find? (handled rs) with
    | some c =>
      obtain ⟨h, hd⟩ := exists_dispatched hfind
      exact .inl ⟨h, c, hd, fun g d hd' => hd.unique hd', hd.handle name⟩
    | none =>
      have hf : ∀ c ∈ f.chain, handled rs c = false := by simpa using List.find?_eq_none.mp hfind
      rw [handle_of_unhandled name hf, ← fallback_build name]
      cases (build name rs).fallback with
      | some react => exact .inr ⟨hf, .inl ⟨react, rfl, rfl⟩⟩
      | none => exact .inr ⟨hf, .inr ⟨rfl, rfl⟩⟩
  · intro ss hr contexts h c
    rw [dispatched_iff, dispatched_iff, find?_withContext, hr.handled_eq, hr.last?_eq]

example (lost full fresh : Cause → Inspection (Outcome Verdict)) :
    Dispatched [.on ⟨"Disk", lost⟩, .on ⟨"Quota", full⟩, .on ⟨"Disk", fresh⟩]
      ⟨.context "saving", [.typed "Storage" "storage failed" "Storage", .typed "Disk" "disk lost" "Disk"]⟩
      ⟨"Disk", fresh⟩ (.typed "Disk" "disk lost" "Disk") :=
  ⟨rfl, rfl⟩

end Registration
end Weaving
