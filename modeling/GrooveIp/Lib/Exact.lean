import GrooveIp.Lib.Fuelled

/-!
# Computations that fault exactly when they have to

A computation with a condition under which it has a result. Without it the computation faults, so the
condition is the weakest one.
-/

namespace GrooveIp.Lib

variable {ε α β : Type} {x y : Except ε α} {p q : Prop} {post : α → Prop} {post' : β → Prop}

/-- There is a result, and a good one, exactly in the safe case. -/
structure Exact (x : Except ε α) (safe : Prop) (post : α → Prop) : Prop where
  ok : safe → ∃ a, x = .ok a ∧ post a
  fault : ¬safe → ∃ e, x = .error e

namespace Exact

theorem pure {a : α} (h : post a) : Exact (Pure.pure a : Except ε α) True post :=
  ⟨fun _ => ⟨a, rfl, h⟩, fun h => absurd trivial h⟩

theorem error (e : ε) : Exact (.error e) False post := ⟨False.elim, fun _ => ⟨e, rfl⟩⟩

theorem bind {f : α → Except ε β} (hx : Exact x p post)
    (hf : p → ∀ a, post a → Exact (f a) q post') : Exact (x >>= f) (p ∧ q) post' := by
  constructor
  · rintro ⟨hp, hq⟩
    obtain ⟨a, rfl, ha⟩ := hx.ok hp
    exact (hf hp a ha).ok hq
  · intro hnot
    by_cases hp : p
    · obtain ⟨a, rfl, ha⟩ := hx.ok hp
      exact (hf hp a ha).fault fun hq => hnot ⟨hp, hq⟩
    · obtain ⟨e, rfl⟩ := hx.fault hp
      exact ⟨e, rfl⟩

theorem imp {good : α → Prop} (h : Exact x p post) (hsafe : q ↔ p) (hpost : ∀ a, post a → good a) :
    Exact x q good :=
  ⟨fun hq => (h.ok (hsafe.mp hq)).imp fun a ha => ⟨ha.1, hpost a ha.2⟩,
    fun hq => h.fault (mt hsafe.mpr hq)⟩

theorem iff (h : Exact x p post) (hsafe : q ↔ p) : Exact x q post := h.imp hsafe fun _ => id

/-- The last step of a computation only makes its result. -/
theorem map {f : α → β} (hx : Exact x p post) (hf : ∀ a, post a → post' (f a)) :
    Exact (do return f (← x)) p post' :=
  (hx.bind fun _ a ha => pure (hf a ha)).iff (iff_of_eq (and_true p).symm)

end Exact

end GrooveIp.Lib
