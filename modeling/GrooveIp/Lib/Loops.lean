import Mathlib.Data.Set.List

/-!
# Bounded loops

A loop that may fault is a step that either goes on from a new state or leaves with a result. The
model runs it with fuel, and running out is a fault of its own; an invariant with a measure that
every round decreases shows that it never does.
-/

namespace GrooveIp.Lib

variable {ε σ ρ : Type}

/-- Repeat a step until it leaves with a result, at most `fuel` times. -/
def loop (out : ε) (step : σ → Except ε (σ ⊕ ρ)) : Nat → σ → Except ε ρ
  | 0, _ => .error out
  | fuel + 1, s =>
    match step s with
    | .error e => .error e
    | .ok (.inl s') => loop out step fuel s'
    | .ok (.inr r) => .ok r

/-- A loop whose invariant lets no round fault, and lets each one that goes on decrease a measure,
leaves with a result when the fuel covers the measure. -/
theorem loop_ok {out : ε} {step : σ → Except ε (σ ⊕ ρ)} (inv : σ → Prop) (post : ρ → Prop)
    (measure : σ → Nat)
    (hstep : ∀ s, inv s → (∃ s', step s = .ok (.inl s') ∧ inv s' ∧ measure s' < measure s) ∨
      ∃ r, step s = .ok (.inr r) ∧ post r)
    {fuel : Nat} {s : σ} (hs : inv s) (hfuel : measure s < fuel) :
    ∃ r, loop out step fuel s = .ok r ∧ post r := by
  induction fuel generalizing s with
  | zero => omega
  | succ fuel ih =>
    rw [loop]
    rcases hstep s hs with ⟨s', hgo, hinv, hlt⟩ | ⟨r, hleave, hpost⟩
    · rw [hgo]
      exact ih hinv (by omega)
    · rw [hleave]
      exact ⟨r, rfl, hpost⟩

/-! ### Loops over a list -/

variable {α β : Type} {f : α → Except ε β} {l : List α}

/-- A loop that does the same for every item of a list has a result when every item has. -/
theorem mapM_eq_ok_iff {bs : List β} : l.mapM f = .ok bs ↔ l.map f = bs.map .ok := by
  induction l generalizing bs with
  | nil => cases bs <;> simp [pure, Except.pure]
  | cons a l ih =>
    rw [List.mapM_cons, List.map_cons]
    cases hl : l.mapM f with
    | error e => cases ha : f a <;> cases bs <;> simp [bind, Except.bind, ← ih, hl]
    | ok rest =>
      cases ha : f a <;> cases bs <;> simp [bind, Except.bind, pure, Except.pure, ← ih, hl]

/-- Such a loop does not fault when no item lets it. -/
theorem exists_mapM_eq_ok (h : ∀ a ∈ l, ∃ b, f a = .ok b) : ∃ bs, l.mapM f = .ok bs := by
  have hrange : l.map f ∈ Set.range (List.map Except.ok) := by
    rw [Set.range_list_map]
    intro x hx
    obtain ⟨a, ha, rfl⟩ := List.mem_map.mp hx
    exact (h a ha).imp fun _ hb => hb.symm
  exact hrange.imp fun _ hbs => mapM_eq_ok_iff.mpr hbs.symm

/-- Every item has a result in such a loop. -/
theorem exists_of_mapM_eq_ok {bs : List β} (h : l.mapM f = .ok bs) {a : α} (ha : a ∈ l) :
    ∃ b, f a = .ok b := by
  have hmem := mapM_eq_ok_iff.mp h ▸ List.mem_map_of_mem ha
  obtain ⟨b, -, hb⟩ := List.mem_map.mp hmem
  exact ⟨b, hb.symm⟩

end GrooveIp.Lib
