import GrooveIp.Lib.Memory

/-!
# Computations with fuel

A recursive program that need not stop is run with fuel, and running out of it is the fault
`diverged`. More fuel then changes nothing but that: an outcome other than `diverged` is the
outcome for every larger fuel. The order below says so and passes through sequencing.
-/

namespace GrooveIp.Lib

variable {ε α β : Type}

/-- A sequence of two computations succeeds exactly when both do. -/
theorem bind_eq_ok {x : Except ε α} {f : α → Except ε β} {b : β} :
    (x >>= f) = .ok b ↔ ∃ a, x = .ok a ∧ f a = .ok b := by
  cases x with
  | error e => simp [bind, Except.bind]
  | ok a => simp [bind, Except.bind]

/-- A sequence of two computations faults in the first, or in the second after the first. -/
theorem bind_eq_error {x : Except ε α} {f : α → Except ε β} {e : ε} :
    (x >>= f) = .error e ↔ x = .error e ∨ ∃ a, x = .ok a ∧ f a = .error e := by
  cases x with
  | error e => simp [bind, Except.bind]
  | ok a => simp [bind, Except.bind]

@[simp] theorem ok_bind (a : α) (f : α → Except ε β) : (Except.ok a >>= f) = f a := rfl

@[simp] theorem error_bind (e : ε) (f : α → Except ε β) :
    (Except.error e >>= f) = Except.error e := rfl

/-- `y` is what `x` becomes with more fuel: the same outcome, unless `x` ran out. -/
def Extends (x y : Except Fault α) : Prop := x = .error .diverged ∨ y = x

namespace Extends

variable {x y : Except Fault α}

theorem refl (x : Except Fault α) : Extends x x := .inr rfl

theorem diverged (y : Except Fault α) : Extends (.error .diverged) y := .inl rfl

/-- Sequencing keeps the order. -/
theorem bind {f g : α → Except Fault β} (hx : Extends x y) (hf : ∀ a, Extends (f a) (g a)) :
    Extends (x >>= f) (y >>= g) := by
  rcases hx with rfl | rfl
  · exact diverged _
  · cases y with
    | error e => exact refl _
    | ok a => exact hf a

/-- A result stays a result. -/
theorem ok (h : Extends x y) {a : α} (hx : x = .ok a) : y = .ok a := by
  rcases h with h | h
  · rw [h] at hx
    cases hx
  · rw [h, hx]

/-- A fault other than running out stays that fault. -/
theorem error (h : Extends x y) {e : Fault} (he : e ≠ .diverged) (hx : x = .error e) :
    y = .error e := by
  rcases h with h | h
  · rw [h] at hx
    cases hx
    exact absurd rfl he
  · rw [h, hx]

end Extends

/-- Where `x` has a result, `y` has the same. -/
def Below (x y : Except ε α) : Prop := ∀ a, x = .ok a → y = .ok a

namespace Below

theorem refl (x : Except ε α) : Below x x := fun _ hx => hx

theorem error (e : ε) (y : Except ε α) : Below (.error e) y := by
  intro a ha
  cases ha

/-- Sequencing keeps the order. -/
theorem bind {x y : Except ε α} {f g : α → Except ε β} (hx : Below x y)
    (hf : ∀ a, Below (f a) (g a)) : Below (x >>= f) (y >>= g) := by
  intro b hb
  rw [bind_eq_ok] at hb
  obtain ⟨a, ha, hb⟩ := hb
  rw [hx a ha, ok_bind]
  exact hf a b hb

end Below

/-- A computation that keeps its outcome when it is given more fuel. -/
def Growing (run : Nat → Except Fault α) : Prop := ∀ n k, n ≤ k → Extends (run n) (run k)

/-- It is enough to look at one more unit of fuel. -/
theorem growing_of_succ {run : Nat → Except Fault α} (h : ∀ n, Extends (run n) (run (n + 1))) :
    Growing run := by
  intro n k hnk
  induction hnk with
  | refl => exact .refl _
  | @step k _ ih =>
    rcases ih with ih | ih
    · exact .inl ih
    · rw [← ih]
      exact h k

/-- Two outcomes of one growing computation that are results are the same result. -/
theorem Growing.unique {run : Nat → Except Fault α} (h : Growing run) {n k : Nat} {a b : α}
    (hn : run n = .ok a) (hk : run k = .ok b) : a = b := by
  rcases Nat.le_total n k with hle | hle
  · have := (h n k hle).ok hn
    rw [hk] at this
    exact (Except.ok.inj this).symm
  · have := (h k n hle).ok hk
    rw [hn] at this
    exact Except.ok.inj this

/-! ## Sequences of growing computations -/

section Sequence

variable {run : Nat → Except Fault α} {next : Nat → α → Except Fault β}

/-- No amount of fuel leads to a fault. -/
def Never (bad : Fault) (run : Nat → Except Fault α) : Prop := ∀ n, run n ≠ .error bad

/-- A sequence that never faults does not fault in the first computation. -/
theorem Never.head {bad : Fault} (h : Never bad fun n => run n >>= next n) : Never bad run := by
  intro n hn
  apply h n
  show (run n >>= next n) = .error bad
  rw [hn, error_bind]

/-- Nor in the second, after a result of the first. -/
theorem Never.tail {bad : Fault} (hbad : bad ≠ .diverged) (hrun : Growing run) {n : Nat} {a : α}
    (hnext : Growing fun n => next n a) (ha : run n = .ok a)
    (h : Never bad fun n => run n >>= next n) : Never bad fun n => next n a := by
  intro k hk
  apply h (max n k)
  show (run (max n k) >>= next (max n k)) = .error bad
  rw [(hrun n _ (by omega)).ok ha, ok_bind]
  exact (hnext k _ (by omega)).error hbad hk

end Sequence

end GrooveIp.Lib
