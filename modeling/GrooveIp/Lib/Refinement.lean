/-!
# Runs that refine an abstract run

A step that may fault, next to an abstract step that does not. When every allowed step keeps a relation
between the two states, a run of allowed steps does not fault and ends in related states.
-/

namespace GrooveIp.Lib

variable {σ ω α ε : Type} {allowed : ω → α → Prop} {next : ω → α → ω}

/-- Each step of a run is allowed in the abstract state before it. -/
def AllowedRun (allowed : ω → α → Prop) (next : ω → α → ω) : ω → List α → Prop
  | _, [] => True
  | w, a :: as => allowed w a ∧ AllowedRun allowed next (next w a) as

/-- The rule for runs: what an allowed step refines, an allowed run refines. -/
theorem foldlM_refines {step : σ → α → Except ε σ} (rel : ω → σ → Prop)
    (hstep : ∀ w s a, rel w s → allowed w a → ∃ s', step s a = .ok s' ∧ rel (next w a) s')
    {w : ω} {s : σ} (h : rel w s) {as : List α} (has : AllowedRun allowed next w as) :
    ∃ s', as.foldlM step s = .ok s' ∧ rel (as.foldl next w) s' := by
  induction as generalizing w s with
  | nil => exact ⟨s, rfl, h⟩
  | cons a as ih =>
    obtain ⟨s', hs', h'⟩ := hstep _ _ _ h has.1
    obtain ⟨last, hlast, hrel⟩ := ih h' has.2
    exact ⟨last, by rw [List.foldlM_cons, hs']; exact hlast, hrel⟩

end GrooveIp.Lib
