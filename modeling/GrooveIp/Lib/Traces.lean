/-!
# Traces of transitions with output

A transition takes a state to a state and puts out a list. Its traces are the finite sequences of
transitions, with what they put out in order. An invariant of the transitions, also one that
depends on what was put out so far, is one of their traces.
-/

namespace GrooveIp.Lib

variable {σ ο : Type}

/-- The finite sequences of transitions. -/
inductive Trace (step : σ → List ο → σ → Prop) : σ → List ο → σ → Prop where
  | refl (s : σ) : Trace step s [] s
  | tail {s s' s'' : σ} {out out' : List ο} :
      Trace step s out s' → step s' out' s'' → Trace step s (out ++ out') s''

namespace Trace

variable {step step' : σ → List ο → σ → Prop} {s s' s'' : σ} {out out' : List ο}

/-- One transition. -/
theorem single (h : step s out s') : Trace step s out s' := by
  simpa using (refl s).tail h

/-- Traces compose, and so does what they put out. -/
theorem trans (h : Trace step s out s') (h' : Trace step s' out' s'') :
    Trace step s (out ++ out') s'' := by
  induction h' with
  | refl => simpa using h
  | tail _ hs ih =>
    rw [← List.append_assoc]
    exact ih.tail hs

/-- A trace of silent transitions before another trace. -/
theorem silent_trans (h : Trace step s [] s') (h' : Trace step s' out s'') : Trace step s out s'' :=
  h.trans h'

/-- A trace of silent transitions after another trace. -/
theorem trans_silent (h : Trace step s out s') (h' : Trace step s' [] s'') :
    Trace step s out s'' := by
  simpa using h.trans h'

/-- More transitions have more traces. -/
theorem mono (hstep : ∀ {s out s'}, step s out s' → step' s out s') (h : Trace step s out s') :
    Trace step' s out s' := by
  induction h with
  | refl => exact refl _
  | tail _ hs ih => exact ih.tail (hstep hs)

/-- What every transition keeps, a trace keeps. -/
theorem preserves (h : Trace step s out s') (inv : σ → Prop)
    (hstep : ∀ {s out s'}, inv s → step s out s' → inv s') (hs : inv s) : inv s' := by
  induction h with
  | refl => exact hs
  | tail _ hstep' ih => exact hstep ih hstep'

/-- What every transition keeps of a state and of what was put out before it, a trace keeps. -/
theorem preserves_output (h : Trace step s out s') (inv : σ → List ο → Prop) (past : List ο)
    (hstep : ∀ {s past out s'}, inv s past → step s out s' → inv s' (past ++ out))
    (hs : inv s past) : inv s' (past ++ out) := by
  induction h with
  | refl => simpa using hs
  | tail _ hstep' ih =>
    rw [← List.append_assoc]
    exact hstep ih hstep'

end Trace

end GrooveIp.Lib
