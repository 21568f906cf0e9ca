import Mathlib.Data.Fintype.EquivFin
import Mathlib.Order.WellFounded
import GrooveIp.Belr.Grammar

/-!
# Left recursion

Which recognizers a recognizer may try at the position it is fed at itself: what stands at its
left edge. A grammar without left recursion has no cycle there, and as it is finite, induction
along the left edges is sound.
-/

namespace GrooveIp.Belr

/-- A recognizer that may match the empty string. A selector never does: an empty match counts as
none. -/
inductive MayBeEmpty (h : Heap) : Ref → Prop where
  | literal {r : Ref} : h.node? r = some (.literal []) → MayBeEmpty h r
  | sequence {r : Ref} {es : List Ref} :
    h.node? r = some (.sequence es) → (∀ e ∈ es, MayBeEmpty h e) → MayBeEmpty h r
  | noRound {r e : Ref} {min max : Int} :
    h.node? r = some (.loop e min max) → min ≤ 0 → MayBeEmpty h r
  | emptyRound {r e : Ref} {min max : Int} :
    h.node? r = some (.loop e min max) → MayBeEmpty h e → MayBeEmpty h r
  | pointer {r q : Ref} :
    h.node? r = some (.recognizerPointer (some q)) → MayBeEmpty h q → MayBeEmpty h r
  | aliased {r q : Ref} :
    h.node? r = some (.recognizerAlias (some q)) → MayBeEmpty h q → MayBeEmpty h r

/-- `e` may be tried where `r` is fed. -/
inductive LeftEdge (h : Heap) : Ref → Ref → Prop where
  | selector {r e : Ref} {c x : Bool} {es : List Ref} :
    h.node? r = some (.selector c es x) → e ∈ es → LeftEdge h r e
  | sequence {r e : Ref} {before after : List Ref} :
    h.node? r = some (.sequence (before ++ e :: after)) → (∀ b ∈ before, MayBeEmpty h b) →
    LeftEdge h r e
  | loop {r e : Ref} {min max : Int} : h.node? r = some (.loop e min max) → LeftEdge h r e
  | pointer {r q : Ref} : h.node? r = some (.recognizerPointer (some q)) → LeftEdge h r q
  | aliased {r q : Ref} : h.node? r = some (.recognizerAlias (some q)) → LeftEdge h r q

/-- No recognizer stands at its own left edge. -/
def Heap.NoLeftRecursion (h : Heap) : Prop := ∀ r, ¬ Relation.TransGen (LeftEdge h) r r

/-- Induction along the left edges. -/
theorem Heap.NoLeftRecursion.induction {h : Heap} (hl : h.NoLeftRecursion) {P : Ref → Prop}
    (hstep : ∀ r, r < h.length → (∀ e, e < h.length → LeftEdge h r e → P e) → P r) {r : Ref}
    (hr : r < h.length) : P r := by
  let under : Fin h.length → Fin h.length → Prop :=
    fun a b => Relation.TransGen (LeftEdge h) b.1 a.1
  have hirrefl : Std.Irrefl under := ⟨fun a ha => hl a.1 ha⟩
  have hwf : WellFounded under := Finite.wellFounded_of_trans_of_irrefl _
  have hall : ∀ a : Fin h.length, P a.1 := by
    intro a
    induction a using hwf.induction with
    | _ a ih =>
      apply hstep a.1 a.2
      intro e he hedge
      exact ih ⟨e, he⟩ (.single hedge)
  exact hall ⟨r, hr⟩

end GrooveIp.Belr
