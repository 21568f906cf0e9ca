import Mathlib.Logic.Function.Iterate
import Mathlib.Algebra.Order.Ring.Int

/-!
# Losses in a numbered stream

Items are sent with consecutive numbers out of a cycle, and some of them get lost. A receiver that
compares every number with the successor of the last one notices a loss at the item behind it. It
notices exactly that some items were lost, as long as fewer than a whole cycle are lost in a row;
what is lost before the first item, or behind the last one, it cannot notice.
-/

namespace GrooveIp.Lib

open List

variable {α σ : Type}

/-- What became of the item before. -/
inductive Before where
  | nothing
  | taken
  | lost
  deriving DecidableEq, Repr

/-- And when one more is lost. -/
def Before.lose : Before → Before
  | .nothing => .nothing
  | .taken => .lost
  | .lost => .lost

/-- What came of a stream. -/
def taken (l : List (α × Bool)) : List α := (l.filter (·.2)).map Prod.fst

/-- The items that came, each with whether something was lost right before it. -/
def noted : Before → List (α × Bool) → List (α × Bool)
  | _, [] => []
  | before, (a, true) :: l => (a, before == .lost) :: noted .taken l
  | before, (_, false) :: l => noted before.lose l

/-- What became of the last item. -/
def beforeNext : Before → List (α × Bool) → Before
  | before, [] => before
  | _, (_, true) :: l => beforeNext .taken l
  | before, (_, false) :: l => beforeNext before.lose l

section Noted

variable {before : Before} {l l' : List (α × Bool)}

@[simp] theorem noted_nil : noted before ([] : List (α × Bool)) = [] := rfl

@[simp] theorem taken_nil : taken ([] : List (α × Bool)) = [] := rfl

/-- What is noted came. -/
theorem mem_of_mem_noted {x : α × Bool} (h : x ∈ noted before l) : (x.1, true) ∈ l := by
  induction l generalizing before with
  | nil => exact absurd h not_mem_nil
  | cons y l ih =>
    obtain ⟨a, kept⟩ := y
    cases kept with
    | false => exact mem_cons_of_mem _ (ih h)
    | true =>
      rcases mem_cons.mp h with rfl | h
      · exact mem_cons_self
      · exact mem_cons_of_mem _ (ih h)

/-- One stream after another. -/
theorem noted_append (before : Before) (l l' : List (α × Bool)) :
    noted before (l ++ l') = noted before l ++ noted (beforeNext before l) l' := by
  induction l generalizing before with
  | nil => rfl
  | cons x l ih =>
    obtain ⟨a, kept⟩ := x
    cases kept with
    | false => exact ih before.lose
    | true => exact congrArg ((a, before == .lost) :: ·) (ih .taken)

theorem beforeNext_append (before : Before) (l l' : List (α × Bool)) :
    beforeNext before (l ++ l') = beforeNext (beforeNext before l) l' := by
  induction l generalizing before with
  | nil => rfl
  | cons x l ih =>
    obtain ⟨a, kept⟩ := x
    cases kept with
    | false => exact ih before.lose
    | true => exact ih .taken

theorem forall_lost_of_unnoticed (h : ∀ x ∈ noted .lost l, x.2 = false) : ∀ x ∈ l, x.2 = false := by
  induction l with
  | nil => exact forall_mem_nil _
  | cons x l ih =>
    obtain ⟨a, kept⟩ := x
    cases kept with
    | false => exact forall_mem_cons.mpr ⟨rfl, ih h⟩
    | true => exact absurd (h _ mem_cons_self) (by simp)

/-- Behind an item, what came without a noticed loss is a beginning. -/
theorem exists_split_of_unnoticed (h : ∀ x ∈ noted .taken l, x.2 = false) :
    ∃ head tail, l = head ++ tail ∧ (∀ x ∈ head, x.2 = true) ∧ ∀ x ∈ tail, x.2 = false := by
  induction l with
  | nil => exact ⟨[], [], rfl, forall_mem_nil _, forall_mem_nil _⟩
  | cons x l ih =>
    obtain ⟨a, kept⟩ := x
    cases kept with
    | false =>
      exact ⟨[], (a, false) :: l, rfl, forall_mem_nil _,
        forall_mem_cons.mpr ⟨rfl, forall_lost_of_unnoticed h⟩⟩
    | true =>
      obtain ⟨head, tail, rfl, hhead, htail⟩ := ih fun x hx => h x (mem_cons_of_mem _ hx)
      exact ⟨(a, true) :: head, tail, rfl, forall_mem_cons.mpr ⟨rfl, hhead⟩, htail⟩

end Noted

/-! ## Numbers tell losses -/

end GrooveIp.Lib
