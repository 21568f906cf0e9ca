import Mathlib.Data.List.Forall2
import Mathlib.Logic.Function.Basic
import Mathlib.Data.List.Nodup

/-!
# Rings of linked cells

A doubly linked list that closes over a fixed cell, its stopper: each cell names the one before
and the one behind it, and either may be null. A ring of cells stands for the list of them in
order, and inserting before a cell or unlinking the first one does to the list what it should.
-/

namespace GrooveIp.Lib

open List
open List (Forall₂)

variable {α β : Type}

theorem forall₂_append_iff {R : α → β → Prop} {xs xs' : List α} {ys ys' : List β}
    (h : xs.length = ys.length) :
    Forall₂ R (xs ++ xs') (ys ++ ys') ↔ Forall₂ R xs ys ∧ Forall₂ R xs' ys' := by
  induction xs generalizing ys with
  | nil =>
    obtain rfl : ys = [] := eq_nil_of_length_eq_zero h.symm
    simp
  | cons x xs ih =>
    cases ys with
    | nil => cases h
    | cons y ys =>
      have hlen : xs.length = ys.length := Nat.succ.inj h
      rw [cons_append, cons_append, forall₂_cons, forall₂_cons, ih hlen, and_assoc]

theorem forall₂_imp_mem {R S : α → β → Prop} {xs : List α} {ys : List β}
    (h : ∀ x ∈ xs, ∀ y ∈ ys, R x y → S x y) (hr : Forall₂ R xs ys) : Forall₂ S xs ys := by
  induction hr with
  | nil => exact .nil
  | cons hxy _ ih =>
    refine .cons (h _ mem_cons_self _ mem_cons_self hxy) (ih fun x hx y hy => ?_)
    exact h x (mem_cons_of_mem _ hx) y (mem_cons_of_mem _ hy)

/-- The two links of every cell. -/
structure Links (α : Type) where
  next : α → Option α
  prev : α → Option α

namespace Links

variable [DecidableEq α]

/-- `a->next = b`. -/
def setNext (m : Links α) (a : α) (b : Option α) : Links α :=
  { m with next := Function.update m.next a b }

/-- `a->prev = b`. -/
def setPrev (m : Links α) (a : α) (b : Option α) : Links α :=
  { m with prev := Function.update m.prev a b }

/-- `mp` is linked in before `e`; a null link stops it. -/
def insertBefore (m : Links α) (e mp : α) : Option (Links α) :=
  (m.prev e).map fun p =>
    (((m.setNext p (some mp)).setPrev mp (some p)).setPrev e (some mp)).setNext mp (some e)

/-- The cell `a` behind the stopper is unlinked and its links are cleared; a null link stops
it. -/
def unlinkFirst (m : Links α) (s a : α) : Option (Links α) :=
  (m.next a).map fun e =>
    (((m.setNext s (some e)).setPrev e (some s)).setPrev a none).setNext a none

omit [DecidableEq α] in
/-- Two cells that follow one another. -/
def Linked (m : Links α) (a b : α) : Prop := m.next a = some b ∧ m.prev b = some a

omit [DecidableEq α] in
/-- The cells of `l` in order close over the stopper `s`. -/
structure Ring (m : Links α) (s : α) (l : List α) : Prop where
  nodup : (s :: l).Nodup
  linked : Forall₂ m.Linked (s :: l) (l ++ [s])

section Reading

omit [DecidableEq α]

variable {m : Links α} {s : α} {l₁ l₂ : List α}

theorem Ring.cut (h : m.Ring s (l₁ ++ l₂)) :
    ∃ xs ys, xs.length = l₁.length ∧ s :: l₁ = xs ++ [l₁.getLastD s] ∧ l₂ ++ [s] = l₂.headD s :: ys ∧
      Forall₂ m.Linked xs l₁ ∧ m.Linked (l₁.getLastD s) (l₂.headD s) ∧
      Forall₂ m.Linked l₂ ys := by
  obtain ⟨xs, hxs⟩ : ∃ xs, s :: l₁ = xs ++ [l₁.getLastD s] := by
    rcases eq_nil_or_concat l₁ with rfl | ⟨l, p, rfl⟩
    · exact ⟨[], rfl⟩
    · exact ⟨s :: l, by simp⟩
  obtain ⟨ys, hys⟩ : ∃ ys, l₂ ++ [s] = l₂.headD s :: ys := by
    cases l₂ with
    | nil => exact ⟨[], rfl⟩
    | cons e l => exact ⟨l ++ [s], rfl⟩
  have hlen : xs.length = l₁.length := by
    have := congrArg List.length hxs
    simp only [length_cons, length_append, length_nil] at this
    omega
  have hlinked := h.linked
  rw [← cons_append, hxs, append_assoc, append_assoc, hys,
    forall₂_append_iff hlen, singleton_append, forall₂_cons] at hlinked
  exact ⟨xs, ys, hlen, hxs, hys, hlinked.1, hlinked.2.1, hlinked.2.2⟩

theorem Ring.meet (l₁ l₂ : List α) (h : m.Ring s (l₁ ++ l₂)) : m.Linked (l₁.getLastD s) (l₂.headD s) := by
  obtain ⟨-, -, -, -, -, -, hmeet, -⟩ := h.cut
  exact hmeet

variable {l : List α}

/-- The cell behind the stopper. -/
theorem Ring.next_stopper (h : m.Ring s l) : m.next s = some (l.headD s) :=
  (Ring.meet [] l h).1

/-- The cell before the stopper. -/
theorem Ring.prev_stopper (h : m.Ring s l) : m.prev s = some (l.getLastD s) :=
  (Ring.meet l [] (by rwa [append_nil])).2

/-- The cell behind a cell of the list. -/
theorem Ring.next_cell {x : α} (h : m.Ring s (l₁ ++ x :: l₂)) : m.next x = some (l₂.headD s) := by
  have hmeet := Ring.meet (l₁ ++ [x]) l₂ (by simpa using h)
  simpa using hmeet.1

/-- The cell before a cell of the list. -/
theorem Ring.prev_cell {x : α} (h : m.Ring s (l₁ ++ x :: l₂)) :
    m.prev x = some (l₁.getLastD s) := (Ring.meet l₁ (x :: l₂) h).2

theorem eq_of_linked {a : α} {l' : List α} (h : Forall₂ m.Linked (a :: l) (l ++ [s]))
    (h' : Forall₂ m.Linked (a :: l') (l' ++ [s])) (hs : s ∉ l) (hs' : s ∉ l') : l = l' := by
  induction l generalizing a l' with
  | nil =>
    cases l' with
    | nil => rfl
    | cons b l' =>
      obtain rfl : s = b := Option.some.inj ((forall₂_cons.mp h).1.1.symm.trans
        (forall₂_cons.mp h').1.1)
      exact absurd mem_cons_self hs'
  | cons b l ih =>
    cases l' with
    | nil =>
      obtain rfl : b = s := Option.some.inj ((forall₂_cons.mp h).1.1.symm.trans
        (forall₂_cons.mp h').1.1)
      exact absurd mem_cons_self hs
    | cons c l' =>
      obtain ⟨hb, hrest⟩ := forall₂_cons.mp h
      obtain ⟨hc, hrest'⟩ := forall₂_cons.mp h'
      obtain rfl : b = c := Option.some.inj (hb.1.symm.trans hc.1)
      rw [ih hrest hrest' (fun hm => hs (mem_cons_of_mem _ hm))
        fun hm => hs' (mem_cons_of_mem _ hm)]

/-- A ring stands for one list only. -/
theorem Ring.unique {l' : List α} (h : m.Ring s l) (h' : m.Ring s l') : l = l' :=
  eq_of_linked h.linked h'.linked (nodup_cons.mp h.nodup).1 (nodup_cons.mp h'.nodup).1

end Reading

/-! ## Changing a ring -/

section Changing

variable {m : Links α} {s : α}

/-- The empty ring. -/
theorem ring_nil (m : Links α) (s : α) : ((m.setNext s (some s)).setPrev s (some s)).Ring s [] where
  nodup := nodup_singleton s
  linked := .cons ⟨Function.update_self .., Function.update_self ..⟩ .nil

omit [DecidableEq α] in
theorem Ring.nodup_concat {l : List α} (h : m.Ring s l) : (l ++ [s]).Nodup :=
  (perm_append_singleton s l).nodup_iff.mpr h.nodup

theorem Linked.insertBefore {a b e p mp : α} (h : m.Linked a b) (hap : a ≠ p) (hamp : a ≠ mp)
    (hbe : b ≠ e) (hbmp : b ≠ mp) :
    ((((m.setNext p (some mp)).setPrev mp (some p)).setPrev e (some mp)).setNext mp
      (some e)).Linked a b := by
  simp [Linked, setNext, setPrev, hap, hamp, hbe, hbmp, h.1, h.2]

/-- Linking in a cell before the second half puts it between the halves. -/
theorem Ring.insertBefore {l₁ l₂ : List α} (h : m.Ring s (l₁ ++ l₂)) {mp : α}
    (hmp : mp ∉ s :: (l₁ ++ l₂)) :
    ∃ m', m.insertBefore (l₂.headD s) mp = some m' ∧ m'.Ring s (l₁ ++ mp :: l₂) := by
  obtain ⟨xs, ys, hlen, hxs, hys, hleft, hmeet, hright⟩ := h.cut
  have hnodup : ((s :: l₁) ++ mp :: l₂).Nodup :=
    nodup_middle.mpr (nodup_cons.mpr ⟨hmp, h.nodup⟩)
  have hmp' : mp ∉ l₁ ++ l₂ ++ [s] :=
    fun hmem => hmp ((perm_append_singleton s _).mem_iff.mp hmem)
  have hfront : (xs ++ [l₁.getLastD s] ++ l₂).Nodup := hxs ▸ h.nodup
  have hback : (l₁ ++ l₂.headD s :: ys).Nodup := by
    rw [← hys, ← append_assoc]
    exact h.nodup_concat
  rw [← cons_append, hxs] at hmp
  rw [append_assoc, hys] at hmp'
  generalize l₁.getLastD s = p at *
  generalize l₂.headD s = e at *
  simp only [mem_append, mem_cons, not_mem_nil, or_false, not_or] at hmp hmp'
  obtain ⟨⟨hmpxs, hmpp⟩, hmpl₂⟩ := hmp
  obtain ⟨hmpl₁, hmpe, hmpys⟩ := hmp'
  rw [append_assoc, singleton_append] at hfront
  refine ⟨_, by rw [Links.insertBefore, hmeet.2]; rfl, hnodup, ?_⟩
  rw [← cons_append, hxs, append_assoc, append_assoc, singleton_append,
    cons_append, hys, forall₂_append_iff hlen, forall₂_cons, forall₂_cons]
  refine ⟨forall₂_imp_mem (fun x hx y hy hxy => ?_) hleft, ⟨?_, ?_⟩, ⟨?_, ?_⟩,
    forall₂_imp_mem (fun x hx y hy hxy => ?_) hright⟩
  · refine hxy.insertBefore ?_ (ne_of_mem_of_not_mem hx hmpxs) ?_ (ne_of_mem_of_not_mem hy hmpl₁)
    · exact fun he => (nodup_append.mp hfront).2.2 x hx p mem_cons_self he
    · exact fun he => (nodup_append.mp hback).2.2 y hy e mem_cons_self he
  · simp [setNext, setPrev, Ne.symm hmpp]
  · simp [setNext, setPrev, hmpe]
  · simp [setNext, setPrev]
  · simp [setNext, setPrev]
  · refine hxy.insertBefore ?_ (ne_of_mem_of_not_mem hx hmpl₂) ?_ (ne_of_mem_of_not_mem hy hmpys)
    · rintro rfl
      exact (nodup_cons.mp (nodup_append.mp hfront).2.1).1 hx
    · rintro rfl
      exact (nodup_cons.mp (nodup_append.mp hback).2.1).1 hy

theorem Linked.unlinkFirst {x y a e : α} (h : m.Linked x y) (hxs : x ≠ s) (hxa : x ≠ a)
    (hye : y ≠ e) (hya : y ≠ a) :
    ((((m.setNext s (some e)).setPrev e (some s)).setPrev a none).setNext a none).Linked x y := by
  simp [Linked, setNext, setPrev, hxs, hxa, hye, hya, h.1, h.2]

/-- Unlinking the first cell takes it off the list. -/
theorem Ring.unlinkFirst {a : α} {l : List α} (h : m.Ring s (a :: l)) :
    ∃ m', m.unlinkFirst s a = some m' ∧ m'.Ring s l := by
  obtain ⟨ys, hys⟩ : ∃ ys, l ++ [s] = l.headD s :: ys := by
    cases l with
    | nil => exact ⟨[], rfl⟩
    | cons e l => exact ⟨l ++ [s], rfl⟩
  have hlinked := h.linked
  have hback : (a :: l.headD s :: ys).Nodup := hys ▸ h.nodup_concat
  have hnodup : (s :: l).Nodup := (perm_append_singleton s l).nodup_iff.mp
    (nodup_cons.mp h.nodup_concat).2
  have hsa : s ≠ a := fun he => (nodup_cons.mp h.nodup).1 (he ▸ mem_cons_self)
  have hal : a ∉ l := (nodup_cons.mp (nodup_cons.mp h.nodup).2).1
  rw [cons_append, hys, forall₂_cons, forall₂_cons] at hlinked
  obtain ⟨-, hmeet, hrest⟩ := hlinked
  generalize l.headD s = e at *
  obtain ⟨haeys, heys⟩ := nodup_cons.mp hback
  simp only [mem_cons, not_or] at haeys
  refine ⟨_, by rw [Links.unlinkFirst, hmeet.1]; rfl, hnodup, ?_⟩
  rw [hys, forall₂_cons]
  refine ⟨⟨?_, ?_⟩, forall₂_imp_mem (fun x hx y hy hxy => ?_) hrest⟩
  · simp [setNext, setPrev, hsa]
  · simp [setNext, setPrev, Ne.symm haeys.1]
  · refine hxy.unlinkFirst ?_ (ne_of_mem_of_not_mem hx hal) ?_ (ne_of_mem_of_not_mem hy haeys.2)
    · rintro rfl
      exact (nodup_cons.mp hnodup).1 hx
    · rintro rfl
      exact (nodup_cons.mp heys).1 hy

end Changing

end Links

end GrooveIp.Lib
