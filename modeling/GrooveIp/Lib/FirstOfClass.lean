import Mathlib.Data.List.Find
import Mathlib.Data.List.Nodup
import Mathlib.Data.List.Pairwise
import Mathlib.Order.Defs.LinearOrder

/-!
# Removing what the first of its class outranks

The elements of a list fall into classes by a key. A loop passes over the list and removes an
element when the first element of its class, looked up in what is left of the list, has a higher
rank. As the first of a class always stays, this is a filter; it leaves one element of every class
exactly when the first of each class outranks the others.
-/

namespace GrooveIp.Lib

open List

variable {α β κ ρ : Type} [DecidableEq κ] [LinearOrder ρ]

/-- The first element of the list in the class of an element. -/
def firstLike (key : α → κ) (l : List α) (a : α) : α :=
  (l.find? fun b => key b = key a).getD a

/-- What the first of its class does not outrank. -/
def survivors (key : α → κ) (rank : α → ρ) (l : List α) : List α :=
  l.filter fun a => ¬rank a < rank (firstLike key l a)

/-- The loop, between what it has kept and what is to come. -/
def pruneLoop (key : α → κ) (rank : α → ρ) (passed : List α) : List α → List α
  | [] => passed
  | a :: rest =>
    if rank a < rank (firstLike key (passed ++ a :: rest) a) then pruneLoop key rank passed rest
    else pruneLoop key rank (passed ++ [a]) rest

section First

variable {key : α → κ} {l : List α} {a b : α}

/-- It is in the class. -/
theorem key_firstLike : key (firstLike key l a) = key a := by
  unfold firstLike
  cases hfind : l.find? fun b => key b = key a with
  | none => rfl
  | some b => simpa using List.find?_some hfind

theorem firstLike_mem (ha : a ∈ l) : firstLike key l a ∈ l := by
  unfold firstLike
  cases hfind : l.find? fun b => key b = key a with
  | none => exact ha
  | some b => exact mem_of_find?_eq_some hfind

/-- A class has one first element. -/
theorem firstLike_eq_of_key (ha : a ∈ l) (h : key a = key b) :
    firstLike key l a = firstLike key l b := by
  unfold firstLike
  rw [h]
  cases hfind : l.find? fun c => key c = key b with
  | none =>
    have hnone := List.find?_eq_none.mp hfind a ha
    simp [h] at hnone
  | some c => rfl

theorem firstLike_firstLike (ha : a ∈ l) :
    firstLike key l (firstLike key l a) = firstLike key l a :=
  firstLike_eq_of_key (firstLike_mem ha) key_firstLike

theorem firstLike_append_cons (pre rest : List α) :
    firstLike key (pre ++ a :: rest) a = firstLike key pre a := by
  unfold firstLike
  rw [List.find?_append, List.find?_cons_of_pos (by simp)]
  cases pre.find? fun b => key b = key a <;> rfl

theorem firstLike_of_find? (rest : List α) (h : (l.find? fun c => key c = key a) = some b) :
    firstLike key (l ++ rest) b = b := by
  have hkey : key b = key a := by simpa using List.find?_some h
  unfold firstLike
  rw [hkey, List.find?_append, h]
  rfl

theorem firstLike_map (f : β → α) (l : List β) (b : β) :
    firstLike key (l.map f) (f b) = f (firstLike (fun c => key (f c)) l b) := by
  unfold firstLike
  rw [List.find?_map]
  change (Option.map f (l.find? fun c => key (f c) = key (f b))).getD (f b) = _
  cases l.find? fun c => key (f c) = key (f b) <;> rfl

theorem firstLike_congr {key' : α → κ} (h : ∀ b ∈ l, key' b = key b) (ha : a ∈ l) :
    firstLike key' l a = firstLike key l a := by
  unfold firstLike
  rw [h a ha, List.find?_congr fun b hb => by rw [h b hb]]

end First

section Loop

variable (key : α → κ) (rank : α → ρ)

theorem firstLike_survivors_append (pre rest : List α) (a : α) :
    firstLike key ((pre.filter fun b => ¬rank b < rank (firstLike key (pre ++ rest) b))) a =
      firstLike key pre a := by
  cases hfind : pre.find? fun b => key b = key a with
  | none =>
    have hnone : (pre.filter fun b => ¬rank b < rank (firstLike key (pre ++ rest) b)).find?
        (fun b => key b = key a) = none := by
      rw [List.find?_eq_none] at hfind ⊢
      exact fun b hb => hfind b (mem_of_mem_filter hb)
    unfold firstLike at hnone ⊢
    rw [hnone, hfind]
  | some b =>
    have first : firstLike key (pre ++ rest) b = b := firstLike_of_find? rest hfind
    obtain ⟨hb, front, back, rfl, hfront⟩ := List.find?_eq_some_iff_append.mp hfind
    have hkept : (((front ++ b :: back).filter fun c =>
          ¬rank c < rank (firstLike key (front ++ b :: back ++ rest) c)).find?
        fun c => key c = key a) = some b := by
      have stays :
          decide (¬rank b < rank (firstLike key (front ++ b :: back ++ rest) b)) = true := by
        rw [first]
        simp
      rw [filter_append, filter_cons, if_pos stays, List.find?_append,
        List.find?_eq_none.mpr fun c hc => by simpa using hfront c (mem_of_mem_filter hc),
        Option.none_or]
      exact List.find?_cons_of_pos hb
    unfold firstLike at hkept ⊢
    rw [hkept, hfind]

theorem pruneLoop_append (pre rest : List α) :
    pruneLoop key rank (pre.filter fun b => ¬rank b < rank (firstLike key (pre ++ rest) b)) rest =
      survivors key rank (pre ++ rest) := by
  induction rest generalizing pre with
  | nil => rw [pruneLoop, append_nil, survivors]
  | cons a rest ih =>
    have hnext := ih (pre ++ [a])
    rw [append_assoc, singleton_append, filter_append] at hnext
    rw [pruneLoop, firstLike_append_cons, firstLike_survivors_append key rank pre (a :: rest)]
    have hfirst : firstLike key (pre ++ a :: rest) a = firstLike key pre a :=
      firstLike_append_cons pre rest
    split
    · next hlt =>
      rwa [filter_cons_of_neg (by simpa [hfirst] using hlt), filter_nil, append_nil] at hnext
    · next hlt =>
      rwa [filter_cons_of_pos (by simpa [hfirst] using hlt), filter_nil] at hnext

/-- The loop removes what the first of its class outranks. -/
theorem pruneLoop_eq (l : List α) : pruneLoop key rank [] l = survivors key rank l :=
  pruneLoop_append key rank [] l

/-- The first element of the list stays, so something always does. -/
theorem not_outranked_head (a : α) (rest : List α) :
    ¬rank a < rank (firstLike key (a :: rest) a) := by
  rw [show firstLike key (a :: rest) a = a from firstLike_append_cons [] rest]
  exact lt_irrefl _

end Loop

section Survivors

variable {key : α → κ} {rank : α → ρ} {l : List α}

/-- Renaming the elements. -/
theorem survivors_map (f : β → α) (l : List β) : survivors key rank (l.map f) =
      (survivors (fun b => key (f b)) (fun b => rank (f b)) l).map f := by
  unfold survivors
  rw [filter_map]
  congr 1
  refine filter_congr fun b _ => ?_
  simp [firstLike_map]

/-- Only the keys and ranks of what is in the list matter. -/
theorem survivors_congr {key' : α → κ} {rank' : α → ρ} (hkey : ∀ a ∈ l, key' a = key a)
    (hrank : ∀ a ∈ l, rank' a = rank a) : survivors key' rank' l = survivors key rank l := by
  refine filter_congr fun a ha => ?_
  rw [firstLike_congr hkey ha, hrank a ha, hrank _ (firstLike_mem ha)]

/-- Every class keeps its first element. -/
theorem firstLike_mem_survivors {a : α} (ha : a ∈ l) :
    firstLike key l a ∈ survivors key rank l := by
  rw [survivors, mem_filter, firstLike_firstLike ha]
  exact ⟨firstLike_mem ha, by simp⟩

/-- One element of every class is left exactly when the firsts outrank the others. -/
theorem survivors_pairwise_iff (hnd : l.Nodup) :
    ((survivors key rank l).Pairwise fun a b => key a ≠ key b) ↔
      ∀ a ∈ l, firstLike key l a = a ∨ rank a < rank (firstLike key l a) := by
  constructor
  · intro hdistinct a ha
    by_contra hnot
    rw [not_or] at hnot
    have symm : Std.Symm fun a b => key a ≠ key b := ⟨fun _ _ h => h.symm⟩
    have hmem : a ∈ survivors key rank l := mem_filter.mpr ⟨ha, by simpa using hnot.2⟩
    exact hdistinct.forall (firstLike_mem_survivors ha) hmem hnot.1 key_firstLike
  · intro hfirst
    have first : ∀ a ∈ survivors key rank l, a ∈ l ∧ firstLike key l a = a := by
      intro a ha
      have hkept := mem_filter.mp ha
      exact ⟨hkept.1, (hfirst a hkept.1).resolve_right (by simpa using hkept.2)⟩
    refine (hnd.filter _).pairwise_of_forall_ne fun a ha b hb hne hkey => hne ?_
    calc a = firstLike key l a := (first a ha).2.symm
      _ = firstLike key l b := firstLike_eq_of_key (first a ha).1 hkey
      _ = b := (first b hb).2

variable [DecidableEq α]

/-- Then what is left are the firsts. -/
theorem survivors_eq_firsts
    (hfirst : ∀ a ∈ l, firstLike key l a = a ∨ rank a < rank (firstLike key l a)) :
    survivors key rank l = l.filter fun a => firstLike key l a = a := by
  refine filter_congr fun a ha => ?_
  rcases hfirst a ha with heq | hlt
  · simp [heq]
  · have hne : firstLike key l a ≠ a := fun heq => lt_irrefl _ (heq ▸ hlt)
    simp [hlt, hne]

end Survivors

end GrooveIp.Lib
