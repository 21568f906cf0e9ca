import Mathlib.Data.List.Count
import Mathlib.Logic.Function.Basic

/-!
# Indexes of what their owners have

Owners have keys, the same key more than once or several owners the same one, and an index gives the
owners under a key in the order in which they were put there. The index covers the owners when it
says nothing else than what they have, and says it often enough.
-/

namespace GrooveIp.Lib

open List Function

variable {K O : Type} [BEq K] [LawfulBEq K] [DecidableEq O]

/-- The index is about the owners and the keys that they have. -/
structure Covers (owners : List O) (keys : O → List K) (index : K → List O) : Prop where
  sound : ∀ key, ∀ owner ∈ index key, owner ∈ owners ∧ key ∈ keys owner
  complete : ∀ owner ∈ owners, ∀ key, (keys owner).count key ≤ (index key).count owner

namespace Covers

variable {owners : List O} {keys : O → List K} {index : K → List O}

/-- What is found first under a key has it, and where nothing is found nobody has it. -/
theorem head? (h : Covers owners keys index) (key : K) :
    (∀ owner, (index key).head? = some owner → owner ∈ owners ∧ key ∈ keys owner) ∧
      ((index key).head? = none → ∀ owner ∈ owners, key ∉ keys owner) := by
  constructor
  · intro owner hhead
    exact h.sound key owner (mem_of_head? hhead)
  · intro hnone owner howner hkey
    have hcount := h.complete owner howner key
    rw [List.head?_eq_none_iff.mp hnone, count_nil] at hcount
    exact absurd (count_pos_iff.mpr hkey) (by omega)

/-- Only how often an owner has a key counts. -/
theorem congr {keys' : O → List K} (h : Covers owners keys index)
    (hkeys : ∀ owner ∈ owners, ∀ key, (keys' owner).count key = (keys owner).count key) :
    Covers owners keys' index where
  sound key owner hmem := by
    have hsound := h.sound key owner hmem
    refine ⟨hsound.1, count_pos_iff.mp ?_⟩
    rw [hkeys owner hsound.1]
    exact count_pos_iff.mpr hsound.2
  complete owner howner key :=
    Nat.le_trans (Nat.le_of_eq (hkeys owner howner key)) (h.complete owner howner key)

omit [LawfulBEq K] in
/-- Owners come and go that have nothing. -/
theorem transfer {owners' : List O} {keys' : O → List K} (h : Covers owners keys index)
    (hstay : ∀ owner ∈ owners, keys owner ≠ [] → owner ∈ owners' ∧ keys' owner = keys owner)
    (hfrom : ∀ owner ∈ owners', keys' owner = [] ∨ (owner ∈ owners ∧ keys' owner = keys owner)) :
    Covers owners' keys' index where
  sound key owner hmem := by
    have hsound := h.sound key owner hmem
    have hstays := hstay owner hsound.1 (ne_nil_of_mem hsound.2)
    exact ⟨hstays.1, hstays.2.symm ▸ hsound.2⟩
  complete owner howner key := by
    rcases hfrom owner howner with hnone | ⟨hmem, hkeys⟩
    · rw [hnone]
      exact Nat.zero_le _
    · rw [hkeys]
      exact h.complete owner hmem key

variable {owner : O}

omit [LawfulBEq K] in
/-- A new owner has nothing at first. -/
theorem enter (h : Covers owners keys index) (hnew : owner ∉ owners) :
    Covers (owner :: owners) (update keys owner []) index where
  sound key other hmem := by
    have hsound := h.sound key other hmem
    have hne : other ≠ owner := by
      rintro rfl
      exact hnew hsound.1
    refine ⟨mem_cons_of_mem owner hsound.1, ?_⟩
    rw [update_of_ne hne]
    exact hsound.2
  complete other hmem key := by
    by_cases hne : other = owner
    · subst hne
      simp
    · rw [update_of_ne hne]
      exact h.complete other ((mem_cons.mp hmem).resolve_left hne) key

/-- A key that an owner is given. -/
theorem give [DecidableEq K] (h : Covers owners keys index) (howner : owner ∈ owners)
    (key : K) : Covers owners (update keys owner (keys owner ++ [key]))
      (fun key' => index key' ++ if key = key' then [owner] else []) where
  sound key' other hmem := by
    rcases mem_append.mp hmem with hmem | hmem
    · have hsound := h.sound key' other hmem
      refine ⟨hsound.1, ?_⟩
      by_cases hne : other = owner
      · subst hne
        rw [update_self]
        exact mem_append_left _ hsound.2
      · rw [update_of_ne hne]
        exact hsound.2
    · split at hmem
      · next heq =>
        obtain rfl := mem_singleton.mp hmem
        refine ⟨howner, ?_⟩
        rw [update_self, ← heq]
        exact mem_append_right _ (mem_singleton.mpr rfl)
      · cases hmem
  complete other hmem key' := by
    have hcomplete := h.complete other hmem key'
    rw [count_append]
    by_cases hne : other = owner
    · subst hne
      by_cases heq : key = key' <;> simp [heq] <;> omega
    · rw [update_of_ne hne]
      omega

omit [LawfulBEq K] in
/-- A key that an owner has is put under it once more. -/
theorem surplus [DecidableEq K] (h : Covers owners keys index) (howner : owner ∈ owners)
    {key : K} (hkey : key ∈ keys owner) :
    Covers owners keys (fun key' => index key' ++ if key = key' then [owner] else []) where
  sound key' other hmem := by
    rcases mem_append.mp hmem with hmem | hmem
    · exact h.sound key' other hmem
    · split at hmem
      · next heq =>
        obtain rfl := mem_singleton.mp hmem
        exact ⟨howner, heq ▸ hkey⟩
      · cases hmem
  complete other hmem key' := by
    rw [count_append]
    exact Nat.le_add_right_of_le (h.complete other hmem key')

/-- What is first under a key goes, and is the owner's: either the owner keeps the key, or nothing
else is there of the owner. -/
theorem take [DecidableEq K] (h : Covers owners keys index) {key : K}
    (hfirst : (index key).head? = some owner)
    (halone : 1 < (keys owner).count key ∨ (index key).count owner = 1) :
    Covers owners (update keys owner ((keys owner).erase key))
      (fun key' => if key = key' then (index key').tail else index key') where
  sound key' other hmem := by
    have hindex : other ∈ index key' := by
      split at hmem
      · exact mem_of_mem_tail hmem
      · exact hmem
    have hsound := h.sound key' other hindex
    refine ⟨hsound.1, ?_⟩
    by_cases hne : other = owner
    · subst hne
      rw [update_self, ← count_pos_iff, count_erase]
      have hpos := count_pos_iff.mpr hsound.2
      by_cases heq : key = key'
      · subst heq
        rw [if_pos rfl] at hmem
        have htail : (index key).count other = (index key).tail.count other + 1 := by
          obtain ⟨rest, hrest⟩ := List.head?_eq_some_iff.mp hfirst
          simp [hrest]
        have hmany := count_pos_iff.mpr hmem
        rcases halone with halone | halone
        · simp only [beq_self_eq_true, if_true]
          omega
        · omega
      · simp only [beq_iff_eq, heq, if_false]
        omega
    · rw [update_of_ne hne]
      exact hsound.2
  complete other hmem key' := by
    have hcomplete := h.complete other hmem key'
    by_cases heq : key = key'
    · subst heq
      obtain ⟨rest, hrest⟩ := List.head?_eq_some_iff.mp hfirst
      rw [hrest, count_cons] at hcomplete
      rw [hrest, tail_cons]
      by_cases hne : other = owner
      · subst hne
        simp at hcomplete ⊢
        omega
      · rw [update_of_ne hne]
        simpa [Ne.symm hne] using hcomplete
    · rw [if_neg heq]
      by_cases hne : other = owner
      · subst hne
        rw [update_self]
        exact Nat.le_trans ((erase_sublist).count_le key') hcomplete
      · rw [update_of_ne hne]
        exact hcomplete

/-- An owner leaves with all that is there of it, which was put there before what others have. -/
theorem leave (h : Covers owners keys index) (hnodup : owners.Nodup)
    (hfirst : ∀ key ∈ keys owner, ∃ rest,
      index key = List.replicate ((keys owner).count key) owner ++ rest ∧ owner ∉ rest) :
    Covers (owners.erase owner) keys (fun key => (index key).drop ((keys owner).count key)) := by
  have hrest : ∀ key, ∃ rest, index key = List.replicate ((keys owner).count key) owner ++ rest ∧
      owner ∉ rest := by
    intro key
    by_cases hkey : key ∈ keys owner
    · exact hfirst key hkey
    · refine ⟨index key, ?_, fun hmem => hkey (h.sound key owner hmem).2⟩
      rw [count_eq_zero_of_not_mem hkey]
      rfl
  have hdrop : ∀ key rest, index key = List.replicate ((keys owner).count key) owner ++ rest →
      (index key).drop ((keys owner).count key) = rest := by
    intro key rest hindex
    rw [hindex]
    exact drop_left' (length_replicate ..)
  constructor
  · intro key other hmem
    obtain ⟨rest, hindex, hnot⟩ := hrest key
    rw [hdrop key rest hindex] at hmem
    have hsound := h.sound key other (by
      rw [hindex]
      exact mem_append_right _ hmem)
    have hne : other ≠ owner := by
      rintro rfl
      exact hnot hmem
    exact ⟨(mem_erase_of_ne hne).mpr hsound.1, hsound.2⟩
  · intro other hmem key
    obtain ⟨rest, hindex, hnot⟩ := hrest key
    have hne : other ≠ owner := by
      rintro rfl
      exact (List.Nodup.not_mem_erase hnodup) hmem
    have hcomplete := h.complete other (mem_of_mem_erase hmem) key
    rw [hdrop key rest hindex]
    rw [hindex, count_append, count_replicate] at hcomplete
    simpa [Ne.symm hne] using hcomplete

end Covers

end GrooveIp.Lib
