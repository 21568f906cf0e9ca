import Mathlib.Data.List.Sort

/-!
# Multimaps in the order of their keys

A multimap with iterators that stay valid: each entry has a stamp, which the iterator is. Insertion
puts an entry behind those with the same key, and erasure takes one away by its stamp.
-/

namespace GrooveIp.Lib

open List

variable {α : Type}

/-- An entry of a multimap. -/
structure Entry (α : Type) where
  key : Nat
  stamp : Nat
  value : α
  deriving DecidableEq, Repr

/-- `std::multimap::insert`. -/
def insertEntry (entry : Entry α) (map : List (Entry α)) : List (Entry α) :=
  map.orderedInsert (fun a b => a.key < b.key) entry

/-- `std::multimap::erase` of the entry an iterator is at. -/
def eraseEntry (stamp : Nat) (map : List (Entry α)) : List (Entry α) :=
  map.filter (·.stamp ≠ stamp)

/-- The entries are in the order of their keys. -/
def Ordered (map : List (Entry α)) : Prop := map.Pairwise fun a b => a.key ≤ b.key

variable {a : Entry α} {map : List (Entry α)}

@[simp] theorem mem_insertEntry {entry : Entry α} :
    a ∈ insertEntry entry map ↔ a = entry ∨ a ∈ map :=
  mem_orderedInsert _

@[simp] theorem mem_eraseEntry {stamp : Nat} :
    a ∈ eraseEntry stamp map ↔ a ∈ map ∧ a.stamp ≠ stamp := by
  simp [eraseEntry]

/-- Insertion keeps the order. -/
theorem Ordered.insertEntry (h : Ordered map) (entry : Entry α) :
    Ordered (insertEntry entry map) := by
  induction map with
  | nil => exact pairwise_singleton _ _
  | cons a map ih =>
    obtain ⟨hfirst, hrest⟩ := pairwise_cons.mp h
    unfold Lib.insertEntry
    rw [orderedInsert_cons]
    split
    · next hlt =>
      refine pairwise_cons.mpr ⟨?_, h⟩
      intro b hb
      obtain rfl | hb := mem_cons.mp hb
      · omega
      · exact Nat.le_trans (Nat.le_of_lt hlt) (hfirst b hb)
    · next hle =>
      refine pairwise_cons.mpr ⟨?_, ih hrest⟩
      intro b hb
      obtain rfl | hb := mem_insertEntry.mp hb
      · omega
      · exact hfirst b hb

/-- Erasure keeps the order. -/
theorem Ordered.eraseEntry (h : Ordered map) (stamp : Nat) : Ordered (eraseEntry stamp map) :=
  h.filter _

/-- A new stamp is inserted once. -/
theorem nodup_stamps_insertEntry {entry : Entry α} (h : (map.map Entry.stamp).Nodup)
    (hnew : ∀ a ∈ map, a.stamp ≠ entry.stamp) :
    ((insertEntry entry map).map Entry.stamp).Nodup := by
  unfold insertEntry
  rw [((perm_orderedInsert _ entry map).map Entry.stamp).nodup_iff, map_cons, nodup_cons]
  refine ⟨?_, h⟩
  rintro hmem
  obtain ⟨a, ha, heq⟩ := mem_map.mp hmem
  exact hnew a ha heq

/-- Erasure keeps stamps distinct. -/
theorem nodup_stamps_eraseEntry (h : (map.map Entry.stamp).Nodup) (stamp : Nat) :
    ((eraseEntry stamp map).map Entry.stamp).Nodup :=
  h.sublist (filter_sublist.map _)

/-- An entry with a distinct stamp is determined by it. -/
theorem eq_of_stamp (h : (map.map Entry.stamp).Nodup) {b : Entry α} (ha : a ∈ map) (hb : b ∈ map)
    (heq : a.stamp = b.stamp) : a = b :=
  inj_on_of_nodup_map h ha hb heq

/-- The entries up to a key are the first ones. -/
theorem Ordered.mem_takeWhile_iff (h : Ordered map) {key : Nat} :
    a ∈ map.takeWhile (·.key ≤ key) ↔ a ∈ map ∧ a.key ≤ key := by
  induction map with
  | nil => simp
  | cons b map ih =>
    obtain ⟨hfirst, hrest⟩ := pairwise_cons.mp h
    rw [takeWhile_cons]
    by_cases hb : b.key ≤ key
    · simp only [hb, decide_true, if_true, mem_cons, ih hrest]
      constructor
      · rintro (rfl | ⟨ha, hkey⟩)
        · exact ⟨.inl rfl, hb⟩
        · exact ⟨.inr ha, hkey⟩
      · rintro ⟨rfl | ha, hkey⟩
        · exact .inl rfl
        · exact .inr ⟨ha, hkey⟩
    · simp only [hb, decide_false, Bool.false_eq_true, if_false, not_mem_nil, false_iff]
      rintro ⟨ha, hkey⟩
      obtain rfl | ha := mem_cons.mp ha
      · exact hb hkey
      · exact hb (Nat.le_trans (hfirst a ha) hkey)

end GrooveIp.Lib
