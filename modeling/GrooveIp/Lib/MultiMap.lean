import Mathlib.Data.List.Count

/-!
# Multimaps found by key

A multimap as the list of its entries. Insertion puts an entry behind those with the same key, and
what is found under a key, or erased, is the first entry. A multimap is known by the values under
each key, and by how many entries hold a value.
-/

namespace GrooveIp.Lib

open List

variable {K V : Type} [DecidableEq K]

/-- A multimap: its entries, those with the same key in the order of their insertion. -/
abbrev MultiMap (K V : Type) := List (K × V)

namespace MultiMap

variable (map : MultiMap K V)

variable (key : K)

/-- `std::multimap::insert`. -/
def insert (value : V) : MultiMap K V := map ++ [(key, value)]

/-- The value that `std::multimap::find` comes to. -/
def find (map : MultiMap K V) (key : K) : Option V := (map.find? (·.1 = key)).map Prod.snd

/-- `std::multimap::erase` of the entry that `find` comes to. -/
def erase : MultiMap K V := map.eraseP (·.1 = key)

/-- The values under a key, the first one first. -/
def values : List V := (map.filter (·.1 = key)).map Prod.snd

/-- How many entries hold a value. -/
def holds [DecidableEq V] (map : MultiMap K V) (value : V) : Nat := (map.map Prod.snd).count value

theorem find_eq_head? : map.find key = (map.values key).head? := by
  unfold find values
  rw [List.head?_map, List.head?_filter]

theorem values_insert (key' : K) (value : V) :
    (map.insert key value).values key' = map.values key' ++ if key = key' then [value] else [] := by
  unfold insert values
  rw [filter_append, map_append]
  congr 1
  by_cases h : key = key' <;> simp [h]

theorem values_erase (key' : K) : (map.erase key).values key'
      = if key = key' then (map.values key').tail else map.values key' := by
  unfold erase values
  induction map with
  | nil => simp
  | cons entry rest ih =>
    by_cases hkey : entry.1 = key
    · rw [eraseP_cons_of_pos (by simpa using hkey)]
      by_cases heq : key = key'
      · simp [heq, hkey.trans heq]
      · simp [heq, hkey]
    · rw [eraseP_cons_of_neg (by simpa using hkey)]
      by_cases hother : entry.1 = key'
      · have hne : key ≠ key' := fun heq => hkey (hother.trans heq.symm)
        simpa [hother, hne] using ih
      · simpa [hother] using ih

variable [DecidableEq V]

omit [DecidableEq K] in
theorem holds_insert (value value' : V) :
    (map.insert key value).holds value' = map.holds value' + if value = value' then 1 else 0 := by
  unfold insert holds
  rw [map_append, count_append]
  congr 1
  by_cases h : value = value' <;> simp [h]

/-- An entry that is found is held, and its erasure takes one away. -/
theorem holds_erase {map : MultiMap K V} {key : K} {value : V} (h : map.find key = some value)
    (value' : V) :
    map.holds value' = (map.erase key).holds value' + if value = value' then 1 else 0 := by
  unfold find at h
  unfold erase holds
  induction map with
  | nil => simp at h
  | cons entry rest ih =>
    by_cases hkey : entry.1 = key
    · rw [List.find?_cons_of_pos (by simpa using hkey)] at h
      obtain rfl : entry.2 = value := by simpa using h
      rw [eraseP_cons_of_pos (by simpa using hkey), map_cons, count_cons]
      congr 1
      by_cases hvalue : entry.2 = value' <;> simp [hvalue]
    · rw [List.find?_cons_of_neg (by simpa using hkey)] at h
      rw [eraseP_cons_of_neg (by simpa using hkey), map_cons, map_cons,
        count_cons, count_cons, ih h]
      omega

end MultiMap

end GrooveIp.Lib
