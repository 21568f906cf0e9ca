import GrooveIp.Lib.Memory
import GrooveIp.Lib.Refinement
import Mathlib.Data.List.Nodup

/-!
# The LRU cache

`LruCache` of `lru-cache.h` keeps its keys in a list, the last inserted one in front, and a map from a
key to its place in the list and its value. The nodes of the list are numbered.
-/

namespace GrooveIp.Containers

open Lib List
open Prod (fst snd)

variable {K V : Type} [DecidableEq K]

/-- `LruCache`; an iterator is the number of a node. -/
structure LruCache (K V : Type) where
  capacity : Int
  keys : List (Nat × K) := []
  keyToPair : List (K × Nat × V) := []
  nextNode : Nat := 0
  deriving DecidableEq, Repr

open LruCache

/-- What is done to a cache. -/
inductive CacheOp (K V : Type) where
  | insert (key : K) (value : V)
  | clear

namespace LruCache

/-- `MinCapacity`. -/
def minCapacity : Int := 10

/-- The constructor (`lru-cache.h:35`), which raises its argument after the capacity is set. -/
def new (capacity : Int) : LruCache K V := { capacity }

variable (cache : LruCache K V)

/-- `operator[]` (`lru-cache.h:48`). -/
def get (key : K) : Option V := (cache.keyToPair.lookup key).map snd

/-- A key is put in front, with its value unless the map has the key already. -/
def push (key : K) (value : V) : LruCache K V :=
  { cache with
    keys := (cache.nextNode, key) :: cache.keys
    keyToPair := if (cache.keyToPair.lookup key).isSome then cache.keyToPair
      else (key, cache.nextNode, value) :: cache.keyToPair
    nextNode := cache.nextNode + 1 }

/-- `insert` (`lru-cache.h:58`, `:72`). A node that is not in the list cannot be erased, and an empty list
has no back. -/
def insert (key : K) (value : V) : Except Fault (LruCache K V) :=
  match cache.keyToPair.lookup key with
  | some (node, _) =>
    if node ∈ cache.keys.map fst then
      .ok ({ cache with keys := cache.keys.filter (·.1 ≠ node) }.push key value)
    else .error .outOfBounds
  | none =>
    if cache.keyToPair.length = cache.capacity then
      match cache.keys.getLast? with
      | none => .error .outOfBounds
      | some (_, lastKey) => .ok ({ cache with
          keys := cache.keys.dropLast
          keyToPair := cache.keyToPair.filter (·.1 ≠ lastKey) }.push key value)
    else .ok (cache.push key value)

/-- An operation on the cache. -/
def step : CacheOp K V → Except Fault (LruCache K V)
  | .insert key value => cache.insert key value
  | .clear => .ok { cache with keys := [], keyToPair := [] }

end LruCache

/-! ## What a cache is for -/

/-- The size that is not exceeded. -/
def fullCapacity (capacity : Int) : Nat := (max capacity minCapacity).toNat

/-- The entries, the last inserted one in front: a new one takes the place of the oldest when there is no
room. -/
def recent (full : Nat) (entries : List (K × V)) : CacheOp K V → List (K × V)
  | .insert key value =>
    (key, value) :: if key ∈ entries.map fst then entries.filter (·.1 ≠ key)
      else if entries.length = full then entries.dropLast
      else entries
  | .clear => []

/-- The cache has these cells: the nodes of its list, each with the key that its map has at this node. -/
structure Holds (cells : List (Nat × K × V)) (cache : LruCache K V) : Prop where
  keys : cache.keys = cells.map fun cell => (cell.1, cell.2.1)
  pairs : cache.keyToPair = cells.map fun cell => (cell.2.1, cell.1, cell.2.2)
  distinct : (cells.map fun cell => cell.2.1).Nodup
  nodes : (cells.map fst).Nodup
  fresh : ∀ cell ∈ cells, cell.1 < cache.nextNode

/-- A key that is inserted is not in the cache, and the cache is as large as its capacity when it is full
and only then. -/
def Careful (capacity : Int) (entries : List (K × V)) : CacheOp K V → Prop
  | .insert key _ => key ∉ entries.map fst ∧
      ((entries.length : Int) = capacity ↔ entries.length = fullCapacity capacity)
  | .clear => True

/-! ## Operations -/

variable {cells : List (Nat × K × V)} {cache : LruCache K V}

theorem Holds.get (h : Holds cells cache) (key : K) :
    cache.get key = (cells.map snd).lookup key := by
  rw [LruCache.get, h.pairs]
  clear h
  induction cells with
  | nil => rfl
  | cons cell cells ih =>
    obtain ⟨node, cellKey, value⟩ := cell
    cases heq : key == cellKey
    · simpa [List.lookup_cons, heq] using ih
    · simp [List.lookup_cons, heq]

theorem Holds.lookup_none (h : Holds cells cache) {key : K}
    (hnew : key ∉ (cells.map snd).map fst) : cache.keyToPair.lookup key = none := by
  rw [h.pairs, lookup_eq_none_iff]
  intro pair hpair
  obtain ⟨cell, hcell, rfl⟩ := mem_map.mp hpair
  rw [bne_iff_ne]
  rintro rfl
  exact hnew (mem_map_of_mem (mem_map_of_mem hcell))

theorem Holds.push (h : Holds cells cache) {key : K}
    (hnew : key ∉ (cells.map snd).map fst) (value : V) :
    Holds ((cache.nextNode, key, value) :: cells) (cache.push key value) := by
  have hnone := h.lookup_none hnew
  refine ⟨?_, ?_, ?_, ?_, ?_⟩
  · simp [LruCache.push, h.keys]
  · simp only [LruCache.push, hnone]
    simp [h.pairs]
  · rw [map_map] at hnew
    exact nodup_cons.mpr ⟨hnew, h.distinct⟩
  · refine nodup_cons.mpr ⟨fun hmem => ?_, h.nodes⟩
    obtain ⟨cell, hcell, heq⟩ := mem_map.mp hmem
    exact Nat.lt_irrefl _ (heq ▸ h.fresh cell hcell)
  · refine forall_mem_cons.mpr ⟨Nat.lt_succ_self _, fun cell hcell => ?_⟩
    exact Nat.lt_succ_of_lt (h.fresh cell hcell)

theorem Holds.evict {last : Nat × K × V} (h : Holds (cells ++ [last]) cache) :
    Holds cells { cache with
      keys := cache.keys.dropLast
      keyToPair := cache.keyToPair.filter (·.1 ≠ last.2.1) } := by
  have hdistinct := h.distinct
  rw [map_append, nodup_append] at hdistinct
  refine ⟨?_, ?_, hdistinct.1, ?_, fun cell hcell => h.fresh cell (mem_append_left _ hcell)⟩
  · simp [h.keys]
  · rw [h.pairs, map_append, filter_append, filter_eq_self.mpr]
    · simp
    · intro pair hpair
      obtain ⟨cell, hcell, rfl⟩ := mem_map.mp hpair
      simpa using hdistinct.2.2 _ (mem_map_of_mem hcell) last.2.1 (by simp)
  · have hnodes := h.nodes
    rw [map_append, nodup_append] at hnodes
    exact hnodes.1

/-- The entries are those of a cache of this capacity, and found under their keys. -/
def Represents (capacity : Int) (entries : List (K × V)) (cache : LruCache K V) : Prop :=
  cache.capacity = capacity ∧ entries.length ≤ fullCapacity capacity ∧
    (∀ key, cache.get key = entries.lookup key) ∧
    ∃ cells, cells.map snd = entries ∧ Holds cells cache

theorem represents_nil (hkeys : cache.keys = []) (hpairs : cache.keyToPair = []) :
    Represents cache.capacity [] cache := by
  have hempty : Holds [] cache := ⟨hkeys, hpairs, .nil, .nil, forall_mem_nil _⟩
  exact ⟨rfl, Nat.zero_le _, hempty.get, [], rfl, hempty⟩

theorem step_represents {capacity : Int} {entries : List (K × V)} (op : CacheOp K V)
    (h : Represents capacity entries cache) (hcareful : Careful capacity entries op) :
    ∃ next, cache.step op = .ok next ∧
      Represents capacity (recent (fullCapacity capacity) entries op) next := by
  obtain ⟨rfl, hsize, -, cells, rfl, h⟩ := h
  have hpos : 0 < fullCapacity cache.capacity := by
    unfold fullCapacity minCapacity
    omega
  cases op with
  | clear => exact ⟨_, rfl, represents_nil rfl rfl⟩
  | insert key value =>
    obtain ⟨hnew, hfull⟩ := hcareful
    have hlength : cache.keyToPair.length = cells.length := by rw [h.pairs, length_map]
    rw [length_map] at hfull hsize
    simp only [step, LruCache.insert, h.lookup_none hnew, hlength, hfull, recent, if_neg hnew,
      length_map]
    by_cases heq : cells.length = fullCapacity cache.capacity
    · obtain rfl | ⟨first, last, rfl⟩ := eq_nil_or_concat' cells
      · exact absurd heq (Nat.ne_of_lt hpos)
      rw [length_append, length_singleton] at heq
      have hback : cache.keys.getLast? = some (last.1, last.2.1) := by simp [h.keys]
      have hfirst : key ∉ (first.map snd).map fst := fun hmem => hnew (by simp_all)
      have hafter := h.evict.push hfirst value
      simp only [length_append, length_singleton, heq, if_true, hback, map_append,
        map_singleton, dropLast_concat]
      exact ⟨_, rfl, rfl, by simp; omega, hafter.get, _, rfl, hafter⟩
    · simp only [if_neg heq]
      have hafter := h.push hnew value
      exact ⟨_, rfl, rfl, by simp; omega, hafter.get, _, rfl, hafter⟩

/-- A careful run of a cache of any capacity leaves the entries that an LRU cache is to have. -/
theorem run_holds (capacity : Int) (ops : List (CacheOp K V))
    (h : AllowedRun (Careful capacity) (recent (fullCapacity capacity)) [] ops) :
    ∃ cache, ops.foldlM step (new capacity) = .ok cache ∧
      Represents capacity (ops.foldl (recent (fullCapacity capacity)) []) cache :=
  foldlM_refines (Represents capacity) (fun _ _ op => step_represents op) (represents_nil rfl rfl) h

/-- `run_holds` of one key. -/
theorem run_holds_insert : ∃ cache, [CacheOp.insert 'a' 1].foldlM step
    (new 1000) = .ok cache ∧ Represents 1000 [('a', 1)] cache :=
  run_holds 1000 [CacheOp.insert 'a' 1] ⟨⟨by decide, by decide⟩, trivial⟩

/-- A key that is inserted again keeps its old value. -/
theorem reinsertion_stale : ¬∀ (capacity : Int) (ops : List (CacheOp Char Nat)),
    ∃ cache, ops.foldlM step (new capacity) = .ok cache ∧
      ∀ key, cache.get key = (ops.foldl (recent (fullCapacity capacity)) []).lookup key := by
  intro h
  obtain ⟨cache, hrun, hget⟩ := h 1000 [.insert 'a' 1, .insert 'a' 2]
  cases hrun
  exact absurd (hget 'a') (by decide)

end GrooveIp.Containers
