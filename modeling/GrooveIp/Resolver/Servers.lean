import Mathlib.Data.List.Sort
import Mathlib.Algebra.Order.Ring.Int

/-!
# The order of the servers

`belle_sip_resolver.c:353–463` sorts the SRV records of an answer by priority and orders those that
share one by weight, with random numbers. A record is known by its place in the answer. The records
that share their priority come out in some order each once; those that are alone with theirs come
out only when all are.
-/

namespace GrooveIp.Resolver

open List

/-- `belle_sip_dns_srv_t`, as far as it is ordered: `index` is the place in the answer. -/
structure Srv where
  index : ℕ
  priority : ℕ
  weight : ℕ
  deriving DecidableEq, Repr

/-- `srv_compare_prio(srv1, srv2) <= 0`. -/
def PrioLe (srv1 srv2 : Srv) : Prop := srv1.priority ≤ srv2.priority

instance : DecidableRel PrioLe := fun _ _ => Nat.decLe _ _

instance : IsTrans Srv PrioLe := ⟨fun _ _ _ => Nat.le_trans⟩

instance : Std.Total PrioLe := ⟨fun a b => Nat.le_total a.priority b.priority⟩

/-- `srv_sort_weight(srv1, srv2) <= 0`. -/
def WeightFirst (srv1 _srv2 : Srv) : Prop := srv1.weight = 0

instance : DecidableRel WeightFirst := fun _ _ => Nat.decEq _ _

/-- The record at which the cumulated weight reaches the number. -/
def reach (number : ℕ) : ℕ → List Srv → Option Srv
  | _, [] => none
  | sum, srv :: rest =>
    if number ≤ sum + srv.weight then some srv else reach number (sum + srv.weight) rest

/-- `srv_elect_one` (`belle_sip_resolver.c:388`) on the list `first :: rest`, with the random number
if one is drawn. -/
def srvElectOne (random : ℕ) (first : Srv) (rest : List Srv) : Srv :=
  let sum := ((first :: rest).map (·.weight)).sum
  if sum = 0 then first else (reach (random % sum) 0 (first :: rest)).getD first

/-- The random numbers drawn for a list: one, unless all weights are zero. -/
def draws (first : Srv) (rest : List Srv) : ℕ :=
  if ((first :: rest).map (·.weight)).sum = 0 then 0 else 1

/-- The loop of `srv_elect` (`belle_sip_resolver.c:413`), as often as the list has records; `drawn`
counts the random numbers. -/
def srvElect (random : ℕ → ℕ) : ℕ → ℕ → List Srv → List Srv × ℕ
  | 0, drawn, _ => ([], drawn)
  | _, drawn, [] => ([], drawn)
  | n + 1, drawn, first :: rest =>
    let entry := srvElectOne (random drawn) first rest
    let (result, drawn) := srvElect random n (drawn + draws first rest)
      ((first :: rest).erase entry)
    (entry :: result, drawn)

/-- The variables of the loop of `srv_select_by_weight`. -/
structure Selection where
  samePrio : List Srv := []
  prevSrv : Option Srv := none
  result : List Srv := []
  drawn : ℕ := 0

/-- `result = belle_sip_list_concat(result, srv_elect(&same_prio))`, if there is a `same_prio`. -/
def Selection.elect (random : ℕ → ℕ) (s : Selection) : Selection :=
  let (elected, drawn) := srvElect random s.samePrio.length s.drawn s.samePrio
  { s with samePrio := [], result := s.result ++ elected, drawn := drawn }

/-- One turn of the loop of `srv_select_by_weight` (`belle_sip_resolver.c:438–453`). -/
def Selection.next (random : ℕ → ℕ) (s : Selection) (srv : Srv) : Selection :=
  match s.prevSrv with
  | none => { s with prevSrv := some srv }
  | some prev =>
    if prev.priority = srv.priority then
      let samePrio := if s.samePrio.isEmpty then [prev] else s.samePrio
      { s with samePrio := samePrio.orderedInsert WeightFirst srv, prevSrv := some srv }
    else { s.elect random with prevSrv := some srv }

/-- `srv_select_by_weight` (`belle_sip_resolver.c:432`). -/
def srvSelectByWeight (random : ℕ → ℕ) (srvList : List Srv) : List Srv :=
  let s := (srvList.foldl (Selection.next random) {}).elect random
  if s.result.isEmpty then srvList else s.result

/-! ### Elections -/

variable {l : List Srv} {srv : Srv}

theorem mem_of_reach {number sum : ℕ} (h : reach number sum l = some srv) : srv ∈ l := by
  induction l generalizing sum with
  | nil => simp [reach] at h
  | cons a l ih =>
    unfold reach at h
    split at h
    · cases h
      exact mem_cons_self ..
    · exact mem_cons_of_mem a (ih h)

theorem srvElectOne_mem (random : ℕ) (first : Srv) (rest : List Srv) :
    srvElectOne random first rest ∈ first :: rest := by
  unfold srvElectOne
  simp only
  split
  · exact mem_cons_self ..
  · cases hr : reach (random % ((first :: rest).map (·.weight)).sum) 0 (first :: rest) with
    | none => exact mem_cons_self ..
    | some srv => exact mem_of_reach hr

theorem srvElect_perm (random : ℕ → ℕ) (n drawn : ℕ) (l : List Srv) (h : l.length ≤ n) :
    (srvElect random n drawn l).1.Perm l := by
  induction n generalizing drawn l with
  | zero =>
    obtain rfl := eq_nil_of_length_eq_zero (Nat.le_zero.mp h)
    exact List.Perm.refl []
  | succ n ih =>
    cases l with
    | nil => exact List.Perm.refl []
    | cons first rest =>
      have hmem := srvElectOne_mem (random drawn) first rest
      have hlen : ((first :: rest).erase (srvElectOne (random drawn) first rest)).length ≤ n := by
        rw [length_erase_of_mem hmem]
        omega
      exact ((ih _ _ hlen).cons _).trans (perm_cons_erase hmem).symm

/-! ### Shared priorities -/

/-- The number of records with a priority. -/
def withPriority (l : List Srv) (priority : ℕ) : ℕ := l.countP (·.priority = priority)

/-- The record shares its priority with another one of the list. -/
def sharedIn (l : List Srv) (srv : Srv) : Bool := decide (2 ≤ withPriority l srv.priority)

theorem withPriority_append_singleton (l : List Srv) (srv : Srv) (priority : ℕ) :
    withPriority (l ++ [srv]) priority =
      withPriority l priority + if srv.priority = priority then 1 else 0 := by
  unfold withPriority
  simp

theorem withPriority_eq_zero {priority : ℕ} (h : ∀ a ∈ l, a.priority ≠ priority) :
    withPriority l priority = 0 :=
  countP_eq_zero.mpr fun a ha => by simpa using h a ha

theorem sharedIn_append_of_ne {a : Srv} (h : srv.priority ≠ a.priority) :
    sharedIn (l ++ [srv]) a = sharedIn l a := by
  rw [sharedIn, withPriority_append_singleton, if_neg h]
  rfl

theorem filter_sharedIn_new (h : ∀ a ∈ l, a.priority ≠ srv.priority) :
    (l ++ [srv]).filter (sharedIn (l ++ [srv])) = l.filter (sharedIn l) := by
  have hsrv : sharedIn (l ++ [srv]) srv = false := by
    rw [sharedIn, withPriority_append_singleton, withPriority_eq_zero h]
    simp
  have hold : ∀ a ∈ l, sharedIn (l ++ [srv]) a = sharedIn l a :=
    fun a ha => sharedIn_append_of_ne (h a ha).symm
  rw [filter_append, filter_congr hold]
  simp [hsrv]

theorem filter_sharedIn_joined (h : 2 ≤ withPriority l srv.priority) :
    (l ++ [srv]).filter (sharedIn (l ++ [srv])) = l.filter (sharedIn l) ++ [srv] := by
  have hsrv : sharedIn (l ++ [srv]) srv = true := by
    rw [sharedIn, withPriority_append_singleton]
    exact decide_eq_true (by omega)
  have hold : ∀ a ∈ l, sharedIn (l ++ [srv]) a = sharedIn l a := by
    intro a _
    by_cases heq : srv.priority = a.priority
    · rw [sharedIn, sharedIn, withPriority_append_singleton, ← heq]
      simp [h, Nat.le_add_right_of_le h]
    · exact sharedIn_append_of_ne heq
  rw [filter_append, filter_congr hold]
  simp [hsrv]

variable {prev : Srv} {s : Selection} {front : List Srv}

theorem filter_sharedIn_second (h : ∀ a ∈ l, a.priority ≠ srv.priority)
    (hprev : prev.priority = srv.priority) :
    (l ++ [prev] ++ [srv]).filter (sharedIn (l ++ [prev] ++ [srv])) =
      (l ++ [prev]).filter (sharedIn (l ++ [prev])) ++ [prev, srv] := by
  have hnew : (l ++ [prev]).filter (sharedIn (l ++ [prev])) = l.filter (sharedIn l) :=
    filter_sharedIn_new fun a ha => hprev ▸ h a ha
  have hshared (a : Srv) (ha : a.priority = srv.priority) :
      sharedIn (l ++ [prev] ++ [srv]) a = true := by
    rw [sharedIn, withPriority_append_singleton, withPriority_append_singleton]
    simp [ha, hprev]
  have hold : ∀ a ∈ l, sharedIn (l ++ [prev] ++ [srv]) a = sharedIn l a := by
    intro a ha
    have hne : srv.priority ≠ a.priority := (h a ha).symm
    rw [sharedIn_append_of_ne hne, sharedIn_append_of_ne (hprev.trans_ne hne)]
  rw [hnew, filter_append, filter_append, filter_congr hold,
    filter_singleton, filter_singleton, hshared prev hprev, hshared srv rfl]
  simp

/-! ### The selection -/

/-- The selection after the records `front` and `prev` of a sorted list: the shared records are in
the result, but for those of the last priority, which are kept together. -/
structure Selection.Selected (s : Selection) (front : List Srv) (prev : Srv) : Prop where
  prevSrv : s.prevSrv = some prev
  last : ∀ a ∈ front, a.priority ≤ prev.priority
  perm : (s.result ++ s.samePrio).Perm ((front ++ [prev]).filter (sharedIn (front ++ [prev])))
  sorted : s.result.Pairwise PrioLe
  before : ∀ a ∈ s.result, a.priority < prev.priority
  same : ∀ a ∈ s.samePrio, a.priority = prev.priority
  alone : s.samePrio = [] ↔ ∀ a ∈ front, a.priority ≠ prev.priority

theorem Selection.elect_perm (random : ℕ → ℕ) (s : Selection) :
    ∃ elected, (s.elect random).result = s.result ++ elected ∧ elected.Perm s.samePrio ∧
      (s.elect random).samePrio = [] :=
  ⟨_, rfl, srvElect_perm random _ _ _ (Nat.le_refl _), rfl⟩

theorem Selection.Selected.elect (h : s.Selected front prev) (random : ℕ → ℕ) :
    (s.elect random).result.Perm ((front ++ [prev]).filter (sharedIn (front ++ [prev]))) ∧
      (s.elect random).result.Pairwise PrioLe ∧
      ∀ a ∈ (s.elect random).result, a.priority ≤ prev.priority := by
  obtain ⟨elected, hresult, hperm, -⟩ := s.elect_perm random
  have hsame : ∀ a ∈ elected, a.priority = prev.priority := fun a ha =>
    h.same a (hperm.mem_iff.mp ha)
  rw [hresult]
  refine ⟨(hperm.append_left s.result).trans h.perm, ?_, ?_⟩
  · rw [pairwise_append]
    refine ⟨h.sorted, ?_, ?_⟩
    · apply pairwise_of_forall_mem_list
      intro a ha b hb
      exact Nat.le_of_eq ((hsame a ha).trans (hsame b hb).symm)
    · intro a ha b hb
      have hlt := h.before a ha
      have heq := hsame b hb
      exact Nat.le_of_lt (heq ▸ hlt)
  · intro a ha
    rcases mem_append.mp ha with ha | ha
    · exact Nat.le_of_lt (h.before a ha)
    · exact Nat.le_of_eq (hsame a ha)

theorem Selection.selected_first (random : ℕ → ℕ) (srv : Srv) :
    (Selection.next random {} srv).Selected [] srv where
  prevSrv := rfl
  last := by simp
  perm := by simp [Selection.next, sharedIn, withPriority]
  sorted := List.Pairwise.nil
  before := by simp [Selection.next]
  same := by simp [Selection.next]
  alone := by simp [Selection.next]

/-- One more record of the sorted list. -/
theorem Selection.Selected.next {s : Selection} {front : List Srv} {prev srv : Srv}
    (h : s.Selected front prev) (random : ℕ → ℕ) (hle : prev.priority ≤ srv.priority) :
    (s.next random srv).Selected (front ++ [prev]) srv := by
  have hlast : ∀ a ∈ front ++ [prev], a.priority ≤ srv.priority := by
    intro a ha
    rcases mem_append.mp ha with ha | ha
    · exact Nat.le_trans (h.last a ha) hle
    · rw [mem_singleton.mp ha]
      exact hle
  unfold Selection.next
  rw [h.prevSrv]
  by_cases heq : prev.priority = srv.priority
  · simp only [heq, if_true]
    have hinsert : ∀ l : List Srv, (l.orderedInsert WeightFirst srv).Perm (l ++ [srv]) :=
      fun l => (perm_orderedInsert _ _ _).trans (perm_append_singleton _ _).symm
    have hne : ∀ l : List Srv, l.orderedInsert WeightFirst srv ≠ [] := by
      intro l hnil
      have := (hinsert l).length_eq
      simp [hnil] at this
    have hperm : (s.result ++ (if s.samePrio.isEmpty then [prev] else s.samePrio).orderedInsert
        WeightFirst srv).Perm ((front ++ [prev] ++ [srv]).filter
          (sharedIn (front ++ [prev] ++ [srv]))) := by
      refine ((hinsert _).append_left _).trans ?_
      by_cases halone : s.samePrio = []
      · have hfront : ∀ a ∈ front, a.priority ≠ srv.priority := fun a ha =>
          heq ▸ h.alone.mp halone a ha
        rw [filter_sharedIn_second hfront heq]
        have hp := h.perm
        simpa [halone] using hp.append_right [prev, srv]
      · have hshared : 2 ≤ withPriority (front ++ [prev]) srv.priority := by
          rw [withPriority_append_singleton, if_pos heq]
          have : ¬ ∀ a ∈ front, a.priority ≠ prev.priority := fun hall => halone (h.alone.mpr hall)
          simp only [not_forall, not_not] at this
          obtain ⟨a, ha, hap⟩ := this
          have hpos : 0 < withPriority front srv.priority :=
            countP_pos_iff.mpr ⟨a, ha, by simp [hap, heq]⟩
          omega
        rw [filter_sharedIn_joined hshared]
        simpa [halone] using h.perm.append_right [srv]
    exact
      { prevSrv := rfl
        last := hlast
        perm := hperm
        sorted := h.sorted
        before := fun a ha => heq ▸ h.before a ha
        same := by
          intro a ha
          rcases mem_append.mp ((hinsert _).mem_iff.mp ha) with ha | ha
          · split at ha
            · rw [mem_singleton.mp ha, heq]
            · rw [h.same a ha, heq]
          · rw [mem_singleton.mp ha]
        alone := by
          constructor
          · intro hnil
            exact absurd hnil (hne _)
          · intro hall
            exact absurd heq (hall prev (by simp)) }
  · simp only [heq, if_false]
    obtain ⟨hperm, hsorted, hbefore⟩ := h.elect random
    have hlt : prev.priority < srv.priority := by omega
    have hnew : ∀ a ∈ front ++ [prev], a.priority ≠ srv.priority := by
      intro a ha
      rcases mem_append.mp ha with ha | ha
      · have := h.last a ha
        omega
      · rw [mem_singleton.mp ha]
        exact heq
    exact
      { prevSrv := rfl
        last := hlast
        perm := by
          rw [filter_sharedIn_new hnew]
          simpa [Selection.elect] using hperm
        sorted := hsorted
        before := fun a ha => Nat.lt_of_le_of_lt (hbefore a ha) hlt
        same := by simp [Selection.elect]
        alone := by
          constructor
          · exact fun _ => hnew
          · exact fun _ => rfl }

theorem Selection.Selected.foldl (h : s.Selected front prev) (random : ℕ → ℕ) {rest : List Srv}
    (hsorted : (prev :: rest).Pairwise PrioLe) :
    ∃ front' last, front' ++ [last] = front ++ prev :: rest ∧
      (rest.foldl (Selection.next random) s).Selected front' last := by
  induction rest generalizing s front prev with
  | nil => exact ⟨front, prev, rfl, h⟩
  | cons srv rest ih =>
    rw [pairwise_cons] at hsorted
    obtain ⟨front', last, heq, hs⟩ := ih (h.next random (hsorted.1 srv (mem_cons_self ..)))
      hsorted.2
    exact ⟨front', last, by simpa using heq, hs⟩

/-- The records that share their priority are selected, each once and in the order of the
priorities; when there are none, all are. -/
theorem srvSelectByWeight_spec (random : ℕ → ℕ) (hsorted : l.Pairwise PrioLe) :
    (srvSelectByWeight random l).Pairwise PrioLe ∧ (srvSelectByWeight random l).Perm
        (if l.filter (sharedIn l) = [] then l else l.filter (sharedIn l)) := by
  cases l with
  | nil => exact ⟨List.Pairwise.nil, List.Perm.refl []⟩
  | cons srv rest =>
    obtain ⟨front, last, heq, hs⟩ := (Selection.selected_first random srv).foldl random hsorted
    obtain ⟨hperm, hresult, -⟩ := hs.elect random
    rw [heq, nil_append] at hperm
    unfold srvSelectByWeight
    rw [foldl_cons]
    by_cases hnil : (srv :: rest).filter (sharedIn (srv :: rest)) = []
    · rw [hnil] at hperm
      simp only [hperm.eq_nil, isEmpty_nil, if_true, hnil]
      exact ⟨hsorted, List.Perm.refl _⟩
    · have hne : ¬ (((rest.foldl (Selection.next random) (Selection.next random {} srv)).elect
          random).result.isEmpty = true) := by
        intro hempty
        rw [List.isEmpty_iff] at hempty
        rw [hempty] at hperm
        exact hnil hperm.symm.eq_nil
      rw [if_neg hne, if_neg hnil]
      exact ⟨hresult, hperm⟩

end GrooveIp.Resolver
