import Mathlib.Data.List.Basic

/-!
# Logs that are numbered by key

A log holds attempts in the order in which they were made. Each has a key and a number, and some of
them were kept. Where the numbers under a key are 1, 2, 3, … and nothing is kept under a key after
an attempt under it was given up, the numbers that were kept are 1, 2, 3, … too, and no two of the
kept attempts have the same key and number.
-/

namespace GrooveIp.Lib

open List

variable {E K : Type} [DecidableEq K] (key : E → K) (number : E → ℕ) (kept : E → Bool)

/-- The numbers under a key, in order. -/
def numbersUnder (log : List E) (k : K) : List ℕ := (log.filter (key · = k)).map number

/-- The log numbers the attempts under the key from 1 on. -/
def NumberedUnder (log : List E) (k : K) : Prop :=
  numbersUnder key number log k = List.range' 1 (numbersUnder key number log k).length

/-- Nothing is kept under a key after an attempt under it was given up. -/
def KeptFirst (log : List E) : Prop :=
  log.Pairwise fun a b => key a = key b → kept b = true → kept a = true

variable {key number kept} {log : List E} {k : K}

/-- One more attempt is the last one under its key. -/
theorem numbersUnder_append_singleton (e : E) : numbersUnder key number (log ++ [e]) k =
      numbersUnder key number log k ++ if key e = k then [number e] else [] := by
  unfold numbersUnder
  by_cases hk : key e = k <;> simp [hk]

/-- Numbers from 1 on go on with the next number. -/
theorem numbersUnder_next {n : ℕ} (e : E) (h : numbersUnder key number log k = List.range' 1 n)
    (hkey : key e = k) (hnumber : number e = n + 1) :
    numbersUnder key number (log ++ [e]) k = List.range' 1 (n + 1) := by
  rw [numbersUnder_append_singleton, h, if_pos hkey, hnumber, range'_concat]
  simp [Nat.add_comm]

theorem eq_range'_of_prefix {l : List ℕ} {n : ℕ} (h : l <+: List.range' 1 n) :
    l = List.range' 1 l.length := by
  obtain ⟨rest, hrest⟩ := h
  obtain ⟨m, -, hl, -⟩ := range'_eq_append_iff.mp hrest.symm
  simp [hl]

theorem filter_prefix_of_pairwise {p : E → Bool} {l : List E}
    (h : l.Pairwise fun a b => p b = true → p a = true) : l.filter p <+: l := by
  induction l with
  | nil => exact prefix_refl []
  | cons a l ih =>
    rw [pairwise_cons] at h
    by_cases ha : p a = true
    · rw [filter_cons_of_pos ha]
      exact prefix_cons_inj a |>.mpr (ih h.2)
    · have hnil : l.filter p = [] := filter_eq_nil_iff.mpr fun b hb hp => ha (h.1 b hb hp)
      rw [filter_cons_of_neg ha, hnil]
      exact nil_prefix

/-- What is kept under a key is numbered from 1 on. -/
theorem KeptFirst.numberedUnder (hk : KeptFirst key kept log)
    (hn : NumberedUnder key number log k) : NumberedUnder key number (log.filter kept) k := by
  have hpairwise : (log.filter (key · = k)).Pairwise fun a b => kept b = true → kept a = true := by
    apply (List.Pairwise.filter _ hk).imp_of_mem
    intro a b ha hb hab
    simp only [mem_filter, decide_eq_true_eq] at ha hb
    exact hab (ha.2.trans hb.2.symm)
  have hprefix := (filter_prefix_of_pairwise hpairwise).map number
  rw [filter_comm] at hprefix
  have hrange : numbersUnder key number (log.filter kept) k <+:
      List.range' 1 (numbersUnder key number log k).length := by
    rw [← hn]
    exact hprefix
  exact eq_range'_of_prefix hrange

/-- Attempts that are numbered from 1 on under every key differ in their keys or numbers. -/
theorem pairwise_of_numberedUnder (h : ∀ k, NumberedUnder key number log k) :
    log.Pairwise fun a b => key a = key b → number a ≠ number b := by
  rw [pairwise_iff_forall_sublist]
  intro a b hab hkey hnumber
  have hsub : [number a, number b].Sublist (numbersUnder key number log (key a)) := by
    have := (hab.filter (key · = key a)).map number
    simpa [hkey.symm, numbersUnder] using this
  rw [h] at hsub
  have hnodup := hsub.nodup nodup_range'
  simp [hnumber] at hnodup

end GrooveIp.Lib
