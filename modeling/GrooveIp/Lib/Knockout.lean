import Mathlib.Data.List.Find
import Mathlib.Data.List.Nodup
import Mathlib.Order.Defs.LinearOrder

/-!
# Removing the lower of two of a class

The elements of a list fall into classes by a key. As long as some class has two elements in the
list, the first element that has a rival meets the first of its rivals, and the one of the lower
rank leaves the list, or the former if they are equal. In the end every class has one element left,
of its highest rank. The first element of a class is the one that stays exactly when it outranks
all the others.
-/

namespace GrooveIp.Lib

open List

variable {α κ ρ : Type} [DecidableEq α] [DecidableEq κ] [LinearOrder ρ]

/-- The first other element of the class. -/
def rivalOf (key : α → κ) (l : List α) (a : α) : Option α :=
  l.find? fun b => b ≠ a ∧ key b = key a

/-- The element that leaves a list. -/
def loserOf (key : α → κ) (rank : α → ρ) (l : List α) : Option α := do
  let a ← l.find? fun a => (rivalOf key l a).isSome
  let b ← rivalOf key l a
  return if rank b < rank a then b else a

section Loser

variable {key : α → κ} {rank : α → ρ} {l : List α} {a b : α}

theorem mem_of_rivalOf (h : rivalOf key l a = some b) : b ∈ l ∧ b ≠ a ∧ key b = key a := by
  have hb := List.find?_some h
  exact ⟨mem_of_find?_eq_some h, by simpa using hb⟩

theorem rivalOf_isSome (hb : b ∈ l) (hne : b ≠ a) (hkey : key b = key a) :
    (rivalOf key l a).isSome = true :=
  List.find?_isSome.mpr ⟨b, hb, by simpa using ⟨hne, hkey⟩⟩

theorem loserOf_eq_some (h : loserOf key rank l = some a) :
    ∃ c d, l.find? (fun a => (rivalOf key l a).isSome) = some c ∧ rivalOf key l c = some d ∧
      a = if rank d < rank c then d else c := by
  obtain ⟨c, hc, h⟩ := Option.bind_eq_some_iff.mp h
  obtain ⟨d, hd, h⟩ := Option.bind_eq_some_iff.mp h
  exact ⟨c, d, hc, hd, (Option.some.inj h).symm⟩

/-- Who leaves had a rival that does not rank lower. -/
theorem loserOf_spec (h : loserOf key rank l = some a) :
    a ∈ l ∧ ∃ b ∈ l, b ≠ a ∧ key b = key a ∧ rank a ≤ rank b := by
  obtain ⟨c, d, hc, hd, rfl⟩ := loserOf_eq_some h
  obtain ⟨hdl, hne, hkey⟩ := mem_of_rivalOf hd
  have hcl := mem_of_find?_eq_some hc
  split
  · next hlt => exact ⟨hdl, c, hcl, hne.symm, hkey.symm, hlt.le⟩
  · next hge => exact ⟨hcl, d, hdl, hne, hkey, not_lt.mp hge⟩

theorem loserOf_ne_none (ha : a ∈ l) (hb : b ∈ l) (hne : b ≠ a) (hkey : key b = key a) :
    loserOf key rank l ≠ none := by
  intro h
  unfold loserOf at h
  cases hfirst : l.find? fun a => (rivalOf key l a).isSome with
  | none => exact List.find?_eq_none.mp hfirst a ha (rivalOf_isSome hb hne hkey)
  | some c =>
    have hrival : (rivalOf key l c).isSome = true :=
      List.find?_some (p := fun a => (rivalOf key l a).isSome) hfirst
    obtain ⟨d, hd⟩ := Option.isSome_iff_exists.mp hrival
    rw [hfirst, Option.bind_eq_bind, Option.bind_some, hd] at h
    cases h

theorem loserOf_first (hfirst : l.find? (fun b => key b = key a) = some a)
    (h : loserOf key rank l = some b) (hkey : key b = key a) : b = a ∨ rank b < rank a := by
  obtain ⟨c, d, hc, hd, rfl⟩ := loserOf_eq_some h
  obtain ⟨hdl, hdne, hdkey⟩ := mem_of_rivalOf hd
  have hcl := mem_of_find?_eq_some hc
  have hckey : key c = key a := by
    split at hkey
    · rw [← hdkey, hkey]
    · exact hkey
  -- The first element that has a rival is the first of its class.
  have hca : c = a := by
    obtain ⟨pre, post, rfl, hpre⟩ := (List.find?_eq_some_iff_append.mp hc).2
    rw [List.find?_append] at hfirst
    cases hfind : pre.find? fun b => key b = key a with
    | none =>
      rw [hfind, Option.none_or, List.find?_cons_of_pos (by simpa using hckey)] at hfirst
      exact Option.some.inj hfirst
    | some x =>
      rw [hfind, Option.some_or] at hfirst
      obtain rfl := Option.some.inj hfirst
      refine Classical.byContradiction fun hne => ?_
      have hnone := hpre x (mem_of_find?_eq_some hfind)
      rw [rivalOf_isSome hcl hne hckey] at hnone
      cases hnone
  subst hca
  split
  · next hlt => exact .inr hlt
  · exact .inl rfl

end Loser

/-! ## The loop -/

/-- What is left when nobody has a rival. -/
def knockout (key : α → κ) (rank : α → ρ) (l : List α) : List α :=
  match _h : loserOf key rank l with
  | none => l
  | some a => knockout key rank (l.erase a)
termination_by l.length
decreasing_by
  have hmem := (loserOf_spec _h).1
  have hpos := length_pos_of_mem hmem
  rw [length_erase_of_mem hmem]
  omega

section Knockout

variable {key : α → κ} {rank : α → ρ} {l : List α} {a b : α}

theorem knockout_of_none (h : loserOf key rank l = none) : knockout key rank l = l := by
  rw [knockout]
  split
  · rfl
  · next heq => rw [h] at heq; cases heq

theorem knockout_of_some (h : loserOf key rank l = some a) :
    knockout key rank l = knockout key rank (l.erase a) := by
  rw [knockout]
  split
  · next heq => rw [h] at heq; cases heq
  · next heq =>
    rw [h] at heq
    cases heq
    rfl

theorem knockout_rule {P : List α → Prop}
    (step : ∀ l a, P l → loserOf key rank l = some a → P (l.erase a)) (h : P l) :
    P (knockout key rank l) := by
  induction hlen : l.length using Nat.strongRecOn generalizing l with
  | ind n ih =>
    cases hloser : loserOf key rank l with
    | none => rwa [knockout_of_none hloser]
    | some a =>
      have hmem := (loserOf_spec hloser).1
      have hpos := length_pos_of_mem hmem
      rw [knockout_of_some hloser]
      exact ih _ (by rw [← hlen, length_erase_of_mem hmem]; omega) (step l a h hloser) rfl

theorem loserOf_knockout (l : List α) : loserOf key rank (knockout key rank l) = none := by
  induction hlen : l.length using Nat.strongRecOn generalizing l with
  | ind n ih =>
    cases hloser : loserOf key rank l with
    | none => rw [knockout_of_none hloser, hloser]
    | some a =>
      have hmem := (loserOf_spec hloser).1
      have hpos := length_pos_of_mem hmem
      rw [knockout_of_some hloser]
      exact ih _ (by rw [← hlen, length_erase_of_mem hmem]; omega) _ rfl

/-- The others keep their order. -/
theorem knockout_sublist (l : List α) : (knockout key rank l).Sublist l :=
  knockout_rule (P := fun l' => l'.Sublist l)
    (fun _ _ h _ => erase_sublist.trans h) (List.Sublist.refl l)

/-- A class has one element left. -/
theorem eq_of_mem_knockout (ha : a ∈ knockout key rank l) (hb : b ∈ knockout key rank l)
    (hkey : key a = key b) : a = b :=
  Classical.byContradiction fun hne => loserOf_ne_none hb ha hne hkey (loserOf_knockout l)

/-- Every class has one of its highest rank left. -/
theorem exists_mem_knockout (ha : a ∈ l) :
    ∃ b ∈ knockout key rank l, key b = key a ∧ rank a ≤ rank b := by
  refine knockout_rule (P := fun l => ∃ b ∈ l, key b = key a ∧ rank a ≤ rank b) ?_
    ⟨a, ha, rfl, le_refl _⟩
  rintro l c ⟨b, hb, hkey, hrank⟩ hloser
  by_cases hbc : b = c
  · obtain ⟨-, d, hd, hne, hdkey, hdrank⟩ := loserOf_spec hloser
    subst hbc
    exact ⟨d, (mem_erase_of_ne hne).mpr hd, hdkey.trans hkey, hrank.trans hdrank⟩
  · exact ⟨b, (mem_erase_of_ne hbc).mpr hb, hkey, hrank⟩

theorem find?_erase_of_ne {p : α → Bool} {c : α} (h : l.find? p = some a) (hne : a ≠ c) :
    (l.erase c).find? p = some a := by
  obtain ⟨hp, pre, post, rfl, hpre⟩ := List.find?_eq_some_iff_append.mp h
  rw [erase_append]
  split
  · exact List.find?_eq_some_iff_append.mpr
      ⟨hp, _, _, rfl, fun x hx => hpre x (mem_of_mem_erase hx)⟩
  · rw [erase_cons_tail (by simpa using hne)]
    exact List.find?_eq_some_iff_append.mpr ⟨hp, _, _, rfl, hpre⟩

/-- The first element of a class stays exactly when it outranks the others. -/
theorem first_mem_knockout_iff (hnodup : l.Nodup)
    (hfirst : l.find? (fun b => key b = key a) = some a) :
    a ∈ knockout key rank l ↔ ∀ b ∈ l, b ≠ a → key b = key a → rank b < rank a := by
  constructor
  · intro ha b hb hne hkey
    refine lt_of_not_ge fun hge => ?_
    have hbeaten : (knockout key rank l).Nodup ∧ (a ∈ knockout key rank l →
        (knockout key rank l).find? (fun b => key b = key a) = some a ∧
          ∃ b ∈ knockout key rank l, b ≠ a ∧ key b = key a ∧ rank a ≤ rank b) := by
      refine knockout_rule (P := fun l => l.Nodup ∧ (a ∈ l →
        l.find? (fun b => key b = key a) = some a ∧
          ∃ b ∈ l, b ≠ a ∧ key b = key a ∧ rank a ≤ rank b)) ?_
        ⟨hnodup, fun _ => ⟨hfirst, b, hb, hne, hkey, hge⟩⟩
      rintro l c ⟨hnodup, h⟩ hloser
      refine ⟨hnodup.erase c, fun hmem => ?_⟩
      obtain ⟨hac, hal⟩ := hnodup.mem_erase_iff.mp hmem
      obtain ⟨hfirst, b, hb, hne, hkey, hge⟩ := h hal
      refine ⟨find?_erase_of_ne hfirst hac, b, (mem_erase_of_ne ?_).mpr hb, hne, hkey, hge⟩
      rintro rfl
      rcases loserOf_first hfirst hloser hkey with heq | hlt
      · exact hne heq
      · exact absurd hge (not_le.mpr hlt)
    obtain ⟨-, b, hb, hne, hkey, -⟩ := hbeaten.2 ha
    exact hne (eq_of_mem_knockout hb ha hkey)
  · intro h
    have hstays : a ∈ knockout key rank l ∧
        ∀ b ∈ knockout key rank l, b ≠ a → key b = key a → rank b < rank a := by
      refine knockout_rule
        (P := fun l => a ∈ l ∧ ∀ b ∈ l, b ≠ a → key b = key a → rank b < rank a) ?_
        ⟨mem_of_find?_eq_some hfirst, h⟩
      rintro l c ⟨ha, h⟩ hloser
      refine ⟨(mem_erase_of_ne ?_).mpr ha, fun b hb => h b (mem_of_mem_erase hb)⟩
      rintro rfl
      obtain ⟨-, b, hb, hne, hkey, hge⟩ := loserOf_spec hloser
      exact absurd hge (not_le.mpr (h b hb hne hkey))
    exact hstays.1

end Knockout

end GrooveIp.Lib
