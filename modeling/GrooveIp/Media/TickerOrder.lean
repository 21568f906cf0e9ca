import GrooveIp.Lib.Memory
import GrooveIp.Media.Ticker
import Mathlib.Data.Fin.VecNotation
import Mathlib.Data.Finset.Card
import Mathlib.Data.Fintype.EquivFin
import Mathlib.Order.WellFounded

/-!
# The order of a tick

What a walk of `run_graph` does to the state of a tick, in a form that composes: `Walk` relates the
states before and after any number of walks. From it follow the termination of a tick, that every
scheduled filter is called once, and that a filter no loop can reach is called behind the filters
that feed it.
-/

namespace GrooveIp.Media

open List

variable {F : Type} {g : FilterGraph F} {tick : BitVec 32}

/-- A filter carries the stamp of the tick. -/
def TickState.Done (s : TickState F) (tick : BitVec 32) (f : F) : Prop := s.lastTick f = tick

instance (s : TickState F) (tick : BitVec 32) (f : F) : Decidable (s.Done tick f) :=
  inferInstanceAs (Decidable (_ = _))

/-- Every filter that feeds `f` carries the stamp. -/
def TickState.Fed (s : TickState F) (g : FilterGraph F) (tick : BitVec 32) (f : F) : Prop :=
  ∀ e, g.Feeds e f → s.Done tick e

theorem filterCanProcess_iff (s : TickState F) (f : F) :
    filterCanProcess g tick s.lastTick f = true ↔ s.Fed g tick f := by
  unfold filterCanProcess TickState.Fed FilterGraph.Feeds TickState.Done
  rw [all_eq_true]
  constructor
  · intro h e he
    simpa using h (some e) he
  · intro h l hl
    cases l with
    | none => rfl
    | some e => simpa using h e hl

theorem FilterGraph.Settled.induction [Finite F] {sources : List F} {P : F → Prop}
    (hstep : ∀ f, g.Settled sources f → (∀ e, g.Feeds e f → P e) → P f) (f : F)
    (hf : g.Settled sources f) : P f := by
  let upstream (a b : {f // g.Settled sources f}) : Prop := Relation.TransGen g.Feeds a.1 b.1
  have hirrefl : Std.Irrefl upstream :=
    ⟨fun a h => (a.2 a.1 .refl).1 h⟩
  have hwf : WellFounded upstream := Finite.wellFounded_of_trans_of_irrefl _
  have hall : ∀ a : {f // g.Settled sources f}, P a.1 := by
    intro a
    induction a using hwf.induction with
    | _ a ih =>
      apply hstep a.1 a.2
      intro e he
      exact ih ⟨e, a.2.of_feeds he⟩ (.single he)
  exact hall ⟨f, hf⟩

section

variable [DecidableEq F]

/-- The stamps in terms of the calls: a filter carries the stamp of the tick since it was called,
or from before. -/
structure TickState.Stamped (s : TickState F) (before : F → BitVec 32) (tick : BitVec 32) :
    Prop where
  lastTick : ∀ f, s.lastTick f = if f ∈ s.calls then tick else before f
  nodup : s.calls.Nodup
  fresh : ∀ f ∈ s.calls, before f ≠ tick

open TickState

/-- What walks from filters in a set, which holds what its elements feed, do to a state. -/
structure Walk (g : FilterGraph F) (tick : BitVec 32) (force : Bool) (among : F → Prop)
    (s s' : TickState F) : Prop where
  /-- The calls are added at the end. -/
  calls : s.calls <+: s'.calls
  /-- What was put aside stays. -/
  aside : s.unschedulable ⊆ s'.unschedulable
  /-- A forced walk puts nothing aside. -/
  forced : force = true → s'.unschedulable = s.unschedulable
  /-- Stamps stay. -/
  done : ∀ f, s.Done tick f → s'.Done tick f
  /-- Stamps and calls stay in step. -/
  stamped : ∀ before, s.Stamped before tick → s'.Stamped before tick
  /-- Only filters of the set are called or put aside. -/
  calledAmong : ∀ f ∈ s'.calls, f ∈ s.calls ∨ among f
  asideAmong : ∀ f ∈ s'.unschedulable, f ∈ s.unschedulable ∨ among f
  /-- What a called filter feeds is called or put aside. -/
  closed : ∀ f ∈ s'.calls, f ∉ s.calls → ∀ h, g.Feeds f h → s'.Done tick h ∨ h ∈ s'.unschedulable
  /-- Unforced, a filter is called when it is fed, in the calls up to there or from before. -/
  order : force = false → ∀ before, s.Stamped before tick →
    ∀ pre f post, s'.calls = pre ++ f :: post → s.calls.length ≤ pre.length →
      ∀ e, g.Feeds e f → e ∈ pre ∨ before e = tick
  /-- Unforced, a filter that became fed was called. -/
  complete : force = false → ∀ h, s'.Fed g tick h → s.Fed g tick h ∨ s'.Done tick h

/-! ### Walks compose -/

theorem Walk.refl (force : Bool) (among : F → Prop) (s : TickState F) :
    Walk g tick force among s s where
  calls := prefix_refl _
  aside := List.Subset.refl _
  forced _ := rfl
  done _ h := h
  stamped _ h := h
  calledAmong _ h := .inl h
  asideAmong _ h := .inl h
  closed _ h hnot := absurd h hnot
  order _ _ _ pre f post heq hle := by
    have hlen := congrArg List.length heq
    simp at hlen
    omega
  complete _ _ h := .inl h

variable {force : Bool} {among : F → Prop} {s s' : TickState F}

theorem Walk.trans {s'' : TickState F} (h : Walk g tick force among s s')
    (h' : Walk g tick force among s' s'') : Walk g tick force among s s'' where
  calls := h.calls.trans h'.calls
  aside := List.Subset.trans h.aside h'.aside
  forced hf := (h'.forced hf).trans (h.forced hf)
  done f hf := h'.done f (h.done f hf)
  stamped before hb := h'.stamped before (h.stamped before hb)
  calledAmong f hf := by
    rcases h'.calledAmong f hf with hf | hf
    · exact h.calledAmong f hf
    · exact .inr hf
  asideAmong f hf := by
    rcases h'.asideAmong f hf with hf | hf
    · exact h.asideAmong f hf
    · exact .inr hf
  closed f hf hnot x hx := by
    by_cases hmid : f ∈ s'.calls
    · rcases h.closed f hmid hnot x hx with hd | ha
      · exact .inl (h'.done x hd)
      · exact .inr (h'.aside ha)
    · exact h'.closed f hf hmid x hx
  order hf before hb pre f post heq hle e he := by
    by_cases hlt : pre.length < s'.calls.length
    · -- the call is one of the first walk, which sees the same calls in front of it
      obtain ⟨rest, hrest⟩ := h'.calls
      have hpre : pre ++ [f] <+: s'.calls := by
        apply prefix_of_prefix_length_le (show pre ++ [f] <+: s''.calls from ⟨post, by simp [heq]⟩)
        · exact ⟨rest, hrest⟩
        · simpa [Nat.succ_le_iff] using hlt
      obtain ⟨post', hpost⟩ := hpre
      exact h.order hf before hb pre f post' (by rw [← hpost]; simp) hle e he
    · exact h'.order hf before (h.stamped before hb) pre f post heq (by omega) e he
  complete hf x hx := by
    rcases h'.complete hf x hx with hmid | hd
    · rcases h.complete hf x hmid with hs | hd
      · exact .inl hs
      · exact .inr (h'.done x hd)
    · exact .inr hd

theorem Walk.putAside {f : F} (hf : among f) :
    Walk g tick false among s { s with unschedulable := f :: s.unschedulable } where
  calls := prefix_refl _
  aside := subset_cons_self _ _
  forced h := absurd h (by decide)
  done _ h := h
  stamped _ h := ⟨h.lastTick, h.nodup, h.fresh⟩
  calledAmong _ h := .inl h
  asideAmong x hx := by
    rcases mem_cons.mp hx with rfl | hx
    · exact .inr hf
    · exact .inl hx
  closed _ h hnot := absurd h hnot
  order _ _ _ pre x post heq hle := by
    have hlen := congrArg List.length heq
    simp at hlen
    omega
  complete _ _ h := .inl h

theorem TickState.done_call {f x : F} : (s.call tick f).Done tick x ↔ x = f ∨ s.Done tick x := by
  by_cases hx : x = f
  · simp [Done, TickState.call, hx]
  · simp [Done, TickState.call, hx]

theorem TickState.Stamped.call {before : F → BitVec 32} (h : s.Stamped before tick)
    {f : F} (hnot : ¬ s.Done tick f) : (s.call tick f).Stamped before tick := by
  have hmem : f ∉ s.calls := by
    intro hm
    apply hnot
    rw [Done, h.lastTick, if_pos hm]
  have hbefore : before f ≠ tick := by
    intro he
    apply hnot
    rw [Done, h.lastTick, if_neg hmem, he]
  constructor
  · intro x
    by_cases hx : x = f
    · simp [TickState.call, hx]
    · simp [TickState.call, hx, h.lastTick x]
  · apply nodup_append.mpr
    refine ⟨h.nodup, nodup_singleton f, ?_⟩
    intro a ha b hb he
    rw [mem_singleton.mp hb] at he
    exact hmem (he ▸ ha)
  · intro x hx
    rcases mem_append.mp hx with hx | hx
    · exact h.fresh x hx
    · rw [mem_singleton.mp hx]
      exact hbefore

theorem Walk.call {f : F} (hf : among f) (hnot : ¬ s.Done tick f)
    (hfed : force = false → s.Fed g tick f) (h : Walk g tick force among (s.call tick f) s')
    (hnext : ∀ x, g.Feeds f x → (s'.Done tick x ∨ x ∈ s'.unschedulable) ∧ ((s.call tick f).Fed g
      tick x → s'.Done tick x)) : Walk g tick force among s s' where
  calls := (prefix_append _ _).trans h.calls
  aside := h.aside
  forced := h.forced
  done x hx := h.done x (done_call.mpr (.inr hx))
  stamped before hb := h.stamped before (hb.call hnot)
  calledAmong x hx := by
    rcases h.calledAmong x hx with hx | hx
    · rcases mem_append.mp hx with hx | hx
      · exact .inl hx
      · rw [mem_singleton.mp hx]
        exact .inr hf
    · exact .inr hx
  asideAmong := h.asideAmong
  closed x hx hnotin x' hx' := by
    by_cases he : x = f
    · exact (hnext x' (he ▸ hx')).1
    · apply h.closed x hx _ x' hx'
      simp [TickState.call, hnotin, he]
  order hforce before hb pre x post heq hle e he := by
    by_cases hlen : pre.length = s.calls.length
    · -- the call itself, with the calls before it in front
      obtain ⟨rest, hrest⟩ := h.calls
      have hsplit : s.calls ++ f :: rest = pre ++ x :: post := by
        rw [← heq, ← hrest]
        simp [TickState.call]
      obtain ⟨hpre, hx⟩ := append_inj hsplit hlen.symm
      obtain ⟨rfl, -⟩ := List.cons.inj hx
      have hdone := hfed hforce e he
      rw [Done, hb.lastTick] at hdone
      rw [← hpre]
      by_cases hm : e ∈ s.calls
      · exact .inl hm
      · exact .inr (by simpa [hm] using hdone)
    · have hlt : (s.call tick f).calls.length ≤ pre.length := by
        simp only [TickState.call, length_append, length_singleton]
        omega
      exact h.order hforce before (hb.call hnot) pre x post heq hlt e he
  complete hforce x hx := by
    rcases h.complete hforce x hx with hcall | hd
    · by_cases hs : s.Fed g tick x
      · exact .inl hs
      · -- the stamp of `f` was the one that was missing
        right
        apply (hnext x _).2 hcall
        by_contra hfeeds
        apply hs
        intro e he
        rcases done_call.mp (hcall e he) with rfl | hd
        · exact absurd he hfeeds
        · exact hd
    · exact .inr hd

/-! ### A walk of the source is a walk -/

/-- What a walk from `x` does for `x` itself. -/
structure Visited (g : FilterGraph F) (tick : BitVec 32) (force : Bool) (s s' : TickState F)
    (x : F) : Prop where
  /-- It is called or put aside. -/
  seen : s'.Done tick x ∨ x ∈ s'.unschedulable
  /-- It is called where nothing stands against it. -/
  called : force = true ∨ s.Fed g tick x → s'.Done tick x

theorem Visited.mono {s₁ s₂ : TickState F} {x : F} (h : Visited g tick force s₁ s₂ x)
    (h₁ : Walk g tick force among s s₁) (h₂ : Walk g tick force among s₂ s') :
    Visited g tick force s s' x where
  seen := by
    rcases h.seen with hd | ha
    · exact .inl (h₂.done x hd)
    · exact .inr (h₂.aside ha)
  called hx := by
    apply h₂.done x (h.called _)
    rcases hx with hf | hfed
    · exact .inl hf
    · exact .inr fun e he => h₁.done e (hfed e he)

variable [Fintype F]

/-- How many filters a tick has still to call. -/
def TickState.undone (s : TickState F) (tick : BitVec 32) : Nat :=
  (Finset.univ.filter fun f => ¬ s.Done tick f).card

theorem Walk.undone_le (h : Walk g tick force among s s') : s'.undone tick ≤ s.undone tick := by
  apply Finset.card_le_card
  intro f hf
  simp only [Finset.mem_filter, Finset.mem_univ, true_and] at hf ⊢
  intro hd
  exact hf (h.done f hd)

theorem TickState.undone_call {f : F} (hnot : ¬ s.Done tick f) :
    (s.call tick f).undone tick < s.undone tick := by
  apply Finset.card_lt_card
  rw [Finset.ssubset_iff_of_subset]
  · refine ⟨f, by simpa using hnot, ?_⟩
    simp [done_call]
  · intro x hx
    simp only [Finset.mem_filter, Finset.mem_univ, true_and, done_call, not_or] at hx ⊢
    exact hx.2

theorem foldlM_walk {bound : Nat} {run : F → TickState F → Option (TickState F)}
    (hrun : ∀ x s, among x → s.undone tick < bound → ∃ s', run x s = some s' ∧ Walk g tick force
      among s s' ∧ Visited g tick force s s' x) (pins : List (Option F))
    (hpins : ∀ x, some x ∈ pins → among x) (s : TickState F) (hs : s.undone tick < bound) :
    ∃ s', pins.foldlM (fun s l =>
        match l with
        | some next => run next s
        | none => some s) s = some s' ∧
      Walk g tick force among s s' ∧ ∀ x, some x ∈ pins → Visited g tick force s s' x := by
  induction pins generalizing s with
  | nil => exact ⟨s, rfl, Walk.refl _ _ _, by simp⟩
  | cons l pins ih =>
    have hrest : ∀ x, some x ∈ pins → among x := fun x hx => hpins x (by simp [hx])
    cases l with
    | none =>
      obtain ⟨s', hfold, hwalk, hvisit⟩ := ih hrest s hs
      refine ⟨s', hfold, hwalk, ?_⟩
      intro x hx
      exact hvisit x (by simpa using hx)
    | some next =>
      obtain ⟨s₁, hone, hwalk₁, hvisit₁⟩ := hrun next s (hpins next (by simp)) hs
      obtain ⟨s', hfold, hwalk, hvisit⟩ := ih hrest s₁ (Nat.lt_of_le_of_lt hwalk₁.undone_le hs)
      refine ⟨s', ?_, hwalk₁.trans hwalk, ?_⟩
      · rw [foldlM_cons]
        simp only [hone]
        exact hfold
      · intro x hx
        rcases mem_cons.mp hx with hx | hx
        · rw [Option.some.inj hx]
          exact hvisit₁.mono (Walk.refl _ _ _) hwalk
        · exact (hvisit x hx).mono hwalk₁ (Walk.refl _ _ _)

theorem runGraph_walk (hamong : ∀ f x, among f → g.Feeds f x → among x) (n : Nat) (f : F)
    (s : TickState F) (hf : among f) (hn : s.undone tick < n) :
    ∃ s', runGraph g tick force n f s = some s' ∧ Walk g tick force among s s' ∧
      Visited g tick force s s' f := by
  induction n generalizing f s with
  | zero => omega
  | succ n ih =>
    rw [runGraph]
    by_cases hdone : s.lastTick f = tick
    · rw [if_pos hdone]
      exact ⟨s, rfl, Walk.refl _ _ _, .inl hdone, fun _ => hdone⟩
    · rw [if_neg hdone]
      by_cases hgo : (filterCanProcess g tick s.lastTick f || force) = true
      · rw [if_pos hgo]
        have hundone := undone_call hdone
        have hfed : force = false → s.Fed g tick f := by
          intro hforce
          rw [hforce, Bool.or_false] at hgo
          exact (filterCanProcess_iff s f).mp hgo
        have hpins : ∀ x, some x ∈ g.outputs f → among x := fun x hx =>
          hamong f x hf ((g.linked f x).mp hx)
        obtain ⟨s', hfold, hwalk, hvisit⟩ :=
          foldlM_walk (fun x s hx hs => ih x s hx hs) (g.outputs f) hpins (s.call tick f) (by omega)
        have hcalled : s'.Done tick f := hwalk.done f (done_call.mpr (.inl rfl))
        refine ⟨s', hfold, ?_, .inl hcalled, fun _ => hcalled⟩
        apply Walk.call hf hdone hfed hwalk
        intro x hx
        have hv := hvisit x ((g.linked f x).mpr hx)
        exact ⟨hv.seen, fun h => hv.called (.inr h)⟩
      · rw [if_neg hgo]
        obtain ⟨hcan, hforce⟩ : filterCanProcess g tick s.lastTick f = false ∧ force = false := by
          simpa using hgo
        subst hforce
        refine ⟨_, rfl, Walk.putAside hf, .inr (by simp), ?_⟩
        rintro (h | h)
        · cases h
        · rw [(filterCanProcess_iff s f).mpr h] at hcan
          cases hcan

theorem foldlM_runGraph (tick : BitVec 32) (force : Bool)
    (hamong : ∀ f x, among f → g.Feeds f x → among x) (list : List F)
    (hlist : ∀ f ∈ list, among f) (s : TickState F) :
    ∃ s', list.foldlM (fun s f => runGraph g tick force (Fintype.card F + 1) f s) s = some s' ∧
      Walk g tick force among s s' ∧ ∀ f ∈ list, Visited g tick force s s' f := by
  have hs : s.undone tick < Fintype.card F + 1 := Nat.lt_succ_of_le (Finset.card_le_univ _)
  obtain ⟨s', hfold, hwalk, hvisit⟩ :=
    foldlM_walk (fun x s hx hs => runGraph_walk hamong _ x s hx hs) (list.map some)
      (by simpa using hlist) s hs
  rw [foldlM_map] at hfold
  exact ⟨s', hfold, hwalk, fun f hf => hvisit f (by simpa using hf)⟩

/-! ### A tick -/

variable (t : Ticker F)

/-- The state before a tick. -/
def Ticker.start : TickState F := { lastTick := t.lastTick }

/-- No filter that is to be called carries the number of the next tick. -/
def Ticker.Fresh (g : FilterGraph F) : Prop :=
  ∀ f, g.Reachable t.executionList f → t.lastTick f ≠ t.ticks + 1

theorem Ticker.tick_turns (g : FilterGraph F) :
    ∃ s₁ s₂, t.tick g = some (s₂.calls, { t with ticks := t.ticks + 1, lastTick := s₂.lastTick }) ∧
      Walk g (t.ticks + 1) false (g.Reachable t.executionList) t.start s₁ ∧
      (∀ f ∈ t.executionList, Visited g (t.ticks + 1) false t.start s₁ f) ∧
      Walk g (t.ticks + 1) true (g.Reachable t.executionList) { s₁ with unschedulable := [] } s₂ ∧
      ∀ f ∈ s₁.unschedulable, s₂.Done (t.ticks + 1) f := by
  have hamong : ∀ f x, g.Reachable t.executionList f → g.Feeds f x →
      g.Reachable t.executionList x := by
    rintro f x ⟨s, hs, hpath⟩ hx
    exact ⟨s, hs, hpath.tail hx⟩
  obtain ⟨s₁, hfirst, hwalk₁, hvisit₁⟩ :=
    foldlM_runGraph (t.ticks + 1) false hamong t.executionList (fun f hf => ⟨f, hf, .refl⟩) t.start
  have haside : ∀ f ∈ s₁.unschedulable, g.Reachable t.executionList f := by
    intro f hf
    rcases hwalk₁.asideAmong f hf with h | h
    · cases h
    · exact h
  obtain ⟨s₂, hsecond, hwalk₂, hvisit₂⟩ :=
    foldlM_runGraph (t.ticks + 1) true hamong s₁.unschedulable haside
      { s₁ with unschedulable := [] }
  have hempty : s₂.unschedulable = [] := hwalk₂.forced rfl
  by_cases hnone : s₁.unschedulable = []
  · have hsame : { s₁ with unschedulable := [] } = s₁ := by rw [← hnone]
    refine ⟨s₁, s₁, ?_, hwalk₁, hvisit₁, ?_, by simp [hnone]⟩
    · have hfirst' := hfirst
      unfold Ticker.start at hfirst'
      simp only [Ticker.tick, runGraphs, hfirst', Option.bind_some, Option.map_some, if_pos hnone]
    · rw [hsame]
      exact Walk.refl _ _ _
  · refine ⟨s₁, s₂, ?_, hwalk₁, hvisit₁, hwalk₂, fun f hf => (hvisit₂ f hf).called (.inl rfl)⟩
    have hfirst' := hfirst
    unfold Ticker.start at hfirst'
    simp only [Ticker.tick, runGraphs, hfirst', hsecond, Option.bind_some, Option.map_some,
      if_neg hnone, if_pos hempty]

/-- What one tick calls: every filter that a source reaches once, nothing else, and a settled
filter behind all that feed it. -/
structure InOrder (g : FilterGraph F) (sources calls : List F) : Prop where
  once : ∀ f, g.Reachable sources f → calls.count f = 1
  only : ∀ f ∈ calls, g.Reachable sources f
  behind : ∀ f, g.Settled sources f →
    ∃ pre post, calls = pre ++ f :: post ∧ ∀ e, g.Feeds e f → e ∈ pre

/-- A tick calls the filters in order, and leaves no number of the next one behind. -/
theorem Ticker.Fresh.tick_calls {t : Ticker F} (h : t.Fresh g) :
    ∃ calls t', t.tick g = some (calls, t') ∧ InOrder g t.executionList calls ∧
      t'.executionList = t.executionList ∧ t'.Fresh g := by
  obtain ⟨s₁, s₂, htick, hwalk₁, hvisit, hwalk₂, hforced⟩ := t.tick_turns g
  have hstart : t.start.Stamped t.lastTick (t.ticks + 1) :=
    ⟨fun f => by simp [Ticker.start], by simp [Ticker.start], by simp [Ticker.start]⟩
  have hstamped₁ := hwalk₁.stamped _ hstart
  have hstamped₂ := hwalk₂.stamped _ ⟨hstamped₁.lastTick, hstamped₁.nodup, hstamped₁.fresh⟩
  have hcalled : ∀ s : TickState F, s.Stamped t.lastTick (t.ticks + 1) → ∀ f,
      g.Reachable t.executionList f → s.Done (t.ticks + 1) f → f ∈ s.calls := by
    intro s hs f hf hd
    by_contra hnot
    rw [Done, hs.lastTick, if_neg hnot] at hd
    exact h f hf hd
  have hdone : ∀ f ∈ s₂.calls, ∀ x, g.Feeds f x → s₂.Done (t.ticks + 1) x := by
    intro f hf x hx
    by_cases hfirst : f ∈ s₁.calls
    · rcases hwalk₁.closed f hfirst (by simp [Ticker.start]) x hx with hd | ha
      · exact hwalk₂.done x hd
      · exact hforced x ha
    · rcases hwalk₂.closed f hf hfirst x hx with hd | ha
      · exact hd
      · rw [hwalk₂.forced rfl] at ha
        cases ha
  have hall : ∀ f, g.Reachable t.executionList f → f ∈ s₂.calls := by
    rintro f ⟨s, hs, hpath⟩
    induction hpath with
    | refl =>
      apply hcalled s₂ hstamped₂ s ⟨s, hs, .refl⟩
      rcases (hvisit s hs).seen with hd | ha
      · exact hwalk₂.done s hd
      · exact hforced s ha
    | tail hpath hlast ih =>
      exact hcalled s₂ hstamped₂ _ ⟨s, hs, hpath.tail hlast⟩ (hdone _ ih _ hlast)
  have honly : ∀ f ∈ s₂.calls, g.Reachable t.executionList f := by
    intro f hf
    rcases hwalk₂.calledAmong f hf with hf | hf
    · rcases hwalk₁.calledAmong f hf with hf | hf
      · cases hf
      · exact hf
    · exact hf
  -- a settled filter is called in the first turn
  have hfirst : ∀ f, g.Settled t.executionList f → f ∈ s₁.calls := by
    apply FilterGraph.Settled.induction
    intro f hf ih
    have hreach : g.Reachable t.executionList f := (hf f .refl).2
    apply hcalled s₁ hstamped₁ f hreach
    have hfed : s₁.Fed g (t.ticks + 1) f := by
      intro e he
      rw [Done, hstamped₁.lastTick, if_pos (ih e he)]
    rcases hwalk₁.complete rfl f hfed with hbefore | hd
    · obtain ⟨s, hs, hpath⟩ := hreach
      rcases Relation.ReflTransGen.cases_tail hpath with rfl | ⟨e, -, he⟩
      · exact (hvisit f hs).called (.inr hbefore)
      · exact absurd (hbefore e he) (h e (hf.of_feeds he e .refl).2)
    · exact hd
  refine ⟨s₂.calls, _, htick, ⟨?_, honly, ?_⟩, rfl, ?_⟩
  · intro f hf
    exact count_eq_one_of_mem hstamped₂.nodup (hall f hf)
  · intro f hf
    obtain ⟨pre, post, hsplit⟩ := append_of_mem (hfirst f hf)
    obtain ⟨rest, hrest⟩ := hwalk₂.calls
    refine ⟨pre, post ++ rest, ?_, ?_⟩
    · rw [← hrest]
      simp [hsplit]
    · intro e he
      rcases hwalk₁.order rfl _ hstart pre f post hsplit (by simp [Ticker.start]) e he with
        hpre | hstale
      · exact hpre
      · exact absurd hstale (h e (hf.of_feeds he e .refl).2)
  · intro f hf
    have hlast : s₂.lastTick f = t.ticks + 1 := by
      rw [hstamped₂.lastTick, if_pos (hall f hf)]
    show s₂.lastTick f ≠ t.ticks + 1 + 1
    rw [hlast]
    intro heq
    have hone : (1 : BitVec 32) = 0 := by
      have := BitVec.add_right_eq_self.mp heq.symm
      exact this
    exact absurd hone (by decide)

/-! ### The ticks of a ticker -/

/-- The tickers that come about: an idle one, one to which the filters of a graph were attached,
all that their sources reach among them, and one behind a tick. A stamp is cleared to zero, so the
tick behind an attachment must not have that number, which one in `2 ^ 32` has. -/
inductive Ticker.Reached (g : FilterGraph F) : Ticker F → Prop where
  | idle (t : Ticker F) : t.executionList = [] → Ticker.Reached g t
  | attach (t : Ticker F) (filters : List F) : Ticker.Reached g t → t.ticks + 1 ≠ 0 →
      (∀ f, g.Reachable (getSources g filters) f → f ∈ filters) →
        Ticker.Reached g (t.attachMultiple g filters)
  | tick (t t' : Ticker F) (calls : List F) : Ticker.Reached g t → t.tick g = some (calls, t') →
      Ticker.Reached g t'

omit [Fintype F] in
theorem Ticker.Fresh.attachMultiple {t : Ticker F} (h : t.Fresh g) {filters : List F}
    (hticks : t.ticks + 1 ≠ 0) (hwhole : ∀ f, g.Reachable (getSources g filters) f → f ∈ filters) :
    (t.attachMultiple g filters).Fresh g := by
  rintro f ⟨s, hs, hpath⟩
  show (if f ∈ filters then 0 else t.lastTick f) ≠ t.ticks + 1
  split
  · exact hticks.symm
  · next hout =>
    rcases mem_append.mp hs with hs | hs
    · exact h f ⟨s, hs, hpath⟩
    · exact absurd (hwhole f ⟨s, hs, hpath⟩) hout

theorem Ticker.Reached.fresh {t : Ticker F} (h : Ticker.Reached g t) : t.Fresh g := by
  induction h with
  | idle t hidle =>
    rintro f ⟨s, hs, -⟩
    rw [hidle] at hs
    cases hs
  | attach t filters _ hticks hwhole ih => exact ih.attachMultiple hticks hwhole
  | tick t t' calls _ htick ih =>
    obtain ⟨calls', t'', htick', -, -, hfresh⟩ := Ticker.Fresh.tick_calls ih
    rw [htick] at htick'
    obtain ⟨-, rfl⟩ := Prod.mk.inj (Option.some.inj htick')
    exact hfresh

/-- Every tick of a ticker that comes about ends, calls every filter that a source reaches exactly
once, and calls a filter that is not downstream of a loop, nor of a filter no source reaches,
behind all that feed it. -/
theorem Ticker.Reached.tick_inOrder (h : Ticker.Reached g t) :
    ∃ calls t', t.tick g = some (calls, t') ∧ InOrder g t.executionList calls := by
  obtain ⟨calls, t', htick, horder, -⟩ := Ticker.Fresh.tick_calls h.fresh
  exact ⟨calls, t', htick, horder⟩

end

/-! ### Behind a loop -/

/-- A source `0`, a loop of `1` and `2`, the filter `3` behind `2`, and `4` behind `1` and `3`. -/
def loopGraph : FilterGraph (Fin 5) where
  inputs := ![[], [some 0, some 2], [some 1], [some 2], [some 1, some 3]]
  outputs := ![[some 1], [some 4, some 2], [some 1, some 3], [some 4], []]
  linked := by decide

/-- A source `0` and a filter `1` whose input is not linked, both in front of `2`. -/
def looseGraph : FilterGraph (Fin 3) where
  inputs := ![[], [none], [some 0, some 1]]
  outputs := ![[some 2], [some 2], []]
  linked := by decide

/-- An idle ticker. -/
def idleTicker (F : Type) : Ticker F := { lastTick := fun _ => 0 }

/-- The graph with a loop, attached to an idle ticker. -/
theorem Ticker.Reached.tick_inOrder_sample :
    ∃ calls t', ((idleTicker (Fin 5)).attachMultiple loopGraph (List.finRange 5)).tick loopGraph =
      some (calls, t') ∧ InOrder loopGraph
        ((idleTicker (Fin 5)).attachMultiple loopGraph (List.finRange 5)).executionList calls :=
  Ticker.Reached.tick_inOrder _ (.attach _ _ (.idle _ rfl) (by decide) fun f _ => mem_finRange f)

/-- The order of their first tick: in the one graph `4`, which is on no loop, is called before
`3`, which feeds it; in the other `2` is called although `1` never is. -/
theorem attached_not_behind :
    (∃ calls t', ((idleTicker (Fin 5)).attachMultiple loopGraph (List.finRange 5)).tick loopGraph =
        some (calls, t') ∧ ¬ ∀ f, loopGraph.OnNoCycle f →
          ∃ pre post, calls = pre ++ f :: post ∧ ∀ e, loopGraph.Feeds e f → e ∈ pre) ∧
      ∃ calls t', ((idleTicker (Fin 3)).attachMultiple looseGraph (List.finRange 3)).tick
          looseGraph = some (calls, t') ∧ ¬ ∀ f, looseGraph.OnNoCycle f →
            ∃ pre post, calls = pre ++ f :: post ∧ ∀ e, looseGraph.Feeds e f → e ∈ pre := by
  have hlast : ∀ {n : Nat} {g : FilterGraph (Fin n)} {f : Fin n}, (∀ e, some f ∉ g.inputs e) →
      g.OnNoCycle f := by
    intro n g f hf hcycle
    obtain ⟨e, he, -⟩ := Relation.TransGen.head'_iff.mp hcycle
    exact hf e he
  constructor
  · refine ⟨[0, 1, 4, 2, 3], _, rfl, ?_⟩
    intro h
    obtain ⟨pre, post, hcalls, hpre⟩ := h 4 (hlast (by decide))
    have hthree : (3 : Fin 5) ∈ pre := hpre 3 (show some 3 ∈ loopGraph.inputs 4 by decide)
    have hplace : ∀ k < 5, ([0, 1, 4, 2, 3] : List (Fin 5))[k]? = some 4 →
        3 ∉ ([0, 1, 4, 2, 3] : List (Fin 5)).take k := by decide
    have hlen := congrArg List.length hcalls
    simp only [length_append, length_cons, length_nil] at hlen
    apply hplace pre.length (by omega)
    · rw [hcalls]
      simp
    · rw [hcalls]
      simpa using hthree
  · refine ⟨[0, 2], _, rfl, ?_⟩
    intro h
    obtain ⟨pre, post, hcalls, hpre⟩ := h 2 (hlast (by decide))
    have hone : (1 : Fin 3) ∈ pre := hpre 1 (show some 1 ∈ looseGraph.inputs 2 by decide)
    have hmem : (1 : Fin 3) ∈ [(0 : Fin 3), 2] := by
      rw [hcalls]
      simp [hone]
    exact absurd hmem (by decide)

end GrooveIp.Media
