import GrooveIp.Belr.Parsing

/-!
# Optimizing a grammar

`Grammar::optimize`, `src/submodules/belr/src/belr.cpp` lines 195–227, 273–364 and 731–735. For
each selector the maps of the characters with which its alternatives begin are computed; if they
do not intersect the selector is marked exclusive and from then on takes the first alternative
that matches something instead of the longest one.
-/

namespace GrooveIp.Belr

open Lib Selector

/-- `TransitionMap::mPossibleChars`; belr.h:53. -/
abbrev TransitionMap := Nat → Bool

namespace TransitionMap

/-- The empty map; belr.cpp:34. -/
def empty : TransitionMap := fun _ => false

/-- Note a character. -/
def set (mask : TransitionMap) (i : Nat) : TransitionMap := fun k => k == i || mask k

/-- `intersect`; belr.cpp:39. -/
def intersect (mask other : TransitionMap) : Bool := (List.range 256).any fun i => mask i && other i

/-- `merge`; belr.cpp:57. -/
def merge (mask other : TransitionMap) : TransitionMap := fun i => mask i || other i

end TransitionMap

section TransitionMaps

variable (h : Heap)

/-- `Recognizer::_getTransitionMap` (belr.cpp:210): each character is fed, followed by a NUL; those
still to be tried are given. -/
def Recognizer.probe (fuel : Nat) (r : Ref) : List Nat → TransitionMap → Except Fault TransitionMap
  | [], mask => .ok mask
  | i :: chars, mask => do
    let m ← feed nullContext [UInt8.ofNat i, 0] h fuel r 0 ()
    Recognizer.probe fuel r chars (if m.1 = some 1 then mask.set i else mask)

/-- The entries `Literal::_getTransitionMap` sets. The index is a `char`, which a byte from 128 on
makes negative; belr.cpp:561. -/
def Literal.transitionMap (text : Bytes) (mask : TransitionMap) : Except Fault TransitionMap :=
  let first := text.headD 0
  if first < 128 then
    .ok ((mask.set (lowerInt first.toNat).toNat).set (upperInt first.toNat).toNat)
  else .error .outOfBounds

/-- The loop of `Selector::_getTransitionMap`; belr.cpp:273. -/
def Selector.transitionMap (rec : Ref → TransitionMap → Except Fault (Bool × TransitionMap)) :
    List Ref → TransitionMap → Except Fault TransitionMap
  | [], mask => .ok mask
  | e :: es, mask => do
    let m ← rec e mask
    transitionMap rec es m.2

/-- `Sequence::_getTransitionMap`: up to the first element whose map is complete; belr.cpp:385. -/
def Sequence.transitionMap (rec : Ref → TransitionMap → Except Fault (Bool × TransitionMap)) :
    List Ref → TransitionMap → Except Fault (Bool × TransitionMap)
  | [], mask => .ok (false, mask)
  | e :: es, mask => do
    let m ← rec e mask
    if m.1 then .ok (true, m.2) else Sequence.transitionMap rec es m.2

/-- `getTransitionMap`, by the class of the recognizer: whether the map is complete, and the
entries added; belr.cpp:195. -/
def getTransitionMap : Nat → Ref → TransitionMap → Except Fault (Bool × TransitionMap)
  | 0, _, _ => .error .diverged
  | fuel + 1, r, mask =>
    match h.node? r with
    | none => .error .nullDereference
    | some (.selector _ es _) => do
      let m ← transitionMap (getTransitionMap fuel) es mask
      .ok (true, m)
    | some (.sequence es) => Sequence.transitionMap (getTransitionMap fuel) es mask
    | some (.loop e min _) => do
      let m ← getTransitionMap fuel e mask
      .ok (decide (min ≠ 0), m.2)
    | some (.literal text) => do
      let m ← Literal.transitionMap text mask
      .ok (true, m)
    | some (.char _ _) | some (.charRange _ _) | some (.recognizerPointer _)
    | some (.recognizerAlias _) => do
      let m ← Recognizer.probe h fuel r (List.range 256) mask
      .ok (true, m)

/-- Whether no two maps of the elements intersect, each against those before it, whose union is
`all`; belr.cpp:345. -/
def Selector.disjoint (fuel : Nat) : List Ref → Option TransitionMap → Except Fault Bool
  | [], _ => .ok true
  | e :: es, all => do
    let cur ← getTransitionMap h fuel e .empty
    match all with
    | none => disjoint fuel es (some cur.2)
    | some all =>
      if cur.2.intersect all then .ok false
      else disjoint fuel es (some (all.merge cur.2))

end TransitionMaps

/-- `mIsExclusive=true`; belr.cpp:360. -/
def Recognizer.setExclusive (r : Recognizer) : Recognizer :=
  match r.node with
  | .selector c es _ => { r with node := .selector c es true }
  | _ => r

/-- Optimize the elements in order. -/
def optimizeAll (rec : Ref → Heap → Except Fault Heap) : List Ref → Heap → Except Fault Heap
  | [], h => .ok h
  | e :: es, h => do
    let h' ← rec e h
    optimizeAll rec es h'

/-- `Recognizer::optimize` with `_optimize` of each class (belr.cpp:224): a rule is left to the
grammar, except at level zero. -/
def optimize : Nat → Nat → Ref → Heap → Except Fault Heap
  | 0, _, _, _ => .error .diverged
  | fuel + 1, level, r, h =>
    match h[r]? with
    | none => .error .nullDereference
    | some recognizer =>
      if level ≠ 0 ∧ recognizer.id ≠ 0 then .ok h
      else
        match recognizer.node with
        | .selector _ es _ => do
          let h' ← optimizeAll (optimize fuel (level + 1)) es h
          let disjoint ← disjoint h' fuel es none
          .ok (if disjoint then h'.modify r Recognizer.setExclusive else h')
        | .sequence es => optimizeAll (optimize fuel (level + 1)) es h
        | .loop e _ _ => optimize fuel (level + 1) e h
        | _ => .ok h

/-- `Grammar::optimize`; belr.cpp:731. -/
def Grammar.optimize (g : Grammar) (fuel : Nat) : Except Fault Grammar := do
  let heap ← optimizeAll (Belr.optimize fuel 0) (g.rules.map Prod.snd) g.heap
  .ok { g with heap }

/-! ## Only selectors are marked -/

/-- A selector that is not exclusive before and is after. -/
def NewlyExclusive (h h' : Heap) (r : Ref) (c : Bool) (es : List Ref) : Prop :=
  ∃ recognizer, h[r]? = some recognizer ∧ recognizer.node = .selector c es false ∧
    h'[r]? = some { recognizer with node := .selector c es true }

/-- Two heaps that differ in selectors that are marked exclusive only. -/
def OnlyMarks (h h' : Heap) : Prop := ∀ r, h'[r]? = h[r]? ∨ ∃ c es, NewlyExclusive h h' r c es

theorem OnlyMarks.refl (h : Heap) : OnlyMarks h h := fun _ => .inl rfl

theorem OnlyMarks.trans {h h₁ h₂ : Heap} (h₀ : OnlyMarks h h₁) (h₁₂ : OnlyMarks h₁ h₂) :
    OnlyMarks h h₂ := by
  intro r
  rcases h₀ r with heq | ⟨c, es, recognizer, hget, hnode, hget'⟩
  · rcases h₁₂ r with heq' | ⟨c, es, recognizer, hget, hnode, hget'⟩
    · exact .inl (heq'.trans heq)
    · exact .inr ⟨c, es, recognizer, by rw [← heq, hget], hnode, hget'⟩
  · rcases h₁₂ r with heq' | ⟨c', es', recognizer', hget₁, hnode₁, -⟩
    · exact .inr ⟨c, es, recognizer, hget, hnode, by rw [heq', hget']⟩
    · rw [hget'] at hget₁
      cases hget₁
      cases hnode₁

theorem OnlyMarks.modify (h : Heap) (r : Ref) :
    OnlyMarks h (h.modify r Recognizer.setExclusive) := by
  intro k
  rw [List.getElem?_modify]
  by_cases hk : r = k
  · subst hk
    cases hget : h[r]? with
    | none => exact .inl (by simp)
    | some recognizer =>
      cases hnode : recognizer.node with
      | selector c es x =>
        cases x with
        | true =>
          left
          have hsame : recognizer.setExclusive = recognizer := by
            cases recognizer
            cases hnode
            rfl
          simp [hsame]
        | false =>
          refine .inr ⟨c, es, recognizer, hget, hnode, ?_⟩
          rw [List.getElem?_modify, hget]
          simp [Recognizer.setExclusive, hnode]
      | _ =>
        left
        simp [Recognizer.setExclusive, hnode]
  · exact .inl (by simp [hk])

theorem OnlyMarks.optimizeAll {rec : Ref → Heap → Except Fault Heap}
    (hrec : ∀ e h h', rec e h = .ok h' → OnlyMarks h h') {es : List Ref} {h h' : Heap}
    (hopt : Belr.optimizeAll rec es h = .ok h') : OnlyMarks h h' := by
  induction es generalizing h with
  | nil =>
    cases hopt
    exact .refl _
  | cons e es ih =>
    rw [Belr.optimizeAll, bind_eq_ok] at hopt
    obtain ⟨h₁, h₁e, hopt⟩ := hopt
    exact (hrec e h h₁ h₁e).trans (ih hopt)

theorem OnlyMarks.optimize {fuel level : Nat} {r : Ref} {h h' : Heap}
    (hopt : Belr.optimize fuel level r h = .ok h') : OnlyMarks h h' := by
  induction fuel generalizing level r h h' with
  | zero => cases hopt
  | succ fuel ih =>
    rw [Belr.optimize] at hopt
    split at hopt
    · cases hopt
    · next recognizer _ =>
      split at hopt
      · cases hopt
        exact .refl h
      · split at hopt
        · rw [bind_eq_ok] at hopt
          obtain ⟨h₁, h₁e, hopt⟩ := hopt
          rw [bind_eq_ok] at hopt
          obtain ⟨disjoint, -, hopt⟩ := hopt
          have hall := OnlyMarks.optimizeAll (fun e h h' => ih) h₁e
          cases hopt
          split
          · exact hall.trans (.modify h₁ r)
          · exact hall
        · exact OnlyMarks.optimizeAll (fun e h h' => ih) hopt
        · exact ih hopt
        · cases hopt
          exact .refl h

section Pick

variable {drec : Deriver} {pos : Nat}

variable {ds : List (Option (Nat × Forest))}

end Pick

end GrooveIp.Belr
