import Mathlib.Data.List.Forall2
import GrooveIp.Belr.LeftRecursion
import GrooveIp.Belr.Optimize

/-!
# When optimizing is invisible

`Grammar::optimize`, `src/submodules/belr/src/belr.cpp`, is invisible exactly when each selector
that it newly marks exclusive could do without looking at all its alternatives: wherever they all
return, the first to match something is as long as any. The maps of first characters do not give
that, as a pointer has none of the characters of a rule that needs two.
-/

namespace GrooveIp.Belr

open Lib

/-! ## The same derivations -/

section Agree

variable (input : Bytes) {drec drec' : Deriver} (hrec : ∀ e pos, Below (drec e pos) (drec' e pos))

include hrec

end Agree

section Marks

variable {h h' : Heap} (hmarks : OnlyMarks h h')

include hmarks

theorem OnlyMarks.id (r : Ref) : h'.id r = h.id r := by
  rw [Heap.id, Heap.id]
  rcases hmarks r with heq | ⟨c, es, recognizer, hget, -, hget'⟩
  · rw [heq]
  · rw [hget, hget']
    rfl

end Marks

theorem Feeds.char {h : Heap} {input : Bytes} {r : Ref} {pos : Nat} {m : Option Nat}
    {toRecognize : Int} {caseSensitive : Bool}
    (hnode : h.node? r = some (.char toRecognize caseSensitive)) (hm : Feeds h input r pos m) :
    ∀ j, m = some j → j = 1 := by
  obtain ⟨fuel, hm⟩ := hm
  rw [Heap.node?, Option.map_eq_some_iff] at hnode
  obtain ⟨recognizer, hget, hclass⟩ := hnode
  cases fuel with
  | zero => cases hm
  | succ fuel =>
    simp only [feed, hget, nullContext, ok_bind, hclass, feedNode, leaf, bind_eq_ok,
      CharRecognizer.feed] at hm
    obtain ⟨f, ⟨m', ⟨b, -, hb⟩, hf⟩, hm⟩ := hm
    cases hf
    cases hm
    rintro j rfl
    split at hb
    · split at hb <;> cases hb
      rfl
    · split at hb <;> cases hb
      rfl

end GrooveIp.Belr
