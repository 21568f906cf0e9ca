import GrooveIp.Belr.Recognizer

/-!
# Grammars

A grammar of belr is a map from rule names to recognizers, `src/submodules/belr/src/belr.cpp`
lines 631–737. The recognizers it refers to live in the heap that it comes with.
-/

namespace GrooveIp.Belr

/-- The class of a recognizer, if it exists. -/
def Heap.node? (h : Heap) (r : Ref) : Option Node := h[r]?.map Recognizer.node

/-- `Grammar`, with the heap its recognizers are in; `rules` is `mRules`, in the order of its keys;
belr.h:265. -/
structure Grammar where
  heap : Heap
  rules : List (Bytes × Ref)
  deriving DecidableEq, Repr

namespace Grammar

variable (g : Grammar)

/-- `findRule`; belr.cpp:675. -/
def findRule (name : Bytes) : Option Ref := g.rules.lookup (tolower name)

/-- What `getRule` returns for a rule that exists: the recognizer that a pointer is set to, in
place of the pointer; belr.cpp:684. -/
def pointed (r : Ref) : Ref :=
  match g.heap.node? r with
  | some (.recognizerPointer (some q)) => q
  | _ => r

/-- `getRule` of a rule that exists; belr.cpp:684. -/
def getRule (name : Bytes) : Option Ref := (g.findRule name).map g.pointed

end Grammar

/-- The recognizers a recognizer refers to. -/
def Node.refs : Node → List Ref
  | .selector _ es _ | .sequence es => es
  | .loop e _ _ => [e]
  | .recognizerPointer p | .recognizerAlias p => p.toList
  | _ => []

/-- Every recognizer refers to existing ones and every pointer is set, as in a heap without
undefined rules. -/
structure Heap.Complete (h : Heap) : Prop where
  closed : ∀ recognizer ∈ h, ∀ r ∈ recognizer.node.refs, r < h.length
  set : ∀ recognizer ∈ h, recognizer.node ≠ .recognizerPointer none ∧
    recognizer.node ≠ .recognizerAlias none

end GrooveIp.Belr
