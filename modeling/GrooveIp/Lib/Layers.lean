/-!
# Stacks of partial layers

A layer rewrites a value on the way out and on the way in, and may refuse either way. A stack
wraps a value from its first layer to its last, and unwraps it in the reverse order.
-/

namespace GrooveIp.Lib

open List

/-- A layer: what it makes of a value on the way out and on the way in. -/
structure Layer (α : Type) where
  wrap : α → Option α
  unwrap : α → Option α

namespace Layer

variable {α : Type}

/-- Wrap a value in every layer of a stack. -/
def wrapAll (layers : List (Layer α)) (a : α) : Option α := layers.foldlM (fun a l => l.wrap a) a

/-- Unwrap a value from every layer of a stack, the last one first. -/
def unwrapAll (layers : List (Layer α)) (a : α) : Option α :=
  layers.reverse.foldlM (fun a l => l.unwrap a) a

/-- The way in undoes what the way out did. -/
def Inverts (l : Layer α) : Prop := ∀ a b, l.wrap a = some b → l.unwrap b = some a

/-- The first layer wraps first. -/
theorem wrapAll_cons (l : Layer α) (layers : List (Layer α)) (a : α) :
    wrapAll (l :: layers) a = (l.wrap a).bind (wrapAll layers) := by
  rfl

theorem unwrapAll_cons (l : Layer α) (layers : List (Layer α)) (a : α) :
    unwrapAll (l :: layers) a = (unwrapAll layers a).bind l.unwrap := by
  rw [unwrapAll, reverse_cons, foldlM_append]
  simp only [foldlM_cons, foldlM_nil, bind_pure]
  rfl

/-- Stacks of inverting layers invert. -/
theorem unwrapAll_wrapAll {layers : List (Layer α)} (h : ∀ l ∈ layers, l.Inverts) {a b : α}
    (hw : wrapAll layers a = some b) : unwrapAll layers b = some a := by
  induction layers generalizing a with
  | nil => exact hw.symm
  | cons l layers ih =>
    rw [wrapAll_cons] at hw
    cases hl : l.wrap a with
    | none =>
      rw [hl] at hw
      cases hw
    | some c =>
      rw [hl] at hw
      rw [unwrapAll_cons, ih (fun l' hl' => h l' (mem_cons_of_mem _ hl')) hw]
      exact h l mem_cons_self a c hl

end Layer

end GrooveIp.Lib
