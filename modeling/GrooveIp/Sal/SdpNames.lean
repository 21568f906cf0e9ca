import GrooveIp.Sal.SdpWriter
import GrooveIp.Sal.SdpSafety
import GrooveIp.Lib.Printed

/-!
# Attributes by name

The readers of `sal_sdp.c` and `belle_sdp_impl.c` look attributes up by name, so of a written
media description each of them sees one block of `stream_description_to_sdp` only. Here is
what a block is called and what is left of the whole list for a given name.
-/

namespace GrooveIp.Sal

open Lib List

/-! ### Lookup by name -/

variable (name : String) (attributes : List BelleSdpAttribute)

/-- The attributes of a name, in order. -/
def named : List BelleSdpAttribute :=
  attributes.filter fun a => a.name == name.toList

/-- All attributes of a block have one of these names. -/
def OnlyNames (names : List String) (block : List BelleSdpAttribute) : Prop :=
  ∀ a ∈ block, ∃ name ∈ names, a.name = name.toList

theorem OnlyNames.append {n₁ n₂ : List String} {l₁ l₂ : List BelleSdpAttribute}
    (h₁ : OnlyNames n₁ l₁) (h₂ : OnlyNames n₂ l₂) : OnlyNames (n₁ ++ n₂) (l₁ ++ l₂) := by
  intro a ha
  rcases mem_append.mp ha with ha | ha
  · obtain ⟨name, hn, he⟩ := h₁ a ha
    exact ⟨name, mem_append_left _ hn, he⟩
  · obtain ⟨name, hn, he⟩ := h₂ a ha
    exact ⟨name, mem_append_right _ hn, he⟩

theorem OnlyNames.mono {n₁ n₂ : List String} {l : List BelleSdpAttribute}
    (h : OnlyNames n₁ l) (hsub : n₁ ⊆ n₂) : OnlyNames n₂ l := by
  intro a ha
  obtain ⟨name, hn, he⟩ := h a ha
  exact ⟨name, hsub hn, he⟩

variable {block : List BelleSdpAttribute}

end GrooveIp.Sal
