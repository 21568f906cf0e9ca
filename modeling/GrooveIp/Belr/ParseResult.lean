import GrooveIp.Belr.ParserContext

/-!
# The parser context logs the derivation

The contexts of the handlers, `src/submodules/belr/include/belr/parser.h`, hold exactly the
assignments of the derivation taken. What carries the argument is ownership: a context is on the
stack, in the cache of its handler, or handed over for good, and only the first are ever changed.
So what an assignment refers to stays as it was, a cached context is empty, and undoing, merging
and removing act on the top of the stack alone.
-/

namespace GrooveIp.Belr

open Lib List ParserContext

/-- A context that has been handed over: it is neither on the stack nor in a cache. -/
def Attached (s : ParseState) (k : CtxRef) : Prop :=
  k < s.allocated ∧ k ∉ s.stack ∧ ∀ h, s.cached h ≠ some k

/-- The contexts are in order: none on the stack is cached, a cached one is empty and of its
handler, and what an assignment refers to was handed over. -/
structure Tidy (s : ParseState) : Prop where
  nodup : s.stack.Nodup
  onStack : ∀ c ∈ s.stack, c < s.allocated ∧ ∀ h, s.cached h ≠ some c
  cache : ∀ h c, s.cached h = some c → c < s.allocated ∧ s.contexts c = ⟨h, []⟩
  children : ∀ c, c < s.allocated → ∀ a ∈ (s.contexts c).assignments, ∀ k, a.child = some k →
    Attached s k

/-- What has been handed over stays so, and as it is. -/
def Keeps (s s' : ParseState) : Prop :=
  ∀ k, Attached s k → Attached s' k ∧ s'.contexts k = s.contexts k

theorem Keeps.refl (s : ParseState) : Keeps s s := fun _ hk => ⟨hk, rfl⟩

variable {s : ParseState}

theorem Keeps.trans {s₁ s₂ : ParseState} (h₁ : Keeps s s₁) (h₂ : Keeps s₁ s₂) : Keeps s s₂ := by
  intro k hk
  obtain ⟨hk₁, he₁⟩ := h₁ k hk
  obtain ⟨hk₂, he₂⟩ := h₂ k hk₁
  exact ⟨hk₂, he₂.trans he₁⟩

/-! ## The operations on contexts -/

variable {c : CtxRef}

theorem pushContext_cached {h : Nat} (hc : s.cached h = some c) : s.pushContext h = (c, { s with
      cached := fun k => if k = h then none else s.cached k, stack := c :: s.stack }) := by
  rw [ParseState.pushContext, hc]

theorem pushContext_fresh {h : Nat} (hc : s.cached h = none) :
    s.pushContext h = (s.allocated, { s with
      contexts := fun d => if d = s.allocated then ⟨h, []⟩ else s.contexts d,
      allocated := s.allocated + 1, stack := s.allocated :: s.stack }) := by
  rw [ParseState.pushContext, hc]

/-- A context pushed on the stack is empty, of the handler asked for, and of no other use. -/
theorem Tidy.pushContext (hs : Tidy s) (h : Nat) :
    Tidy (s.pushContext h).2 ∧ Keeps s (s.pushContext h).2 ∧
      (s.pushContext h).2.stack = (s.pushContext h).1 :: s.stack ∧
      (s.pushContext h).2.root = s.root ∧
      (s.pushContext h).2.contexts (s.pushContext h).1 = ⟨h, []⟩ ∧
      ∀ c ∈ s.stack, (s.pushContext h).2.contexts c = s.contexts c := by
  cases hc : s.cached h with
  | some c =>
    rw [pushContext_cached hc]
    obtain ⟨halloc, hctx⟩ := hs.cache h c hc
    have hkeep : ∀ k, Attached s k → Attached
        { s with cached := fun k => if k = h then none else s.cached k, stack := c :: s.stack } k := by
      intro k hk
      refine ⟨hk.1, ?_, ?_⟩
      · have hne : k ≠ c := by
          rintro rfl
          exact hk.2.2 h hc
        simp [hne, hk.2.1]
      · intro h'
        by_cases heq : h' = h
        · simp [heq]
        · simpa [heq] using hk.2.2 h'
    refine ⟨⟨?_, ?_, ?_, ?_⟩, fun k hk => ⟨hkeep k hk, rfl⟩, rfl, rfl, hctx, fun _ _ => rfl⟩
    · exact nodup_cons.2 ⟨fun hmem => (hs.onStack c hmem).2 h hc, hs.nodup⟩
    · intro d hd
      rcases mem_cons.1 hd with rfl | hd
      · refine ⟨halloc, ?_⟩
        intro h'
        by_cases heq : h' = h
        · simp [heq]
        · intro hc'
          have hsame := (hs.cache h' d (by simpa [heq] using hc')).2
          rw [hctx] at hsame
          exact heq (congrArg HandlerContext.handler hsame).symm
      · refine ⟨(hs.onStack d hd).1, ?_⟩
        intro h'
        by_cases heq : h' = h
        · simp [heq]
        · simpa [heq] using (hs.onStack d hd).2 h'
    · intro h' d hd
      by_cases heq : h' = h
      · simp [heq] at hd
      · exact hs.cache h' d (by simpa [heq] using hd)
    · intro d hd a ha k hk
      exact hkeep k (hs.children d hd a ha k hk)
  | none =>
    rw [pushContext_fresh hc]
    have hkeep : ∀ k, Attached s k → k ≠ s.allocated := by
      intro k hk
      exact Nat.ne_of_lt hk.1
    have hatt : ∀ k, Attached s k → k < s.allocated + 1 ∧ k ∉ s.allocated :: s.stack ∧
        ∀ h, s.cached h ≠ some k := by
      intro k hk
      refine ⟨Nat.lt_succ_of_lt hk.1, ?_, hk.2.2⟩
      simp [hkeep k hk, hk.2.1]
    have hold : ∀ c ∈ s.stack, c ≠ s.allocated := by
      intro c hmem
      exact Nat.ne_of_lt (hs.onStack c hmem).1
    refine ⟨⟨?_, ?_, ?_, ?_⟩, ?_, rfl, rfl, by simp, ?_⟩
    · exact nodup_cons.2 ⟨fun hmem => hold _ hmem rfl, hs.nodup⟩
    · intro d hd
      rcases mem_cons.1 hd with rfl | hd
      · refine ⟨Nat.lt_succ_self _, ?_⟩
        intro h' hc'
        exact absurd (hs.cache h' _ hc').1 (Nat.lt_irrefl _)
      · exact ⟨Nat.lt_succ_of_lt (hs.onStack d hd).1, (hs.onStack d hd).2⟩
    · intro h' d hd
      obtain ⟨hlt, hctx⟩ := hs.cache h' d hd
      refine ⟨Nat.lt_succ_of_lt hlt, ?_⟩
      simp [Nat.ne_of_lt hlt, hctx]
    · intro d hd a ha k hk
      by_cases heq : d = s.allocated
      · simp [heq] at ha
      · have hlt : d < s.allocated := by
          have : d < s.allocated + 1 := hd
          omega
        exact hatt k (hs.children d hlt a (by simpa [heq] using ha) k hk)
    · intro k hk
      exact ⟨hatt k hk, by simp [hkeep k hk]⟩
    · intro c hmem
      simp [hold c hmem]

theorem Tidy.setAssignments (hs : Tidy s) (hc : c ∈ s.stack) {as : List Assignment}
    (has : ∀ a ∈ as, ∀ k, a.child = some k → Attached s k) :
    Tidy (s.setAssignments c as) ∧ Keeps s (s.setAssignments c as) := by
  have hne : ∀ k, Attached s k → k ≠ c := by
    rintro k hk rfl
    exact hk.2.1 hc
  refine ⟨⟨hs.nodup, hs.onStack, ?_, ?_⟩, ?_⟩
  · intro h d hd
    have hdc : d ≠ c := by
      rintro rfl
      exact (hs.onStack d hc).2 h hd
    refine ⟨(hs.cache h d hd).1, ?_⟩
    simp [ParseState.setAssignments, hdc, (hs.cache h d hd).2]
  · intro d hd a ha k hk
    by_cases heq : d = c
    · exact has a (by simpa [ParseState.setAssignments, heq] using ha) k hk
    · exact hs.children d hd a (by simpa [ParseState.setAssignments, heq] using ha) k hk
  · intro k hk
    exact ⟨hk, by simp [ParseState.setAssignments, hne k hk]⟩

/-- A context is taken off the stack and given back to its handler. -/
theorem Tidy.drop (hs : Tidy s) (hc : c ∈ s.stack) :
    Tidy ({ s with stack := s.stack.erase c }.recycle c) ∧
      Keeps s ({ s with stack := s.stack.erase c }.recycle c) ∧
      ∀ d, d ≠ c → ({ s with stack := s.stack.erase c }.recycle c).contexts d = s.contexts d := by
  have hsame : ∀ d, d ≠ c →
      ({ s with stack := s.stack.erase c }.recycle c).contexts d = s.contexts d := by
    intro d hd
    simp [ParseState.recycle, ParseState.setAssignments, hd]
  have hne : ∀ k, Attached s k → k ≠ c := by
    rintro k hk rfl
    exact hk.2.1 hc
  have hatt : ∀ k, Attached s k → Attached ({ s with stack := s.stack.erase c }.recycle c) k := by
    intro k hk
    refine ⟨hk.1, fun hmem => hk.2.1 (mem_of_mem_erase hmem), ?_⟩
    intro h
    simp only [ParseState.recycle]
    split
    · intro heq
      exact hne k hk (Option.some.inj heq).symm
    · exact hk.2.2 h
  refine ⟨⟨hs.nodup.erase c, ?_, ?_, ?_⟩, ?_, hsame⟩
  · intro d hd
    have hdc := (hs.nodup.mem_erase_iff.1 hd).1
    obtain ⟨hlt, hcache⟩ := hs.onStack d (mem_of_mem_erase hd)
    refine ⟨hlt, ?_⟩
    intro h
    simp only [ParseState.recycle]
    split
    · intro heq
      exact hdc (Option.some.inj heq).symm
    · exact hcache h
  · intro h d hd
    simp only [ParseState.recycle] at hd
    split at hd
    · next heq =>
      cases hd
      refine ⟨(hs.onStack c hc).1, ?_⟩
      simp [ParseState.recycle, ParseState.setAssignments, heq]
    · have hdc : d ≠ c := by
        rintro rfl
        exact (hs.onStack d hc).2 h hd
      exact ⟨(hs.cache h d hd).1, by rw [hsame d hdc]; exact (hs.cache h d hd).2⟩
  · intro d hd a ha k hk
    by_cases heq : d = c
    · simp [ParseState.recycle, ParseState.setAssignments, heq] at ha
    · rw [hsame d heq] at ha
      exact hatt k (hs.children d hd a ha k hk)
  · intro k hk
    exact ⟨hatt k hk, hsame k (hne k hk)⟩

/-- A context is taken off the stack to be handed over. -/
theorem Tidy.pop (hs : Tidy s) {rest : List CtxRef} (hst : s.stack = c :: rest) :
    Tidy { s with stack := rest } ∧ Keeps s { s with stack := rest } ∧
      Attached { s with stack := rest } c := by
  have hnodup := hs.nodup
  rw [hst, nodup_cons] at hnodup
  have hmem : ∀ d ∈ rest, d ∈ s.stack := by
    intro d hd
    rw [hst]
    exact mem_cons_of_mem c hd
  have hatt : ∀ k, Attached s k → Attached { s with stack := rest } k := by
    intro k hk
    exact ⟨hk.1, fun hd => hk.2.1 (hmem k hd), hk.2.2⟩
  refine ⟨⟨hnodup.2, fun d hd => hs.onStack d (hmem d hd), hs.cache, ?_⟩, ?_, ?_⟩
  · intro d hd a ha k hk
    exact hatt k (hs.children d hd a ha k hk)
  · intro k hk
    exact ⟨hatt k hk, rfl⟩
  · have hc := hs.onStack c (by rw [hst]; exact mem_cons_self)
    exact ⟨hc.1, hnodup.1, hc.2⟩

/-! ## What assignments hold of a derivation -/

section Holds

variable (p : Parser)

/-- The assignments are those of the nodes, for a handler: a handled and collected node is one
assignment, whose context holds the nodes below; an unhandled one brings those below it, then its
own. -/
def Holds (s : ParseState) : Nat → Forest → List Assignment → Prop
  | _, .nil, as => as = []
  | h, .cons r pos len kids rest, as =>
    let id := p.grammar.heap.id r
    ∃ mine others, as = mine ++ others ∧ Holds s h rest others ∧ match p.handlers id with
      | some _ =>
        match p.getCollector h id with
        | none => mine = []
        | some c => ∃ k, mine = [⟨c, pos, len, some k⟩] ∧ Attached s k ∧
            (s.contexts k).handler = id ∧ Holds s id kids (s.contexts k).assignments
      | none => ∃ inner, Holds s h kids inner ∧
          mine = inner ++ if id ≠ 0 then p.childAssignments h id pos len none else []

variable {p}
variable {s : ParseState}

/-- What assignments hold stays when what has been handed over does. -/
theorem Holds.keeps {s' : ParseState} (hk : Keeps s s') {f : Forest} {h : Nat}
    {as : List Assignment} (hf : Holds p s h f as) : Holds p s' h f as := by
  induction f generalizing h as with
  | nil => exact hf
  | cons r pos len kids rest ihk ihr =>
    obtain ⟨mine, others, rfl, hrest, hmine⟩ := hf
    refine ⟨mine, others, rfl, ihr hrest, ?_⟩
    split
    · next hd hh =>
      simp only [hh] at hmine
      split
      · next hc =>
        simpa only [hc] using hmine
      · next c hc =>
        simp only [hc] at hmine
        obtain ⟨k, hm, hatt, hid, hkids⟩ := hmine
        obtain ⟨hatt', hctx⟩ := hk k hatt
        refine ⟨k, hm, hatt', ?_, ?_⟩
        · rw [hctx, hid]
        · rw [hctx]
          exact ihk hkids
    · next hh =>
      simp only [hh] at hmine
      obtain ⟨inner, hinner, hm⟩ := hmine
      exact ⟨inner, ihk hinner, hm⟩

theorem Holds.append {f g : Forest} {h : Nat} {as bs : List Assignment}
    (hf : Holds p s h f as) (hg : Holds p s h g bs) : Holds p s h (f ++ g) (as ++ bs) := by
  induction f generalizing as with
  | nil =>
    rw [show as = [] from hf]
    exact hg
  | cons r pos len kids rest _ ih =>
    obtain ⟨mine, others, rfl, hrest, hmine⟩ := hf
    exact ⟨mine, others ++ bs, by rw [append_assoc], ih hrest, hmine⟩

theorem Holds.handled {r pos len : Nat} {kids : Forest} {h : Nat} {k : CtxRef}
    {handler : Handler} (hh : p.handlers (p.grammar.heap.id r) = some handler)
    (hatt : Attached s k) (hid : (s.contexts k).handler = p.grammar.heap.id r)
    (hkids : Holds p s (p.grammar.heap.id r) kids (s.contexts k).assignments) :
    Holds p s h (.node r pos len kids)
      (p.childAssignments h (p.grammar.heap.id r) pos len (some k)) := by
  refine ⟨_, [], by rw [append_nil], rfl, ?_⟩
  simp only [hh]
  cases hc : p.getCollector h (p.grammar.heap.id r) with
  | none => simp [Parser.childAssignments, hc]
  | some c => exact ⟨k, by simp [Parser.childAssignments, hc], hatt, hid, hkids⟩

theorem Holds.unhandled {r : Ref} {kids : Forest} {h : Nat} {inner : List Assignment}
    (pos len : Nat) (hh : p.handlers (p.grammar.heap.id r) = none)
    (hkids : Holds p s h kids inner) :
    Holds p s h (.node r pos len kids) (inner ++ if p.grammar.heap.id r ≠ 0 then
      p.childAssignments h (p.grammar.heap.id r) pos len none else []) := by
  refine ⟨_, [], by rw [append_nil], rfl, ?_⟩
  simp only [hh]
  exact ⟨inner, hkids, rfl⟩

end Holds

/-! ## The log -/

section Log

variable (p : Parser)

/-- `s'` is `s` with the assignments of some nodes added to the context on top of the stack. -/
structure Log (s s' : ParseState) (f : Forest) : Prop where
  tidy : Tidy s'
  stack : s'.stack = s.stack
  root : s'.root = s.root
  keeps : Keeps s s'
  added : ∃ top rest as, s.stack = top :: rest ∧ (∀ c ∈ rest, s'.contexts c = s.contexts c) ∧
    s'.contexts top = ⟨(s.contexts top).handler, (s.contexts top).assignments ++ as⟩ ∧
    Holds p s' (s.contexts top).handler f as

/-- `s'` is `s` with a context on top, of the handler of the one below it, that holds the
assignments of some nodes. -/
structure Branched (s : ParseState) (b : CtxRef) (s' : ParseState) (f : Forest) : Prop where
  tidy : Tidy s'
  stack : s'.stack = b :: s.stack
  root : s'.root = s.root
  keeps : Keeps s s'
  same : ∀ c ∈ s.stack, s'.contexts c = s.contexts c
  held : ∃ top rest as, s.stack = top :: rest ∧
    s'.contexts b = ⟨(s.contexts top).handler, as⟩ ∧ Holds p s' (s.contexts top).handler f as

/-- The contexts are in order and there is one on the stack. -/
def Good (s : ParseState) : Prop := Tidy s ∧ s.stack ≠ []

variable {p}
variable {s : ParseState}

theorem Log.refl (hs : Good s) : Log p s s .nil := by
  obtain ⟨hs, hne⟩ := hs
  obtain ⟨top, rest, hst⟩ := exists_cons_of_ne_nil hne
  refine ⟨hs, rfl, rfl, .refl s, top, rest, [], hst, fun _ _ => rfl, ?_, rfl⟩
  rw [append_nil]

variable {f : Forest}

theorem Log.good {s' : ParseState} (h : Log p s s' f) : Good s' := by
  obtain ⟨top, rest, -, hst, -⟩ := h.added
  refine ⟨h.tidy, ?_⟩
  rw [h.stack, hst]
  exact cons_ne_nil _ _

variable {s₁ s₂ : ParseState}

theorem Log.trans {g : Forest} (h₁ : Log p s s₁ f) (h₂ : Log p s₁ s₂ g) : Log p s s₂ (f ++ g) := by
  obtain ⟨top, rest, as, hst, hrest, htop, hf⟩ := h₁.added
  obtain ⟨top', rest', bs, hst', hrest', htop', hg⟩ := h₂.added
  rw [h₁.stack, hst] at hst'
  cases hst'
  rw [htop] at htop' hg
  refine ⟨h₂.tidy, h₂.stack.trans h₁.stack, h₂.root.trans h₁.root, h₁.keeps.trans h₂.keeps,
    top, rest, as ++ bs, hst, ?_, ?_, ?_⟩
  · intro c hc
    rw [hrest' c hc, hrest c hc]
  · rw [htop', append_assoc]
  · exact (hf.keeps h₂.keeps).append hg

variable {b : CtxRef}

theorem Branched.good {s' : ParseState} (h : Branched p s b s' f) : Good s' := by
  refine ⟨h.tidy, ?_⟩
  rw [h.stack]
  exact cons_ne_nil _ _

theorem Branched.trans {g : Forest} (h₁ : Branched p s b s₁ f) (h₂ : Log p s₁ s₂ g) :
    Branched p s b s₂ (f ++ g) := by
  obtain ⟨top, rest, as, hst, hb, hf⟩ := h₁.held
  obtain ⟨top', rest', bs, hst', hrest', htop', hg⟩ := h₂.added
  rw [h₁.stack] at hst'
  cases hst'
  rw [hb] at htop' hg
  refine ⟨h₂.tidy, h₂.stack.trans h₁.stack, h₂.root.trans h₁.root, h₁.keeps.trans h₂.keeps, ?_,
    top, rest, as ++ bs, hst, htop', (hf.keeps h₂.keeps).append hg⟩
  intro c hc
  rw [hrest' c hc, h₁.same c hc]

theorem Branched.start {s : ParseState} (hs : Good s) :
    ∃ b s₁, branch s = .ok (b, s₁) ∧ Branched p s b s₁ .nil := by
  obtain ⟨hs, hne⟩ := hs
  obtain ⟨top, rest, hst⟩ := exists_cons_of_ne_nil hne
  obtain ⟨htidy, hkeeps, hstack, hroot, hb, hsame⟩ := hs.pushContext (s.contexts top).handler
  refine ⟨_, _, ?_, htidy, hstack, hroot, hkeeps, hsame, top, rest, [], hst, hb, rfl⟩
  rw [branch, hst]

theorem Branched.remove (h : Branched p s b s₁ f) :
    ∃ s₂, removeBranch b s₁ = .ok s₂ ∧ Log p s s₂ .nil := by
  obtain ⟨top, rest, as, hst, hb, hf⟩ := h.held
  have hmem : b ∈ s₁.stack := by simp [h.stack]
  obtain ⟨htidy, hkeeps, hsame⟩ := h.tidy.drop hmem
  have herase : s₁.stack.erase b = s.stack := by simp [h.stack]
  have hnodup := h.tidy.nodup
  rw [h.stack, nodup_cons] at hnodup
  have hne : ∀ c ∈ s.stack, c ≠ b := by
    rintro c hc rfl
    exact hnodup.1 hc
  refine ⟨_, by rw [removeBranch, if_pos hmem], htidy, herase, h.root,
    h.keeps.trans hkeeps, top, rest, [], hst, ?_, ?_, rfl⟩
  · intro c hc
    have hc' : c ∈ s.stack := by simp [hst, hc]
    rw [hsame c (hne c hc'), h.same c hc']
  · have htop : top ∈ s.stack := by simp [hst]
    rw [hsame top (hne top htop), h.same top htop, append_nil]

theorem Branched.drop {b' : CtxRef} {g : Forest} (h₁ : Branched p s b s₁ f)
    (h₂ : Branched p s₁ b' s₂ g) :
    ∃ s₃, removeBranch b s₂ = .ok s₃ ∧ Branched p s b' s₃ g := by
  obtain ⟨top, rest, as, hst, hb, hf⟩ := h₁.held
  obtain ⟨top', rest', bs, hst', hb', hg⟩ := h₂.held
  rw [h₁.stack] at hst'
  cases hst'
  have hstack : s₂.stack = b' :: b :: s.stack := by rw [h₂.stack, h₁.stack]
  have hmem : b ∈ s₂.stack := by simp [hstack]
  obtain ⟨htidy, hkeeps, hsame⟩ := h₂.tidy.drop hmem
  have hnodup := h₂.tidy.nodup
  rw [hstack] at hnodup
  simp only [nodup_cons, mem_cons, not_or] at hnodup
  obtain ⟨⟨hbb, -⟩, hbs, -⟩ := hnodup
  have herase : s₂.stack.erase b = b' :: s.stack := by
    rw [hstack, erase_cons_tail (by simpa using hbb), erase_cons_head]
  have hne : ∀ c ∈ s.stack, c ≠ b := by
    rintro c hc rfl
    exact hbs hc
  rw [hb] at hb' hg
  refine ⟨_, by rw [removeBranch, if_pos hmem], htidy, herase,
    h₂.root.trans h₁.root, (h₁.keeps.trans h₂.keeps).trans hkeeps, ?_, top, rest, bs, hst, ?_,
    hg.keeps hkeeps⟩
  · intro c hc
    have hc₁ : c ∈ s₁.stack := by simp [h₁.stack, hc]
    rw [hsame c (hne c hc), h₂.same c hc₁, h₁.same c hc]
  · rw [hsame b' hbb, hb']

theorem Branched.merge (h : Branched p s b s₁ f) :
    ∃ s₂, ParserContext.merge b s₁ = .ok s₂ ∧ Log p s s₂ f := by
  obtain ⟨top, rest, as, hst, hb, hf⟩ := h.held
  have hstack : s₁.stack = b :: top :: rest := by rw [h.stack, hst]
  have htop : top ∈ s₁.stack := by simp [hstack]
  have hbs : b ∈ s₁.stack := by simp [hstack]
  have hnodup := h.tidy.nodup
  rw [hstack] at hnodup
  simp only [nodup_cons, mem_cons, not_or] at hnodup
  obtain ⟨⟨hbtop, hbrest⟩, htoprest, -⟩ := hnodup
  have hchild : ∀ a ∈ (s₁.contexts top).assignments ++ (s₁.contexts b).assignments, ∀ k,
      a.child = some k → Attached s₁ k := by
    intro a ha
    rcases mem_append.1 ha with ha | ha
    · exact h.tidy.children top (h.tidy.onStack top htop).1 a ha
    · exact h.tidy.children b (h.tidy.onStack b hbs).1 a ha
  obtain ⟨hset, hsetk⟩ := h.tidy.setAssignments htop hchild
  obtain ⟨htidy, hkeeps, hsame⟩ := hset.drop (c := b) hbs
  have herase : s₁.stack.erase b = s.stack := by simp [h.stack]
  have hkeep := (h.keeps.trans hsetk).trans hkeeps
  refine ⟨_, ?_, htidy, herase, h.root, hkeep, top, rest, as, hst, ?_, ?_, ?_⟩
  · rw [ParserContext.merge, hstack]
    simp [ParseState.setAssignments, ParseState.recycle, hstack]
  · intro c hc
    have hcb : c ≠ b := by
      rintro rfl
      exact hbrest hc
    have hct : c ≠ top := by
      rintro rfl
      exact htoprest hc
    rw [hsame c hcb]
    simp [ParseState.setAssignments, hct, h.same c (by simp [hst, hc])]
  · rw [hsame top (Ne.symm hbtop)]
    simp [ParseState.setAssignments, hb, h.same top (by simp [hst])]
  · exact hf.keeps (hsetk.trans hkeeps)

theorem endHandled_matched {r : Ref} {handler : Handler}
    (hh : p.handlers (p.grammar.heap.id r) = some handler) (hs : Good s)
    (hs₁ : s₁ = (s.pushContext (p.grammar.heap.id r)).2) (hlog : Log p s₁ s₂ f) (pos : Nat)
    {len : Nat} (hlen : 0 < len) :
    ∃ s₃, endHandled p r (s.pushContext (p.grammar.heap.id r)).1 pos (some len) s₂ =
      .ok s₃ ∧ Log p s s₃ (.node r pos len f) := by
  obtain ⟨hs, hne⟩ := hs
  obtain ⟨top, rest, hst⟩ := exists_cons_of_ne_nil hne
  obtain ⟨-, hkeep₁, hstack₁, hroot₁, hnew, hsame₁⟩ := hs.pushContext (p.grammar.heap.id r)
  rw [← hs₁] at hkeep₁ hstack₁ hroot₁ hnew hsame₁
  generalize (s.pushContext (p.grammar.heap.id r)).1 = c at *
  obtain ⟨c', rest', as, hst', hrest', hc, hf⟩ := hlog.added
  rw [hstack₁] at hst'
  cases hst'
  rw [hnew] at hc hf
  have hstack₂ : s₂.stack = c :: s.stack := by rw [hlog.stack, hstack₁]
  obtain ⟨hpop, hkeep₂, hatt⟩ := hlog.tidy.pop hstack₂
  have htop : top ∈ s.stack := by simp [hst]
  have hnodup := hlog.tidy.nodup
  rw [hstack₂, hst] at hnodup
  simp only [nodup_cons, mem_cons, not_or] at hnodup
  obtain ⟨⟨hctop, hcrest⟩, htoprest, -⟩ := hnodup
  have htop₂ : s₂.contexts top = s.contexts top := by rw [hrest' top htop, hsame₁ top htop]
  have hchild : ∀ a ∈ (s₂.contexts top).assignments ++ p.childAssignments (s₂.contexts top).handler
      (p.grammar.heap.id r) pos len (some c), ∀ k, a.child = some k →
      Attached { s₂ with stack := s.stack } k := by
    intro a ha k hk
    rcases mem_append.1 ha with ha | ha
    · exact hpop.children top (hpop.onStack top htop).1 a ha k hk
    · rw [Parser.childAssignments, Option.mem_toList, Option.map_eq_some_iff] at ha
      obtain ⟨_, -, rfl⟩ := ha
      cases hk
      exact hatt
  obtain ⟨htidy, hkeep₃⟩ := hpop.setAssignments htop hchild
  refine ⟨_, ?_, htidy, rfl, hlog.root.trans hroot₁,
    ((hkeep₁.trans hlog.keeps).trans hkeep₂).trans hkeep₃, top, rest,
    p.childAssignments (s.contexts top).handler (p.grammar.heap.id r) pos len (some c), hst,
    ?_, ?_, ?_⟩
  · rw [endHandled, hstack₂]
    simp only [matchedSome, hlen, decide_true, if_true]
    rw [hst]
    rfl
  · intro d hd
    have hdt : d ≠ top := by
      rintro rfl
      exact htoprest hd
    have hds : d ∈ s.stack := by simp [hst, hd]
    simp [ParseState.setAssignments, hdt, hrest' d hds, hsame₁ d hds]
  · simp [ParseState.setAssignments, htop₂]
  · obtain ⟨hatt₃, hctx₃⟩ := hkeep₃ c hatt
    have hcc : s₂.contexts c = ⟨p.grammar.heap.id r, as⟩ := by rw [hc, nil_append]
    apply Holds.handled hh hatt₃
    · rw [hctx₃]
      exact congrArg HandlerContext.handler hcc
    · rw [hctx₃]
      rw [show ({ s₂ with stack := s.stack } : ParseState).contexts c = s₂.contexts c from rfl, hcc]
      exact hf.keeps (hkeep₂.trans hkeep₃)

theorem endHandled_unmatched {r : Ref} (hs : Good s)
    (hs₁ : s₁ = (s.pushContext (p.grammar.heap.id r)).2) (hlog : Log p s₁ s₂ f) (pos : Nat)
    {m : Option Nat} (hm : matchedSome m = false) :
    ∃ s₃, endHandled p r (s.pushContext (p.grammar.heap.id r)).1 pos m s₂ =
      .ok s₃ ∧ Log p s s₃ .nil := by
  obtain ⟨hs, hne⟩ := hs
  obtain ⟨top, rest, hst⟩ := exists_cons_of_ne_nil hne
  obtain ⟨-, hkeep₁, hstack₁, hroot₁, -, hsame₁⟩ := hs.pushContext (p.grammar.heap.id r)
  rw [← hs₁] at hkeep₁ hstack₁ hroot₁ hsame₁
  generalize (s.pushContext (p.grammar.heap.id r)).1 = c at *
  obtain ⟨c', rest', as, hst', hrest', -, -⟩ := hlog.added
  rw [hstack₁] at hst'
  cases hst'
  have hstack₂ : s₂.stack = c :: s.stack := by rw [hlog.stack, hstack₁]
  have hmem : c ∈ s₂.stack := by simp [hstack₂]
  obtain ⟨htidy, hkeep₂, hsame₂⟩ := hlog.tidy.drop hmem
  have hnodup := hlog.tidy.nodup
  rw [hstack₂, nodup_cons] at hnodup
  have hback : ∀ d ∈ s.stack,
      ({ s₂ with stack := s₂.stack.erase c }.recycle c).contexts d = s.contexts d := by
    intro d hd
    have hdc : d ≠ c := by
      rintro rfl
      exact hnodup.1 hd
    rw [hsame₂ d hdc, hrest' d hd, hsame₁ d hd]
  have herase : s₂.stack.erase c = s.stack := by simp [hstack₂]
  refine ⟨_, ?_, htidy, herase, hlog.root.trans hroot₁, (hkeep₁.trans hlog.keeps).trans hkeep₂,
    top, rest, [], hst, ?_, ?_, rfl⟩
  · rw [endHandled, hstack₂]
    simp [hm]
  · intro d hd
    exact hback d (by simp [hst, hd])
  · rw [hback top (by simp [hst]), append_nil]

theorem endUnhandled_matched {r : Ref} (hh : p.handlers (p.grammar.heap.id r) = none)
    (hlog : Log p s s₂ f) (n pos : Nat) {len : Nat} (hlen : 0 < len) :
    ∃ s₃, endUnhandled p r n pos (some len) s₂ = .ok s₃ ∧
      Log p s s₃ (.node r pos len f) := by
  obtain ⟨top, rest, as, hst, hrest, htop, hf⟩ := hlog.added
  have hst₂ : s₂.stack = top :: rest := by rw [hlog.stack, hst]
  have hmem : top ∈ s₂.stack := by simp [hst₂]
  have hnode := hf.unhandled pos len hh
  rw [endUnhandled, hst₂]
  simp only [matchedSome, hlen, decide_true, if_true]
  by_cases hid : p.grammar.heap.id r = 0
  · refine ⟨s₂, by simp [hid], hlog.tidy, hlog.stack, hlog.root, hlog.keeps, top, rest, as, hst,
      hrest, htop, ?_⟩
    simpa [hid] using hnode
  · have hchild : ∀ a ∈ (s₂.contexts top).assignments ++ p.childAssignments
        (s₂.contexts top).handler (p.grammar.heap.id r) pos len none, ∀ k, a.child = some k →
        Attached s₂ k := by
      intro a ha k hk
      rcases mem_append.1 ha with ha | ha
      · exact hlog.tidy.children top (hlog.tidy.onStack top hmem).1 a ha k hk
      · rw [Parser.childAssignments, Option.mem_toList, Option.map_eq_some_iff] at ha
        obtain ⟨_, -, rfl⟩ := ha
        cases hk
    obtain ⟨htidy, hkeep⟩ := hlog.tidy.setAssignments hmem hchild
    have hnodup := hlog.tidy.nodup
    rw [hst₂, nodup_cons] at hnodup
    refine ⟨_, by simp only [ne_eq, hid, not_false_eq_true, if_true, Option.getD_some]; rfl,
      htidy, hlog.stack, hlog.root, hlog.keeps.trans hkeep, top, rest, _, hst, ?_, ?_,
      hnode.keeps hkeep⟩
    · intro d hd
      have hdt : d ≠ top := by
        rintro rfl
        exact hnodup.1 hd
      simp [ParseState.setAssignments, hdt, hrest d hd]
    · simp [ParseState.setAssignments, htop, hid]

theorem endUnhandled_unmatched (r : Ref) {top : CtxRef} {rest : List CtxRef}
    (hst : s.stack = top :: rest) (hlog : Log p s s₂ f) (pos : Nat) {m : Option Nat}
    (hm : matchedSome m = false) :
    ∃ s₃, endUnhandled p r (s.contexts top).assignments.length pos m s₂ = .ok s₃ ∧
      Log p s s₃ .nil := by
  obtain ⟨top', rest', as, hst', hrest, htop, -⟩ := hlog.added
  rw [hst] at hst'
  cases hst'
  have hst₂ : s₂.stack = top :: rest := by rw [hlog.stack, hst]
  have hmem : top ∈ s₂.stack := by simp [hst₂]
  have htake : (s₂.contexts top).assignments.take (s.contexts top).assignments.length =
      (s.contexts top).assignments := by
    rw [htop]
    exact take_left
  have hchild : ∀ a ∈ (s.contexts top).assignments, ∀ k, a.child = some k → Attached s₂ k := by
    intro a ha
    refine hlog.tidy.children top (hlog.tidy.onStack top hmem).1 a ?_
    rw [htop]
    exact mem_append_left _ ha
  obtain ⟨htidy, hkeep⟩ := hlog.tidy.setAssignments hmem hchild
  have hnodup := hlog.tidy.nodup
  rw [hst₂, nodup_cons] at hnodup
  rw [endUnhandled, hst₂]
  simp only [hm, Bool.false_eq_true, if_false, htake]
  refine ⟨_, rfl, htidy, hlog.stack, hlog.root, hlog.keeps.trans hkeep, top, rest, [], hst, ?_,
    ?_, rfl⟩
  · intro d hd
    have hdt : d ≠ top := by
      rintro rfl
      exact hnodup.1 hd
    simp [ParseState.setAssignments, hdt, hrest d hd]
  · simp [ParseState.setAssignments, htop]

/-- The parser context keeps the log of the derivation. -/
theorem parserContext_follows (p : Parser) (input : Bytes) :
    Follows (methods p) input Good (Log p) (Branched p) where
  refl := Log.refl
  good := Log.good
  trans := Log.trans
  branch := Branched.start
  branched_good := Branched.good
  branched_trans := Branched.trans
  remove := Branched.remove
  drop := Branched.drop
  merge := Branched.merge
  parse := by
    intro s r hs
    cases hh : p.handlers (p.grammar.heap.id r) with
    | some handler =>
      obtain ⟨htidy, -, hstack, -⟩ := hs.1.pushContext (p.grammar.heap.id r)
      refine ⟨_, _, by simp only [methods, beginParse, hh]; rfl,
        ⟨htidy, by rw [hstack]; exact cons_ne_nil _ _⟩, ?_⟩
      intro s₂ f hlog pos
      exact ⟨fun len hlen => endHandled_matched hh hs rfl hlog pos hlen,
        fun m hm => endHandled_unmatched hs rfl hlog pos hm⟩
    | none =>
      obtain ⟨top, rest, hst⟩ := exists_cons_of_ne_nil hs.2
      refine ⟨⟨none, r, (s.contexts top).assignments.length⟩, s, ?_, hs, ?_⟩
      · simp only [methods, beginParse, hh, hst]
      · intro s₂ f hlog pos
        exact ⟨fun len hlen => endUnhandled_matched hh hlog _ pos hlen,
          fun m hm => endUnhandled_unmatched r hst hlog pos hm⟩

end Log

end GrooveIp.Belr
