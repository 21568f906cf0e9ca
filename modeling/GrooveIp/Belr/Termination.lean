import GrooveIp.Belr.Derivation
import GrooveIp.Belr.LeftRecursion

/-!
# Recognition inside the input

When `Recognizer::feed`, `src/submodules/belr/src/belr.cpp` lines 172–193, terminates inside the
input. Two things go wrong: a leaf can accept the NUL that ends the string as a character, after
which the match ends past the input; and `Loop::_feed` goes on after a round that matched
nothing. A context that only watches says when one of them happens; a recognition that the watch
does not stop terminates, reads nothing past the terminator and matches no more than there is.
-/

namespace GrooveIp.Belr

open Lib List Selector Loop
open Never (head tail)

/-- A heap as the ABNF builder leaves it for a complete grammar: complete, with literals of
characters of a quoted string (grammarbuilder.cpp:129, abnf.cpp:419). -/
structure Heap.Built (h : Heap) : Prop extends h.Complete where
  literals : ∀ recognizer ∈ h, ∀ text, recognizer.node = .literal text → 0 ∉ text

open Heap

/-- A loop without an upper bound. -/
def Heap.unbounded (h : Heap) (r : Ref) : Bool :=
  match h.node? r with
  | some (.loop _ _ max) => max = -1
  | _ => false

/-- What the watch stops at: a match that ends past the input, and a round of the unbounded loop on
top that matched nothing. -/
def Heap.stops (h : Heap) (input : Bytes) (stack : List Ref) (pos : Nat) (m : Option Nat) : Bool :=
  match m with
  | none => false
  | some k => decide (input.length < pos + k) || (k == 0 && stack.head?.any h.unbounded)

/-- A context that watches the recognition, with the recognizers being tried on a stack. -/
def watch (h : Heap) : ParserContextBase (List Ref) Unit Unit where
  beginParse r s := .ok ((), r :: s)
  endParse _ input pos m s := if h.stops input s.tail pos m then .error .abort else .ok s.tail
  branch s := .ok ((), s)
  merge _ s := .ok s
  removeBranch _ s := .ok s

/-- While a rule is recognized no recognizer is tried that matches past the input, and no round of
an unbounded loop matches nothing. -/
def Heap.Watched (h : Heap) (input : Bytes) (r : Ref) : Prop :=
  Never .abort fun fuel => feed (watch h) input h fuel r 0 []

/-- Recognition from the start terminates without reading past the terminator, and returns `npos`
or a length that is not greater than the input's. -/
def Heap.Inside (h : Heap) (input : Bytes) (r : Ref) : Prop :=
  ∃ m, Feeds h input r 0 m ∧ ∀ k, m = some k → k ≤ input.length

/-! ## A context does not change what is recognized -/

section Blind

variable {σ L B : Type} (ctx : ParserContextBase σ L B) (input : Bytes) {rec : Feeder σ}
  {drec : Deriver}
  (hrec : ∀ e pos s x, rec e pos s = .ok x → ∃ d, drec e pos = .ok d ∧ lengthOf d = x.1)

include hrec

variable {pos : Nat} {s : σ} {x : Option Nat × σ}

theorem deriveFirst_of_feed {es : List Ref} (h : feedExclusive rec pos es s = .ok x) :
    ∃ d, deriveFirst drec pos es = .ok d ∧ lengthOf d = x.1 := by
  induction es generalizing s with
  | nil =>
    cases h
    exact ⟨none, rfl, rfl⟩
  | cons e es ih =>
    rw [feedExclusive, bind_eq_ok] at h
    obtain ⟨f, hf, h⟩ := h
    obtain ⟨d, hd, hm⟩ := hrec e pos s f hf
    rw [deriveFirst, hd, ok_bind, hm]
    split at h
    · next hmatch =>
      cases h
      exact ⟨d, by rw [if_pos hmatch], hm⟩
    · next hmatch =>
      rw [if_neg hmatch]
      exact ih h

theorem deriveLongest_of_feed {es : List Ref} {best : Option (Nat × B)}
    {dbest : Option (Nat × Forest)} (hbest : lengthOf dbest = best.map Prod.fst)
    {x : Option (Nat × B) × σ} (h : feedAll ctx rec pos es best s = .ok x) :
    ∃ d, deriveLongest drec pos es dbest = .ok d ∧ lengthOf d = x.1.map Prod.fst := by
  induction es generalizing best dbest s with
  | nil =>
    cases h
    exact ⟨dbest, rfl, hbest⟩
  | cons e es ih =>
    simp only [feedAll, bind_eq_ok] at h
    obtain ⟨b, -, f, hf, h⟩ := h
    obtain ⟨d, hd, hm⟩ := hrec e pos b.2 f hf
    have hsame : better (lengthOf d) dbest = better f.1 best := by
      rw [hm]
      cases f.1 with
      | none => rfl
      | some m =>
        cases best with
        | none => cases dbest with
          | none => rfl
          | some d => cases hbest
        | some b => cases dbest with
          | none => cases hbest
          | some d =>
            have hb : d.1 = b.1 := by simpa [lengthOf] using hbest
            simp [better, hb]
    rw [deriveLongest, hd, ok_bind, hsame]
    split at h
    · next hbetter =>
      rw [bind_eq_ok] at h
      obtain ⟨s', -, h⟩ := h
      rw [if_pos hbetter]
      apply ih _ h
      rw [hm]
      cases hf1 : f.1 with
      | none =>
        rw [hf1] at hbetter
        cases hbetter
      | some m => rfl
    · next hbetter =>
      rw [bind_eq_ok] at h
      obtain ⟨s', -, h⟩ := h
      rw [if_neg hbetter]
      exact ih hbest h

theorem deriveSequence_of_feed {es : List Ref} {total : Nat} (f : Forest)
    (h : Sequence.feed rec es pos total s = .ok x) :
    ∃ d, deriveSequence drec es pos total f = .ok d ∧ lengthOf d = x.1 := by
  induction es generalizing pos total f s with
  | nil =>
    cases h
    exact ⟨some (total, f), rfl, rfl⟩
  | cons e es ih =>
    rw [Sequence.feed, bind_eq_ok] at h
    obtain ⟨y, hy, h⟩ := h
    obtain ⟨d, hd, hm⟩ := hrec e pos s y hy
    rw [deriveSequence, hd, ok_bind]
    cases d with
    | none =>
      rw [← hm] at h
      cases h
      exact ⟨none, rfl, rfl⟩
    | some d =>
      rw [← hm] at h
      exact ih (f ++ d.2) h

theorem deriveLoop_of_feed {element : Ref} {min max : Int} {fuel count total : Nat} (f : Forest)
    (h : Loop.feed input rec element min max fuel count pos total s = .ok x) :
    ∃ d, deriveLoop input drec element min max fuel count pos total f = .ok d ∧
      lengthOf d = x.1 := by
  induction fuel generalizing count pos total f s with
  | zero => cases h
  | succ fuel ih =>
    rw [Loop.feed] at h
    rw [deriveLoop]
    split at h
    · next hmax =>
      cases h
      exact ⟨_, by rw [if_pos hmax], lengthOf_loopResult _ _ _ _⟩
    · next hmax =>
      rw [bind_eq_ok] at h
      obtain ⟨c, hc, h⟩ := h
      rw [if_neg hmax, hc, ok_bind]
      split at h
      · next hnul =>
        cases h
        exact ⟨_, by rw [if_pos hnul], lengthOf_loopResult _ _ _ _⟩
      · next hnul =>
        rw [bind_eq_ok] at h
        obtain ⟨y, hy, h⟩ := h
        obtain ⟨d, hd, hm⟩ := hrec element pos s y hy
        rw [if_neg hnul, hd, ok_bind]
        cases d with
        | none =>
          rw [← hm] at h
          cases h
          exact ⟨_, rfl, lengthOf_loopResult _ _ _ _⟩
        | some d =>
          rw [← hm] at h
          exact ih (f ++ d.2) h

omit hrec in
theorem deriveLeaf_of_feed {m : Except Fault (Option Nat)} (h : leaf m s = .ok x) :
    ∃ d, deriveLeaf m = .ok d ∧ lengthOf d = x.1 := by
  rw [leaf, bind_eq_ok] at h
  obtain ⟨m, rfl, h⟩ := h
  cases h
  exact ⟨_, rfl, by cases m <;> rfl⟩

theorem deriveNode_of_feed {fuel : Nat} {node : Node}
    (h : feedNode ctx input rec fuel pos s node = .ok x) :
    ∃ d, deriveNode input drec fuel pos node = .ok d ∧ lengthOf d = x.1 := by
  cases node with
  | char toRecognize caseSensitive => exact deriveLeaf_of_feed h
  | charRange first last => exact deriveLeaf_of_feed h
  | literal text => exact deriveLeaf_of_feed h
  | sequence es => exact deriveSequence_of_feed hrec .nil h
  | loop element min max => exact deriveLoop_of_feed input hrec .nil h
  | selector exclusiveClass es isExclusive =>
    rw [feedNode] at h
    rw [deriveNode]
    split at h
    · next hx =>
      rw [if_pos hx]
      exact deriveFirst_of_feed hrec h
    · next hx =>
      rw [if_neg hx]
      rw [Selector.feed, bind_eq_ok] at h
      obtain ⟨y, hy, h⟩ := h
      obtain ⟨d, hd, hm⟩ := deriveLongest_of_feed ctx hrec
        (show lengthOf none = Option.map Prod.fst none from rfl) hy
      refine ⟨d, hd, ?_⟩
      rw [hm]
      cases hbest : y.1 with
      | none =>
        rw [hbest] at h
        cases h
        rfl
      | some b =>
        rw [hbest, finish, bind_eq_ok] at h
        obtain ⟨s', -, h⟩ := h
        cases h
        rfl
  | recognizerPointer pointed =>
    cases pointed with
    | none => cases h
    | some r => exact hrec r pos s x h
  | recognizerAlias pointed =>
    cases pointed with
    | none => cases h
    | some r => exact hrec r pos s x h

end Blind

theorem derive_of_feed {σ L B : Type} (ctx : ParserContextBase σ L B) {input : Bytes} {h : Heap}
    {fuel : Nat} {r : Ref} {pos : Nat} {s : σ} {x : Option Nat × σ}
    (hx : feed ctx input h fuel r pos s = .ok x) :
    ∃ d, derive input h fuel r pos = .ok d ∧ lengthOf d = x.1 := by
  induction fuel generalizing r pos s x with
  | zero => cases hx
  | succ fuel ih =>
    rw [feed] at hx
    rw [derive]
    cases hr : h[r]? with
    | none =>
      rw [hr] at hx
      cases hx
    | some recognizer =>
      simp only [hr, bind_eq_ok] at hx
      obtain ⟨l, -, f, hf, s', -, hx⟩ := hx
      cases hx
      obtain ⟨d, hd, hm⟩ := deriveNode_of_feed ctx input (fun _ _ _ _ hx => ih hx) hf
      exact ⟨withNode r pos d, by simp only [hd, ok_bind], by rw [lengthOf_withNode, hm]⟩

/-! ## Recognition that the watch does not stop -/

section Settle

variable {h : Heap} {input : Bytes}

/-- With enough fuel the watched recognition returns, inside the input; an empty match is one of a
recognizer that may be empty. -/
def Settles (h : Heap) (input : Bytes) (r : Ref) (pos : Nat) (stack : List Ref) : Prop :=
  ∃ fuel m, feed (watch h) input h fuel r pos stack = .ok (m, stack) ∧ ∀ k, m = some k →
    pos + k ≤ input.length ∧ (k = 0 → MayBeEmpty h r ∧ stack.head?.any h.unbounded = false)

/-- Recognition returns if the watch does not stop it. -/
def Tame (h : Heap) (input : Bytes) (r : Ref) (pos : Nat) (stack : List Ref) : Prop :=
  Never .abort (fun fuel => feed (watch h) input h fuel r pos stack) → Settles h input r pos stack

variable {pos : Nat}

theorem charAt_of_le (hpos : pos ≤ input.length) : ∃ c, charAt input pos = .ok c ∧
    (pos = input.length → c = 0) := by
  rw [charAt]
  split
  · next hlt => exact ⟨_, rfl, fun heq => absurd hlt (by omega)⟩
  · exact ⟨0, by rw [if_pos (by omega)], fun _ => rfl⟩

variable {stack es : List Ref}

theorem feedExclusive_settles (he : ∀ e ∈ es, Tame h input e pos stack)
    (hn : Never .abort fun n => feedExclusive (feed (watch h) input h n) pos es stack) :
    ∃ n m, feedExclusive (feed (watch h) input h n) pos es stack = .ok (m, stack) ∧
      m ≠ some 0 := by
  induction es with
  | nil => exact ⟨0, none, rfl, by simp⟩
  | cons e es ih =>
    have hgrow : Growing fun n => feed (watch h) input h n e pos stack := feed_growing _ _ _ _ _ _
    have hrest : ∀ x : Option Nat × List Ref, Growing fun n => if matchedSome x.1 then
        (.ok x : Except Fault (Option Nat × List Ref))
        else feedExclusive (feed (watch h) input h n) pos es x.2 := by
      intro x n k hnk
      split
      · exact .refl _
      · exact feedExclusive_extends (fun e pos s => feed_growing _ _ _ _ _ _ n k hnk) _ _ _
    obtain ⟨n, m, hm, -⟩ := he e mem_cons_self (head hn)
    have hnext := tail (by decide) hgrow (hrest _) hm hn
    cases hmatch : matchedSome m with
    | true =>
      refine ⟨n, m, ?_, ?_⟩
      · rw [feedExclusive, hm, ok_bind, if_pos hmatch]
      · rintro rfl
        cases hmatch
    | false =>
      have hnever : Never .abort fun n =>
          feedExclusive (feed (watch h) input h n) pos es stack := by
        intro k hk
        apply hnext k
        simpa [hmatch] using hk
      obtain ⟨k, m', hm', hne⟩ := ih (fun e he' => he e (mem_cons_of_mem _ he')) hnever
      refine ⟨Nat.max n k, m', ?_, hne⟩
      rw [feedExclusive, feed_ok_of_le (Nat.le_max_left n k) hm, ok_bind]
      exact (hrest (m, stack) k _ (Nat.le_max_right n k)).ok (by simpa [hmatch] using hm')

theorem feedAll_settles (he : ∀ e ∈ es, Tame h input e pos stack)
    {best : Option (Nat × Unit)} (hpos : ∀ b, best = some b → 0 < b.1)
    (hn : Never .abort fun n => feedAll (watch h) (feed (watch h) input h n) pos es best
      stack) : ∃ n b, feedAll (watch h) (feed (watch h) input h n) pos es best stack =
      .ok (b, stack) ∧ ∀ b', b = some b' → 0 < b'.1 := by
  induction es generalizing best with
  | nil => exact ⟨0, best, rfl, hpos⟩
  | cons e es ih =>
    have hdrop : ∀ (best : Option (Nat × Unit)) (s : List Ref),
        dropBest (watch h) best s = .ok s := by
      intro best s
      cases best <;> rfl
    have hstep : ∀ n, feedAll (watch h) (feed (watch h) input h n) pos (e :: es) best
        stack = feed (watch h) input h n e pos stack >>= fun f =>
          feedAll (watch h) (feed (watch h) input h n) pos es
            (if better f.1 best then some (f.1.getD 0, ()) else best) f.2 := by
      intro n
      rw [feedAll, show (watch h).branch stack = .ok ((), stack) from rfl, ok_bind]
      congr 1
      funext f
      split
      · rw [hdrop, ok_bind]
      · rfl
    simp only [hstep] at hn ⊢
    have hgrow : Growing fun n => feed (watch h) input h n e pos stack := feed_growing _ _ _ _ _ _
    have hrest : ∀ x : Option Nat × List Ref, Growing fun n =>
        feedAll (watch h) (feed (watch h) input h n) pos es
          (if better x.1 best then some (x.1.getD 0, ()) else best) x.2 := by
      intro x n k hnk
      exact feedAll_extends _ (fun e pos s => feed_growing _ _ _ _ _ _ n k hnk) _ _ _ _
    obtain ⟨n, m, hm, -⟩ := he e mem_cons_self (head hn)
    have hnext := tail (by decide) hgrow (hrest (m, stack)) hm hn
    have hbest : ∀ b, (if better m best then some (m.getD 0, ()) else best) = some b →
        0 < b.1 := by
      intro b hb
      split at hb
      · next hbetter =>
        cases hb
        cases m with
        | none => cases hbetter
        | some m => cases best with
          | none => simpa [better] using hbetter
          | some b =>
            have hlt : b.1 < m := by simpa [better] using hbetter
            exact Nat.zero_lt_of_lt hlt
      · exact hpos b hb
    obtain ⟨k, b, hb, hpos'⟩ := ih (fun e he' => he e (mem_cons_of_mem _ he')) hbest hnext
    refine ⟨Nat.max n k, b, ?_, hpos'⟩
    rw [feed_ok_of_le (Nat.le_max_left n k) hm, ok_bind]
    exact (hrest (m, stack) k _ (Nat.le_max_right n k)).ok hb

theorem Selector.feed_settles (he : ∀ e ∈ es, Tame h input e pos stack)
    (hn : Never .abort fun n => Selector.feed (watch h) (Belr.feed (watch h) input h n) pos es stack) :
    ∃ n m, Selector.feed (watch h) (Belr.feed (watch h) input h n) pos es stack = .ok (m, stack) ∧
      m ≠ some 0 := by
  obtain ⟨n, b, hb, hpos⟩ := feedAll_settles he (by simp) (head hn)
  cases b with
  | none => exact ⟨n, none, by rw [Selector.feed, hb]; rfl, by simp⟩
  | some b =>
    refine ⟨n, some b.1, by rw [Selector.feed, hb]; rfl, ?_⟩
    have := hpos b rfl
    intro hz
    simp only [Option.some.injEq] at hz
    omega

theorem Sequence.feed_settles {pos₀ : Nat} {before : List Ref}
    (he : ∀ before' e after, before ++ es = before' ++ e :: after → ∀ q, pos₀ ≤ q → q ≤
      input.length → (q = pos₀ → ∀ b ∈ before', MayBeEmpty h b) → Tame h input e q stack)
    {total : Nat} (hle : pos₀ + total ≤ input.length)
    (hempty : total = 0 → ∀ b ∈ before, MayBeEmpty h b)
    (hn : Never .abort fun n => Sequence.feed (Belr.feed (watch h) input h n) es (pos₀ + total)
      total stack) :
    ∃ n m, Sequence.feed (Belr.feed (watch h) input h n) es (pos₀ + total) total stack =
      .ok (m, stack) ∧ (m = some 0 → ∀ b ∈ before ++ es, MayBeEmpty h b) := by
  induction es generalizing before total with
  | nil =>
    refine ⟨0, some total, rfl, ?_⟩
    intro hz
    rw [append_nil]
    exact hempty (Option.some.inj hz)
  | cons e es ih =>
    have hgrow : Growing fun n => Belr.feed (watch h) input h n e (pos₀ + total) stack :=
      feed_growing _ _ _ _ _ _
    have hrest : ∀ x : Option Nat × List Ref, Growing fun n =>
        (match x.1 with
        | none => (.ok (none, x.2) : Except Fault (Option Nat × List Ref))
        | some m => Sequence.feed (Belr.feed (watch h) input h n) es (pos₀ + total + m) (total + m)
            x.2) := by
      intro x n k hnk
      cases x.1 with
      | none => exact .refl _
      | some m =>
        exact Sequence.feed_extends (fun e pos s => feed_growing _ _ _ _ _ _ n k hnk) _ _ _ _
    have htame := he before e es rfl (pos₀ + total) (by omega) hle (fun hq => hempty (by omega))
    obtain ⟨n, m, hm, hin⟩ := htame (head hn)
    have hnext := tail (by decide) hgrow (hrest (m, stack)) hm hn
    cases m with
    | none => exact ⟨n, none, by rw [Sequence.feed, hm]; rfl, by simp⟩
    | some m =>
      obtain ⟨hend, hzero⟩ := hin m rfl
      rw [Nat.add_assoc] at hend
      have hsame : before ++ e :: es = (before ++ [e]) ++ es := by simp
      have hempty' : total + m = 0 → ∀ b ∈ before ++ [e], MayBeEmpty h b := by
        intro hz b hb
        rcases mem_append.1 hb with hb | hb
        · exact hempty (by omega) b hb
        · rw [mem_singleton.1 hb]
          exact (hzero (by omega)).1
      simp only [Nat.add_assoc] at hnext
      rw [hsame] at he
      obtain ⟨k, m', hm', hall⟩ := ih he hend hempty' hnext
      refine ⟨Nat.max n k, m', ?_, by rw [hsame]; exact hall⟩
      rw [Sequence.feed, feed_ok_of_le (Nat.le_max_left n k) hm, ok_bind]
      exact (hrest (some m, stack) k _ (Nat.le_max_right n k)).ok
        (by simpa only [Nat.add_assoc] using hm')

/-- What bounds the rounds to come: the input that is left, or the rounds that are. -/
def Loop.remaining (input : Bytes) (max : Int) (count pos : Nat) : Nat :=
  if max = -1 then input.length - pos else (max - count).toNat

variable {r : Ref}

theorem Loop.result_zero {element : Ref} {min max : Int} {count total : Nat}
    (hnode : h.node? r = some (.loop element min max))
    (hempty : total = 0 → count = 0 ∨ MayBeEmpty h element)
    (hz : result min count total = some 0) : MayBeEmpty h r := by
  rw [result] at hz
  split at hz
  · cases hz
  · next hmin =>
    rcases hempty (Option.some.inj hz) with hcount | helem
    · exact .noRound hnode (by omega)
    · exact .emptyRound hnode helem

/-- A loop returns: each round of an unbounded one makes progress, and the others are bounded. -/
theorem Loop.feed_settles {pos₀ : Nat} {element : Ref} {min max : Int}
    (hnode : h.node? r = some (.loop element min max)) (hstack : stack.head? = some r)
    (he : ∀ q, pos₀ ≤ q → q ≤ input.length → Tame h input element q stack)
    {rounds count total : Nat} (hleft : remaining input max count (pos₀ + total) ≤ rounds)
    (hle : pos₀ + total ≤ input.length) (hempty : total = 0 → count = 0 ∨ MayBeEmpty h element)
    (hn : ∀ j, Never .abort fun n => Loop.feed input (Belr.feed (watch h) input h n) element min max
      j count (pos₀ + total) total stack) :
    ∃ j n m, Loop.feed input (Belr.feed (watch h) input h n) element min max j count (pos₀ + total)
      total stack = .ok (m, stack) ∧ (m = some 0 → MayBeEmpty h r) := by
  induction rounds using Nat.strong_induction_on generalizing count total with
  | _ rounds ih =>
    by_cases hmax : max ≠ -1 ∧ max ≤ count
    · refine ⟨1, 0, _, by rw [Loop.feed, if_pos hmax], ?_⟩
      exact result_zero hnode hempty
    · obtain ⟨c, hc, hcend⟩ := charAt_of_le hle
      by_cases hnul : c = 0
      · refine ⟨1, 0, _, by rw [Loop.feed, if_neg hmax, hc, ok_bind, if_pos hnul], ?_⟩
        exact result_zero hnode hempty
      · have hlt : pos₀ + total < input.length := by
          rcases Nat.lt_or_eq_of_le hle with hlt | heq
          · exact hlt
          · exact absurd (hcend heq) hnul
        have hstep : ∀ j n, Loop.feed input (Belr.feed (watch h) input h n) element min max (j + 1)
            count (pos₀ + total) total stack =
            Belr.feed (watch h) input h n element (pos₀ + total) stack >>= fun f =>
              match f.1 with
              | none => .ok (result min count total, f.2)
              | some m => Loop.feed input (Belr.feed (watch h) input h n) element min max j
                (count + 1) (pos₀ + total + m) (total + m) f.2 := by
          intro j n
          rw [Loop.feed, if_neg hmax, hc, ok_bind]
          exact if_neg hnul
        have hgrow : Growing fun n =>
            Belr.feed (watch h) input h n element (pos₀ + total) stack := feed_growing _ _ _ _ _ _
        have hrest : ∀ j, ∀ x : Option Nat × List Ref, Growing fun n =>
            (match x.1 with
            | none => (.ok (result min count total, x.2) :
                Except Fault (Option Nat × List Ref))
            | some m => Loop.feed input (Belr.feed (watch h) input h n) element min max j
                (count + 1) (pos₀ + total + m) (total + m) x.2) := by
          intro j x n k hnk
          cases x.1 with
          | none => exact .refl _
          | some m =>
            exact Loop.feed_extends _ (fun e pos s => feed_growing _ _ _ _ _ _ n k hnk) _ _ _
              (by omega) _ _ _ _
        have hn' : ∀ j, Never .abort fun n =>
            Belr.feed (watch h) input h n element (pos₀ + total) stack >>= fun f =>
              match f.1 with
              | none => .ok (result min count total, f.2)
              | some m => Loop.feed input (Belr.feed (watch h) input h n) element min max j
                (count + 1) (pos₀ + total + m) (total + m) f.2 := by
          intro j n
          dsimp only
          rw [← hstep]
          exact hn (j + 1) n
        obtain ⟨n, m, hm, hin⟩ := he (pos₀ + total) (by omega) hle (head (hn' 0))
        cases m with
        | none =>
          refine ⟨1, n, _, by rw [hstep, hm]; rfl, ?_⟩
          exact result_zero hnode hempty
        | some m =>
          obtain ⟨hend, hzero⟩ := hin m rfl
          rw [Nat.add_assoc] at hend
          have hprogress : max = -1 → m ≠ 0 := by
            intro hunb hz
            have hfalse := (hzero hz).2
            rw [hstack] at hfalse
            simp [unbounded, hnode, hunb] at hfalse
          have hfewer : remaining input max (count + 1) (pos₀ + (total + m)) < rounds := by
            rw [remaining] at hleft ⊢
            split at hleft
            · next hunb =>
              rw [if_pos hunb]
              omega
            · next hbounded =>
              rw [if_neg hbounded]
              omega
          have hnext : ∀ j, Never .abort fun n => Loop.feed input (Belr.feed (watch h) input h n)
              element min max j (count + 1) (pos₀ + (total + m)) (total + m) stack := by
            intro j
            rw [← Nat.add_assoc]
            exact tail (by decide) hgrow (hrest j (some m, stack)) hm (hn' j)
          obtain ⟨j, k, m', hm', hres⟩ := ih _ hfewer (by omega) hend
            (fun hz => .inr (hzero (by omega)).1) hnext
          refine ⟨j + 1, Nat.max n k, m', ?_, hres⟩
          rw [hstep, feed_ok_of_le (Nat.le_max_left n k) hm, ok_bind]
          rw [← Nat.add_assoc] at hm'
          exact (hrest j (some m, stack) k _ (Nat.le_max_right n k)).ok hm'

theorem Literal.agrees_ok {text : Bytes} (hnul : 0 ∉ text) (hpos : pos ≤ input.length) :
    ∃ b, Literal.agrees input text pos = .ok b := by
  induction text generalizing pos with
  | nil => exact ⟨true, rfl⟩
  | cons b text ih =>
    simp only [mem_cons, not_or] at hnul
    obtain ⟨c, hc, hend⟩ := charAt_of_le hpos
    rw [Literal.agrees, hc, ok_bind]
    by_cases hb : lowerByte c = b
    · rw [if_neg (by simpa using hb)]
      apply ih hnul.2
      rcases Nat.lt_or_eq_of_le hpos with hlt | heq
      · omega
      · rw [hend heq] at hb
        exact absurd hb hnul.1
    · exact ⟨false, by rw [if_pos hb]⟩

theorem leaf_settles (hbuilt : h.Built) (hpos : pos ≤ input.length) (stack : List Ref)
    {node : Node} (hnode : h.node? r = some node) (hleaf : node.refs = [])
    (hselector : ∀ c es x, node ≠ .selector c es x) (hsequence : ∀ es, node ≠ .sequence es)
    (rec : Feeder (List Ref)) (fuel : Nat) :
    ∃ m, feedNode (watch h) input rec fuel pos stack node = .ok (m, stack) ∧
      (m = some 0 → MayBeEmpty h r) := by
  obtain ⟨c, hc, -⟩ := charAt_of_le hpos
  have hone : ∀ (p : Prop) [Decidable p], (if p then some 1 else none) = some 0 → False := by
    intro p _ hz
    split at hz <;> cases hz
  rw [node?, Option.map_eq_some_iff] at hnode
  obtain ⟨recognizer, hr, rfl⟩ := hnode
  have hmem := mem_of_getElem? hr
  cases hclass : recognizer.node with
  | char toRecognize caseSensitive =>
    rw [feedNode, leaf, CharRecognizer.feed, hc, ok_bind]
    split
    · exact ⟨_, rfl, fun hz => (hone _ hz).elim⟩
    · exact ⟨_, rfl, fun hz => (hone _ hz).elim⟩
  | charRange first last =>
    rw [feedNode, leaf, CharRange.feed, hc, ok_bind]
    exact ⟨_, rfl, fun hz => (hone _ hz).elim⟩
  | literal text =>
    obtain ⟨b, hb⟩ := Literal.agrees_ok (hbuilt.literals _ hmem text hclass) hpos
    rw [feedNode, leaf, Literal.feed, hb, ok_bind]
    refine ⟨_, rfl, ?_⟩
    intro hz
    split at hz
    · apply MayBeEmpty.literal
      rw [node?, hr, Option.map_some, hclass, length_eq_zero_iff.1 (Option.some.inj hz)]
    · cases hz
  | selector c es x => exact absurd hclass (hselector c es x)
  | sequence es => exact absurd hclass (hsequence es)
  | loop e min max => simp [hclass, Node.refs] at hleaf
  | recognizerPointer p =>
    cases p with
    | none => exact absurd hclass (hbuilt.set _ hmem).1
    | some q => simp [hclass, Node.refs] at hleaf
  | recognizerAlias p =>
    cases p with
    | none => exact absurd hclass (hbuilt.set _ hmem).2
    | some q => simp [hclass, Node.refs] at hleaf

/-- Each class of recognizer returns if what it may try does. -/
theorem feedNode_settles (hbuilt : h.Built) (hpos : pos ≤ input.length) {node : Node}
    (hnode : h.node? r = some node) (hstack : stack.head? = some r)
    (he : ∀ e ∈ node.refs, ∀ q, pos ≤ q → q ≤ input.length → (q = pos → LeftEdge h r e) → Tame h
      input e q stack)
    (hn : Never .abort fun n => feedNode (watch h) input (feed (watch h) input h n) n pos stack node) :
    ∃ n m, feedNode (watch h) input (feed (watch h) input h n) n pos stack node =
      .ok (m, stack) ∧ (m = some 0 → MayBeEmpty h r) := by
  cases node with
  | char toRecognize caseSensitive =>
    exact ⟨0, leaf_settles hbuilt hpos stack hnode rfl (by simp) (by simp) _ 0⟩
  | charRange first last =>
    exact ⟨0, leaf_settles hbuilt hpos stack hnode rfl (by simp) (by simp) _ 0⟩
  | literal text =>
    exact ⟨0, leaf_settles hbuilt hpos stack hnode rfl (by simp) (by simp) _ 0⟩
  | selector c es x =>
    have htame : ∀ e ∈ es, Tame h input e pos stack := fun e hmem =>
      he e hmem pos (by omega) hpos fun _ => .selector hnode hmem
    simp only [feedNode] at hn ⊢
    split at hn
    · next hx =>
      obtain ⟨n, m, hm, hz⟩ := feedExclusive_settles htame hn
      exact ⟨n, m, by rw [if_pos hx]; exact hm, fun heq => absurd heq hz⟩
    · next hx =>
      obtain ⟨n, m, hm, hz⟩ := feed_settles htame hn
      exact ⟨n, m, by rw [if_neg hx]; exact hm, fun heq => absurd heq hz⟩
  | sequence es =>
    have htame : ∀ before e after, [] ++ es = before ++ e :: after → ∀ q, pos ≤ q →
        q ≤ input.length → (q = pos → ∀ b ∈ before, MayBeEmpty h b) → Tame h input e q stack := by
      intro before e after hsplit q hq hle hempty
      rw [nil_append] at hsplit
      refine he e (by simp [Node.refs, hsplit]) q hq hle fun heq => ?_
      exact .sequence (by rw [hnode, hsplit]) (hempty heq)
    obtain ⟨n, m, hm, hz⟩ := Sequence.feed_settles htame (show pos + 0 ≤ _ from hpos) (by simp) hn
    exact ⟨n, m, hm, fun heq => .sequence hnode (by simpa using hz heq)⟩
  | loop element min max =>
    have htame : ∀ q, pos ≤ q → q ≤ input.length → Tame h input element q stack := fun q hq hle =>
      he element (by simp [Node.refs]) q hq hle fun _ => .loop hnode
    have hgrow : ∀ {n k j i : Nat}, n ≤ k → j ≤ i → Extends
        (Loop.feed input (feed (watch h) input h n) element min max j 0 pos 0 stack)
        (Loop.feed input (feed (watch h) input h k) element min max i 0 pos 0 stack) :=
      fun hnk hji => Loop.feed_extends _ (fun e pos s => feed_growing _ _ _ _ _ _ _ _ hnk) _ _ _
        hji _ _ _ _
    have hnever : ∀ j, Never .abort fun n =>
        Loop.feed input (feed (watch h) input h n) element min max j 0 pos 0 stack := by
      intro j n hx
      apply hn (Nat.max j n)
      exact (hgrow (Nat.le_max_right j n) (Nat.le_max_left j n)).error (by decide) hx
    have hbegin : pos + 0 ≤ input.length := hpos
    obtain ⟨j, n, m, hm, hz⟩ := feed_settles hnode hstack htame (Nat.le_refl _) hbegin
      (fun _ => .inl rfl) hnever
    exact ⟨Nat.max j n, m, (hgrow (Nat.le_max_right j n) (Nat.le_max_left j n)).ok hm, hz⟩
  | recognizerPointer pointed =>
    cases pointed with
    | none =>
      rw [node?, Option.map_eq_some_iff] at hnode
      obtain ⟨recognizer, hr, hclass⟩ := hnode
      exact absurd hclass (hbuilt.set _ (mem_of_getElem? hr)).1
    | some q =>
      obtain ⟨n, m, hm, hin⟩ := he q (by simp [Node.refs]) pos (by omega) hpos
        (fun _ => .pointer hnode) hn
      refine ⟨n, m, hm, fun hz => ?_⟩
      exact .pointer hnode ((hin 0 hz).2 rfl).1
  | recognizerAlias pointed =>
    cases pointed with
    | none =>
      rw [node?, Option.map_eq_some_iff] at hnode
      obtain ⟨recognizer, hr, hclass⟩ := hnode
      exact absurd hclass (hbuilt.set _ (mem_of_getElem? hr)).2
    | some q =>
      obtain ⟨n, m, hm, hin⟩ := he q (by simp [Node.refs]) pos (by omega) hpos
        (fun _ => .aliased hnode) hn
      refine ⟨n, m, hm, fun hz => ?_⟩
      exact .aliased hnode ((hin 0 hz).2 rfl).1

theorem tame_of_node (hr : r < h.length)
    (hnode : ∀ node, h.node? r = some node → (Never .abort fun n => feedNode (watch h) input (feed
      (watch h) input h n) n pos (r :: stack) node) → ∃ n m, feedNode (watch h) input (feed (watch
      h) input h n) n pos (r :: stack) node = .ok (m, r :: stack) ∧ (m = some 0 → MayBeEmpty h r)) :
    Tame h input r pos stack := by
  intro hn
  obtain ⟨recognizer, hget⟩ : ∃ recognizer, h[r]? = some recognizer :=
    ⟨_, List.getElem?_eq_getElem hr⟩
  have hfeed : ∀ n, feed (watch h) input h (n + 1) r pos stack =
      feedNode (watch h) input (feed (watch h) input h n) n pos (r :: stack) recognizer.node >>=
        fun f => (watch h).endParse () input pos f.1 f.2 >>= fun s => .ok (f.1, s) := by
    intro n
    rw [feed, hget]
    rfl
  have hnever : Never .abort fun n =>
      feedNode (watch h) input (feed (watch h) input h n) n pos (r :: stack) recognizer.node := by
    intro n hx
    apply hn (n + 1)
    simp only [hfeed, hx, error_bind]
  obtain ⟨n, m, hm, hempty⟩ := hnode recognizer.node (by simp [node?, hget]) hnever
  have hend := hn (n + 1)
  simp only [hfeed, hm, ok_bind] at hend
  have hstops : h.stops input stack pos m = false := by
    cases hs : h.stops input stack pos m with
    | false => rfl
    | true => exact absurd (by simp [watch, hs]) hend
  refine ⟨n + 1, m, ?_, ?_⟩
  · rw [hfeed, hm, ok_bind]
    simp [watch, hstops]
  · rintro k rfl
    simp only [stops, Bool.or_eq_false_iff, decide_eq_false_iff_not, Bool.and_eq_false_iff,
      beq_eq_false_iff_ne] at hstops
    refine ⟨by omega, ?_⟩
    rintro rfl
    exact ⟨hempty rfl, by simpa using hstops.2⟩

/-- Without left recursion a recognition that is not stopped returns: the input left decreases, or
the recognizer goes down the left edges. -/
theorem feed_settles (hbuilt : h.Built) (hl : h.NoLeftRecursion) (hpos : pos ≤ input.length)
    (hr : r < h.length) (stack : List Ref) : Tame h input r pos stack := by
  induction hrest : input.length - pos using Nat.strong_induction_on generalizing pos r stack with
  | _ rest ih =>
    revert stack
    refine hl.induction (P := fun r => ∀ stack, Tame h input r pos stack) ?_ hr
    intro r hr ihr stack
    apply tame_of_node hr
    intro node hnode
    have hclosed : ∀ e ∈ node.refs, e < h.length := by
      rw [node?, Option.map_eq_some_iff] at hnode
      obtain ⟨recognizer, hget, rfl⟩ := hnode
      exact hbuilt.closed _ (mem_of_getElem? hget)
    apply feedNode_settles hbuilt hpos hnode rfl
    intro e he q hq hle hedge
    rcases Nat.lt_or_eq_of_le hq with hlt | heq
    · exact ih _ (by omega) hle (hclosed e he) _ rfl
    · subst heq
      exact ihr e (hclosed e he) (hedge rfl) _

end Settle

theorem Heap.Watched.inside {h : Heap} (hbuilt : h.Built) (hl : h.NoLeftRecursion) {input : Bytes}
    {r : Ref} (hr : r < h.length) (hw : h.Watched input r) : h.Inside input r := by
  obtain ⟨fuel, m, hm, hin⟩ := feed_settles hbuilt hl (by omega) hr [] hw
  obtain ⟨d, hd, hlen⟩ := derive_of_feed (watch h) hm
  refine ⟨m, feeds_iff.2 ⟨fuel, d, hd, hlen⟩, ?_⟩
  intro k hk
  have hend := (hin k hk).1
  omega

/-! ## What the watch stops is wrong -/

section Converse

variable {h : Heap} {input : Bytes} {drec : Deriver} {rec : Feeder (List Ref)}
  (hrec : ∀ e q stack d, q ≤ input.length → drec e q = .ok d →
    h.stops input stack q (lengthOf d) = false → rec e q stack = .ok (lengthOf d, stack))
  (hdead : ∀ e q, input.length < q → drec e q ≠ .ok none)

variable {stack : List Ref} {pos : Nat}

variable {es : List Ref} {d : Option (Nat × Forest)}

variable {total : Nat} {f : Forest}

variable {fuel : Nat}

end Converse

end GrooveIp.Belr
