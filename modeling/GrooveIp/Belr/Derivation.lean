import GrooveIp.Belr.Recognizer

/-!
# The winning derivation

What recognition decides, apart from the context it keeps informed: the tree of the recognizers
that matched on the way that was taken, under belr's reading (the first of the longest
alternatives, or the first to match something where the selector is exclusive; as many rounds of a
loop as match; no way back into a sequence). `derive` follows `feed` class by class without a
context. A context that undoes what is abandoned is a log of the derivation: `Follows` says what
each of its methods has to do for that, and `feed_logs` that feeding with such a context returns
the length derived and leaves the log of exactly the tree derived.
-/

namespace GrooveIp.Belr

open Lib Selector

/-- Nodes of a derivation, in input order: the recognizer, where it matched and how much, the nodes
below it, and the nodes after it. -/
inductive Forest where
  | nil
  | cons (r pos len : Nat) (kids rest : Forest)
  deriving DecidableEq, Repr

namespace Forest

/-- One forest after another. -/
def append : Forest → Forest → Forest
  | nil, g => g
  | cons r pos len kids rest, g => cons r pos len kids (rest.append g)

instance : Append Forest := ⟨append⟩

@[simp] theorem nil_append (f : Forest) : nil ++ f = f := rfl

@[simp] theorem cons_append (r pos len : Nat) (kids rest g : Forest) :
    cons r pos len kids rest ++ g = cons r pos len kids (rest ++ g) := rfl

@[simp] theorem append_nil (f : Forest) : f ++ nil = f := by
  induction f with
  | nil => rfl
  | cons r pos len kids rest _ ih => rw [cons_append, ih]

/-- One node. -/
def node (r pos len : Nat) (kids : Forest) : Forest := cons r pos len kids nil

end Forest

/-- What deriving a recognizer at a position gives: the length and the nodes, or no match. -/
abbrev Deriver := Ref → Nat → Except Fault (Option (Nat × Forest))

/-- The length of a match. -/
def lengthOf (d : Option (Nat × Forest)) : Option Nat := d.map Prod.fst

/-- The nodes of a match. -/
def forestOf : Option (Nat × Forest) → Forest
  | none => .nil
  | some d => d.2

section Derive

variable (input : Bytes)

/-- The first alternative to match something. -/
def deriveFirst (rec : Deriver) (pos : Nat) : List Ref → Except Fault (Option (Nat × Forest))
  | [] => .ok none
  | e :: es => do
    let d ← rec e pos
    if matchedSome (lengthOf d) then .ok d else deriveFirst rec pos es

/-- The first of the longest alternatives, if one matches something. -/
def deriveLongest (rec : Deriver) (pos : Nat) :
    List Ref → Option (Nat × Forest) → Except Fault (Option (Nat × Forest))
  | [], best => .ok best
  | e :: es, best => do
    let d ← rec e pos
    if better (lengthOf d) best then deriveLongest rec pos es d
    else deriveLongest rec pos es best

/-- One element after the other. -/
def deriveSequence (rec : Deriver) :
    List Ref → Nat → Nat → Forest → Except Fault (Option (Nat × Forest))
  | [], _, total, f => .ok (some (total, f))
  | e :: es, pos, total, f => do
    let d ← rec e pos
    match d with
    | none => .ok none
    | some d => deriveSequence rec es (pos + d.1) (total + d.1) (f ++ d.2)

/-- The end of a loop. -/
def loopResult (min : Int) (count total : Nat) (f : Forest) : Option (Nat × Forest) :=
  (Loop.result min count total).map fun m => (m, f)

/-- As many rounds as match. -/
def deriveLoop (rec : Deriver) (element : Ref) (min max : Int) :
    Nat → Nat → Nat → Nat → Forest → Except Fault (Option (Nat × Forest))
  | 0, _, _, _, _ => .error .diverged
  | fuel + 1, count, pos, total, f =>
    if max ≠ -1 ∧ max ≤ count then .ok (loopResult min count total f)
    else do
      let c ← charAt input pos
      if c = 0 then .ok (loopResult min count total f)
      else
        let d ← rec element pos
        match d with
        | none => .ok (loopResult min count total f)
        | some d =>
          deriveLoop rec element min max fuel (count + 1) (pos + d.1) (total + d.1) (f ++ d.2)

/-- A recognizer without recognizers below it. -/
def deriveLeaf (m : Except Fault (Option Nat)) : Except Fault (Option (Nat × Forest)) := do
  let m ← m
  .ok (m.map fun len => (len, .nil))

/-- What is derived below a recognizer, by its class. -/
def deriveNode (rec : Deriver) (fuel pos : Nat) : Node → Except Fault (Option (Nat × Forest))
  | .char toRecognize caseSensitive =>
    deriveLeaf (CharRecognizer.feed toRecognize caseSensitive input pos)
  | .selector exclusiveClass es isExclusive =>
    if exclusiveClass ∨ isExclusive then deriveFirst rec pos es
    else deriveLongest rec pos es none
  | .sequence es => deriveSequence rec es pos 0 .nil
  | .loop element min max => deriveLoop input rec element min max fuel 0 pos 0 .nil
  | .charRange first last => deriveLeaf (CharRange.feed first last input pos)
  | .literal text => deriveLeaf (Literal.feed text input pos)
  | .recognizerPointer pointed | .recognizerAlias pointed =>
    match pointed with
    | none => .error .abort
    | some r => rec r pos

/-- The node of a recognizer that matched; an empty match leaves none. -/
def withNode (r pos : Nat) (d : Option (Nat × Forest)) : Option (Nat × Forest) :=
  d.map fun d => (d.1, if d.1 = 0 then .nil else .node r pos d.1 d.2)

/-- The derivation of a recognizer at a position. -/
def derive (h : Heap) : Nat → Deriver
  | 0, _, _ => .error .diverged
  | fuel + 1, r, pos =>
    match h[r]? with
    | none => .error .nullDereference
    | some recognizer => do
      let d ← deriveNode input (derive h fuel) fuel pos recognizer.node
      .ok (withNode r pos d)

end Derive

@[simp] theorem lengthOf_withNode (r pos : Nat) (d : Option (Nat × Forest)) :
    lengthOf (withNode r pos d) = lengthOf d := by
  cases d with
  | none => rfl
  | some d => rfl

@[simp] theorem lengthOf_loopResult (min : Int) (count total : Nat) (f : Forest) :
    lengthOf (loopResult min count total f) = Loop.result min count total := by
  simp [lengthOf, loopResult, Function.comp_def]

/-! ## More fuel -/

section Growth

variable {σ L B : Type} (ctx : ParserContextBase σ L B) (input : Bytes) {rec rec' : Feeder σ}
  (hrec : ∀ e pos s, Extends (rec e pos s) (rec' e pos s))

include hrec

theorem Selector.feedExclusive_extends (pos : Nat) (es : List Ref) (s : σ) :
    Extends (feedExclusive rec pos es s) (feedExclusive rec' pos es s) := by
  induction es generalizing s with
  | nil => exact .refl _
  | cons e es ih =>
    apply (hrec e pos s).bind
    intro f
    split
    · exact .refl _
    · exact ih f.2

theorem Selector.feedAll_extends (pos : Nat) (es : List Ref) (best : Option (Nat × B)) (s : σ) :
    Extends (feedAll ctx rec pos es best s) (feedAll ctx rec' pos es best s) := by
  induction es generalizing best s with
  | nil => exact .refl _
  | cons e es ih =>
    apply (Extends.refl _).bind
    intro b
    apply (hrec e pos b.2).bind
    intro f
    split
    · apply (Extends.refl _).bind
      intro s'
      exact ih _ s'
    · apply (Extends.refl _).bind
      intro s'
      exact ih best s'

theorem Sequence.feed_extends (es : List Ref) (pos total : Nat) (s : σ) :
    Extends (Sequence.feed rec es pos total s) (Sequence.feed rec' es pos total s) := by
  induction es generalizing pos total s with
  | nil => exact .refl _
  | cons e es ih =>
    apply (hrec e pos s).bind
    intro f
    cases f.1 with
    | none => exact .refl _
    | some m => exact ih _ _ f.2

theorem Loop.feed_extends (element : Ref) (min max : Int) {fuel fuel' : Nat}
    (hfuel : fuel ≤ fuel') (count pos total : Nat) (s : σ) :
    Extends (Loop.feed input rec element min max fuel count pos total s)
      (Loop.feed input rec' element min max fuel' count pos total s) := by
  induction fuel generalizing fuel' count pos total s with
  | zero => exact .diverged _
  | succ fuel ih =>
    cases fuel' with
    | zero => omega
    | succ fuel' =>
      rw [Loop.feed, Loop.feed]
      split
      · exact .refl _
      · apply (Extends.refl _).bind
        intro c
        split
        · exact .refl _
        · apply (hrec element pos s).bind
          intro f
          cases f.1 with
          | none => exact .refl _
          | some m => exact ih (by omega) _ _ _ f.2

theorem feedNode_extends {fuel fuel' : Nat} (hfuel : fuel ≤ fuel') (pos : Nat) (s : σ)
    (node : Node) :
    Extends (feedNode ctx input rec fuel pos s node) (feedNode ctx input rec' fuel' pos s node) := by
  cases node with
  | char toRecognize caseSensitive => exact .refl _
  | charRange first last => exact .refl _
  | literal text => exact .refl _
  | selector exclusiveClass es isExclusive =>
    rw [feedNode, feedNode]
    split
    · exact Selector.feedExclusive_extends hrec pos es s
    · rw [Selector.feed, Selector.feed]
      apply (Selector.feedAll_extends ctx hrec pos es none s).bind
      intro f
      exact .refl _
  | sequence es => exact Sequence.feed_extends hrec es pos 0 s
  | loop element min max => exact Loop.feed_extends input hrec element min max hfuel 0 pos 0 s
  | recognizerPointer pointed =>
    cases pointed with
    | none => exact .refl _
    | some r => exact hrec r pos s
  | recognizerAlias pointed =>
    cases pointed with
    | none => exact .refl _
    | some r => exact hrec r pos s

end Growth

/-- More fuel changes nothing but the fault of running out of it. -/
theorem feed_growing {σ L B : Type} (ctx : ParserContextBase σ L B) (input : Bytes) (h : Heap)
    (r : Ref) (pos : Nat) (s : σ) : Growing fun fuel => feed ctx input h fuel r pos s := by
  apply growing_of_succ
  intro fuel
  induction fuel generalizing r pos s with
  | zero => exact .diverged _
  | succ fuel ih =>
    rw [feed, feed]
    split
    · exact .refl _
    · next recognizer _ =>
      apply (Extends.refl _).bind
      intro l
      apply (feedNode_extends ctx input ih (by omega) pos l.2 recognizer.node).bind
      intro f
      exact .refl _

/-- What is returned with some fuel is returned with more. -/
theorem feed_ok_of_le {σ L B : Type} {ctx : ParserContextBase σ L B} {input : Bytes} {h : Heap}
    {n k : Nat} (hle : n ≤ k) {r : Ref} {pos : Nat} {s : σ} {x : Option Nat × σ}
    (hx : feed ctx input h n r pos s = .ok x) : feed ctx input h k r pos s = .ok x :=
  (feed_growing ctx input h r pos s n k hle).ok hx

/-! ## Contexts that log -/

/-- The methods of a context keep a log: `Log s s' f` logs the nodes of `f`, `Branched s b s' f`
logs them in a branch `b` on top. The end of a recognizer that matched logs its node in place of
those below; a removed branch leaves nothing, and a merged one logs what it holds. -/
structure Follows {σ L B : Type} (ctx : ParserContextBase σ L B) (input : Bytes)
    (Good : σ → Prop) (Log : σ → σ → Forest → Prop) (Branched : σ → B → σ → Forest → Prop) :
    Prop where
  refl {s : σ} : Good s → Log s s .nil
  good {s s' : σ} {f : Forest} : Log s s' f → Good s'
  trans {s s₁ s₂ : σ} {f g : Forest} : Log s s₁ f → Log s₁ s₂ g → Log s s₂ (f ++ g)
  parse {s : σ} (r : Ref) : Good s → ∃ l s₁, ctx.beginParse r s = .ok (l, s₁) ∧ Good s₁ ∧
    ∀ s₂ f, Log s₁ s₂ f → ∀ pos,
      (∀ len, 0 < len → ∃ s₃, ctx.endParse l input pos (some len) s₂ = .ok s₃ ∧
        Log s s₃ (.node r pos len f)) ∧
      ∀ m, matchedSome m = false → ∃ s₃, ctx.endParse l input pos m s₂ = .ok s₃ ∧ Log s s₃ .nil
  branch {s : σ} : Good s → ∃ b s₁, ctx.branch s = .ok (b, s₁) ∧ Branched s b s₁ .nil
  branched_good {s s₁ : σ} {b : B} {f : Forest} : Branched s b s₁ f → Good s₁
  branched_trans {s s₁ s₂ : σ} {b : B} {f g : Forest} :
    Branched s b s₁ f → Log s₁ s₂ g → Branched s b s₂ (f ++ g)
  remove {s s₁ : σ} {b : B} {f : Forest} : Branched s b s₁ f →
    ∃ s₂, ctx.removeBranch b s₁ = .ok s₂ ∧ Log s s₂ .nil
  drop {s s₁ s₂ : σ} {b b' : B} {f g : Forest} : Branched s b s₁ f → Branched s₁ b' s₂ g →
    ∃ s₃, ctx.removeBranch b s₂ = .ok s₃ ∧ Branched s b' s₃ g
  merge {s s₁ : σ} {b : B} {f : Forest} : Branched s b s₁ f →
    ∃ s₂, ctx.merge b s₁ = .ok s₂ ∧ Log s s₂ f

section Logs

variable {σ L B : Type} {ctx : ParserContextBase σ L B} {input : Bytes} {Good : σ → Prop}
  {Log : σ → σ → Forest → Prop} {Branched : σ → B → σ → Forest → Prop}

/-- Feeding does what is derived: the same fault, or the same length with the nodes logged. -/
def Logged (Log : σ → σ → Forest → Prop) (s : σ) (d : Except Fault (Option (Nat × Forest)))
    (x : Except Fault (Option Nat × σ)) : Prop :=
  match d with
  | .error e => x = .error e
  | .ok d => ∃ s', x = .ok (lengthOf d, s') ∧ Log s s' (forestOf d)

/-- The same of a recognizer that has not ended yet: when it fails it may leave nodes behind. -/
def LoggedInside (Log : σ → σ → Forest → Prop) (s : σ)
    (d : Except Fault (Option (Nat × Forest))) (x : Except Fault (Option Nat × σ)) : Prop :=
  match d with
  | .error e => x = .error e
  | .ok d => ∃ s' f, x = .ok (lengthOf d, s') ∧ Log s s' f ∧ ∀ m, d = some m → f = m.2

variable (hctx : Follows ctx input Good Log Branched) {rec : Feeder σ} {drec : Deriver}
  (hrec : ∀ e pos s, Good s → Logged Log s (drec e pos) (rec e pos s))

/-- What did not match something left no node. -/
def Unmatched (d : Except Fault (Option (Nat × Forest))) : Prop :=
  ∀ d', d = .ok d' → matchedSome (lengthOf d') = false → forestOf d' = .nil

variable {s s₁ : σ}

include hctx in
theorem Selector.feedExclusive_logs (hempty : ∀ e pos, Unmatched (drec e pos))
    (hrec : ∀ e pos s, Good s → Logged Log s (drec e pos) (rec e pos s)) (pos : Nat)
    {es : List Ref} (hs : Log s s₁ .nil) :
    LoggedInside Log s (deriveFirst drec pos es) (feedExclusive rec pos es s₁) := by
  induction es generalizing s₁ with
  | nil => exact ⟨s₁, .nil, rfl, hs, by simp⟩
  | cons e es ih =>
    have he := hrec e pos s₁ (hctx.good hs)
    have hun := hempty e pos
    rw [deriveFirst, feedExclusive]
    cases hd : drec e pos with
    | error f =>
      rw [hd] at he
      rw [show rec e pos s₁ = .error f from he]
      rfl
    | ok d =>
      rw [hd] at he
      obtain ⟨s₂, hx, hlog⟩ := he
      rw [hx]
      simp only [ok_bind]
      cases hm : matchedSome (lengthOf d) with
      | true =>
        refine ⟨s₂, forestOf d, rfl, ?_, ?_⟩
        · simpa using hctx.trans hs hlog
        · intro m hm'
          rw [hm']
          rfl
      | false =>
        rw [hun d hd hm] at hlog
        exact ih (by simpa using hctx.trans hs hlog)

/-- Where the loop over the alternatives stands: the longest match so far is in a branch. -/
def BestLogged (Log : σ → σ → Forest → Prop) (Branched : σ → B → σ → Forest → Prop) (s : σ)
    (best : Option (Nat × Forest)) (bestBranch : Option (Nat × B)) (s' : σ) : Prop :=
  match best, bestBranch with
  | none, none => Log s s' .nil
  | some m, some b => m.1 = b.1 ∧ ∃ s₁, Log s s₁ .nil ∧ Branched s₁ b.2 s' m.2
  | _, _ => False

variable {best : Option (Nat × Forest)} {bestBranch : Option (Nat × B)}

theorem BestLogged.better {s' : σ} (h : BestLogged Log Branched s best bestBranch s')
    (m : Option Nat) : better m bestBranch = better m best := by
  cases best with
  | none => cases bestBranch with
    | none => cases m <;> rfl
    | some b => exact h.elim
  | some d => cases bestBranch with
    | none => exact h.elim
    | some b =>
      cases m with
      | none => rfl
      | some m => simp [better, h.1]

include hctx in
theorem BestLogged.good {s' : σ} (h : BestLogged Log Branched s best bestBranch s') : Good s' := by
  cases best with
  | none => cases bestBranch with
    | none => exact hctx.good h
    | some b => exact h.elim
  | some d => cases bestBranch with
    | none => exact h.elim
    | some b =>
      obtain ⟨-, s₁, -, hb⟩ := h
      exact hctx.branched_good hb

variable {f : Forest}

include hctx in
theorem BestLogged.remove {s₂ : σ} {b : B}
    (h : BestLogged Log Branched s best bestBranch s₁) (hb : Branched s₁ b s₂ f) :
    ∃ s₃, ctx.removeBranch b s₂ = .ok s₃ ∧ BestLogged Log Branched s best bestBranch s₃ := by
  obtain ⟨s₃, hx, hlog⟩ := hctx.remove hb
  refine ⟨s₃, hx, ?_⟩
  cases best with
  | none => cases bestBranch with
    | none =>
      have hnil := hctx.trans h hlog
      rwa [Forest.nil_append] at hnil
    | some b => exact h.elim
  | some d => cases bestBranch with
    | none => exact h.elim
    | some b =>
      obtain ⟨hm, s₀, h₀, hbest⟩ := h
      exact ⟨hm, s₀, h₀, by simpa using hctx.branched_trans hbest hlog⟩

include hctx in
theorem BestLogged.replace {s₂ : σ} {b : B} {m : Nat}
    (h : BestLogged Log Branched s best bestBranch s₁) (hb : Branched s₁ b s₂ f) :
    ∃ s₃, dropBest ctx bestBranch s₂ = .ok s₃ ∧
      BestLogged Log Branched s (some (m, f)) (some (m, b)) s₃ := by
  cases best with
  | none => cases bestBranch with
    | none => exact ⟨s₂, rfl, rfl, s₁, h, hb⟩
    | some b => exact h.elim
  | some d => cases bestBranch with
    | none => exact h.elim
    | some b =>
      obtain ⟨-, s₀, h₀, hbest⟩ := h
      obtain ⟨s₃, hx, hb₃⟩ := hctx.drop hbest hb
      exact ⟨s₃, hx, rfl, s₀, h₀, hb₃⟩

include hctx hrec in
theorem Selector.feedAll_logs (pos : Nat) (es : List Ref)
    (hs : BestLogged Log Branched s best bestBranch s₁) : match deriveLongest drec pos es best with
    | .error e => feedAll ctx rec pos es bestBranch s₁ = .error e
    | .ok d => ∃ b s₂, feedAll ctx rec pos es bestBranch s₁ = .ok (b, s₂) ∧
        BestLogged Log Branched s d b s₂ := by
  induction es generalizing s₁ best bestBranch with
  | nil => exact ⟨bestBranch, s₁, rfl, hs⟩
  | cons e es ih =>
    obtain ⟨b, s₂, hbr, hb⟩ := hctx.branch (hs.good hctx)
    have he := hrec e pos s₂ (hctx.branched_good hb)
    rw [deriveLongest, feedAll, hbr]
    simp only [ok_bind]
    cases hd : drec e pos with
    | error f =>
      rw [hd] at he
      rw [show rec e pos s₂ = .error f from he]
      rfl
    | ok d =>
      rw [hd] at he
      obtain ⟨s₃, hx, hlog⟩ := he
      have hb₃ := hctx.branched_trans hb hlog
      rw [hx]
      simp only [ok_bind, hs.better]
      cases hm : better (lengthOf d) best with
      | false =>
        obtain ⟨s₄, hrm, hs₄⟩ := hs.remove hctx hb₃
        simp only [Bool.false_eq_true, if_false, hrm, ok_bind]
        exact ih hs₄
      | true =>
        cases d with
        | none => cases hm
        | some d =>
          obtain ⟨s₄, hrm, hs₄⟩ := hs.replace (m := d.1) hctx hb₃
          simp only [if_true, hrm, ok_bind]
          exact ih hs₄

include hctx hrec in
theorem Selector.feed_logs (pos : Nat) (es : List Ref) (hs : Good s) :
    LoggedInside Log s (deriveLongest drec pos es none) (Selector.feed ctx rec pos es s) := by
  have h : BestLogged Log Branched s none none s := hctx.refl hs
  have hall := feedAll_logs hctx hrec pos es h
  rw [Selector.feed]
  cases hd : deriveLongest drec pos es none with
  | error e =>
    rw [hd] at hall
    rw [hall]
    rfl
  | ok d =>
    rw [hd] at hall
    obtain ⟨b, s₂, hx, hbest⟩ := hall
    rw [hx, ok_bind]
    cases d with
    | none => cases b with
      | none => exact ⟨s₂, .nil, rfl, hbest, by simp⟩
      | some b => exact hbest.elim
    | some d => cases b with
      | none => exact hbest.elim
      | some b =>
        obtain ⟨hm, s₁, hs₁, hb⟩ := hbest
        obtain ⟨s₃, hmg, hlog⟩ := hctx.merge hb
        refine ⟨s₃, d.2, ?_, by simpa using hctx.trans hs₁ hlog, ?_⟩
        · simp [finish, hmg, lengthOf, hm]
        · intro m hm'
          cases hm'
          rfl

include hctx hrec in
theorem Sequence.feed_logs {es : List Ref} {pos total : Nat} (hs : Log s s₁ f) :
    LoggedInside Log s (deriveSequence drec es pos total f) (Sequence.feed rec es pos total s₁) := by
  induction es generalizing pos total s₁ f with
  | nil =>
    refine ⟨s₁, f, rfl, hs, ?_⟩
    intro m hm
    cases hm
    rfl
  | cons e es ih =>
    have he := hrec e pos s₁ (hctx.good hs)
    rw [deriveSequence, Sequence.feed]
    cases hd : drec e pos with
    | error g =>
      rw [hd] at he
      rw [show rec e pos s₁ = .error g from he]
      rfl
    | ok d =>
      rw [hd] at he
      obtain ⟨s₂, hx, hlog⟩ := he
      rw [hx]
      cases d with
      | none => exact ⟨s₂, f ++ .nil, rfl, hctx.trans hs hlog, by simp⟩
      | some d => exact ih (hctx.trans hs hlog)

include hctx hrec in
theorem Loop.feed_logs (element : Ref) (min max : Int) {fuel count pos total : Nat}
    (hs : Log s s₁ f) :
    LoggedInside Log s (deriveLoop input drec element min max fuel count pos total f)
      (Loop.feed input rec element min max fuel count pos total s₁) := by
  have hend : ∀ {count total : Nat} {s₁ : σ} {f : Forest}, Log s s₁ f →
      LoggedInside Log s (.ok (loopResult min count total f))
        (.ok (Loop.result min count total, s₁)) := by
    intro count total s₁ f hs
    refine ⟨s₁, f, by rw [lengthOf_loopResult], hs, ?_⟩
    intro m hm
    rw [loopResult, Option.map_eq_some_iff] at hm
    obtain ⟨k, -, rfl⟩ := hm
    rfl
  induction fuel generalizing count pos total s₁ f with
  | zero => rfl
  | succ fuel ih =>
    rw [deriveLoop, Loop.feed]
    split
    · exact hend hs
    · cases hc : charAt input pos with
      | error e => rfl
      | ok c =>
        simp only [ok_bind]
        split
        · exact hend hs
        · have he := hrec element pos s₁ (hctx.good hs)
          cases hd : drec element pos with
          | error g =>
            rw [hd] at he
            rw [show rec element pos s₁ = .error g from he]
            rfl
          | ok d =>
            rw [hd] at he
            obtain ⟨s₂, hx, hlog⟩ := he
            rw [hx]
            cases d with
            | none =>
              have hsame := hctx.trans hs hlog
              rw [show forestOf none = .nil from rfl, Forest.append_nil] at hsame
              exact hend hsame
            | some d => exact ih (hctx.trans hs hlog)

include hctx in
theorem leaf_logs (m : Except Fault (Option Nat)) (hs : Good s) :
    LoggedInside Log s (deriveLeaf m) (leaf m s) := by
  cases m with
  | error e => rfl
  | ok m =>
    refine ⟨s, .nil, ?_, hctx.refl hs, ?_⟩
    · cases m <;> rfl
    · intro d hd
      rw [Option.map_eq_some_iff] at hd
      obtain ⟨k, -, rfl⟩ := hd
      rfl

include hrec in
theorem logged_inside (e : Ref) (pos : Nat) (hs : Good s) :
    LoggedInside Log s (drec e pos) (rec e pos s) := by
  have he := hrec e pos s hs
  cases hd : drec e pos with
  | error g =>
    rw [hd] at he
    exact he
  | ok d =>
    rw [hd] at he
    obtain ⟨s₂, hx, hlog⟩ := he
    refine ⟨s₂, forestOf d, hx, hlog, ?_⟩
    intro m hm
    rw [hm]
    rfl

include hctx hrec in
/-- Each class of recognizer logs what is derived below it. -/
theorem feedNode_logs (hempty : ∀ e pos, Unmatched (drec e pos)) (fuel pos : Nat) (hs : Good s)
    (node : Node) : LoggedInside Log s (deriveNode input drec fuel pos node)
      (feedNode ctx input rec fuel pos s node) := by
  cases node with
  | char toRecognize caseSensitive => exact leaf_logs hctx _ hs
  | charRange first last => exact leaf_logs hctx _ hs
  | literal text => exact leaf_logs hctx _ hs
  | selector exclusiveClass es isExclusive =>
    rw [deriveNode, feedNode]
    split
    · exact feedExclusive_logs hctx hempty hrec pos (hctx.refl hs)
    · exact feed_logs hctx hrec pos es hs
  | sequence es => exact Sequence.feed_logs hctx hrec (hctx.refl hs)
  | loop element min max => exact Loop.feed_logs hctx hrec element min max (hctx.refl hs)
  | recognizerPointer pointed =>
    cases pointed with
    | none => rfl
    | some r => exact logged_inside hrec r pos hs
  | recognizerAlias pointed =>
    cases pointed with
    | none => rfl
    | some r => exact logged_inside hrec r pos hs

end Logs

/-- An empty match and a failure leave no node. -/
theorem derive_unmatched (input : Bytes) (h : Heap) (fuel : Nat) (e : Ref) (pos : Nat) :
    Unmatched (derive input h fuel e pos) := by
  intro d hd hm
  cases fuel with
  | zero => cases hd
  | succ fuel =>
    rw [derive] at hd
    split at hd
    · cases hd
    · rw [bind_eq_ok] at hd
      obtain ⟨d₀, -, hd⟩ := hd
      cases d₀ with
      | none =>
        cases hd
        rfl
      | some m =>
        cases hd
        have hz : m.1 = 0 := by simpa [matchedSome, lengthOf, withNode] using hm
        simp [forestOf, withNode, hz]

/-- Feeding with a context that logs returns the length that is derived, faults where the
derivation faults, and leaves the log of the derivation. -/
theorem feed_logs {σ L B : Type} {ctx : ParserContextBase σ L B} {input : Bytes}
    {Good : σ → Prop} {Log : σ → σ → Forest → Prop} {Branched : σ → B → σ → Forest → Prop}
    (hctx : Follows ctx input Good Log Branched) (h : Heap) (fuel : Nat) (r : Ref) (pos : Nat)
    {s : σ} (hs : Good s) :
    Logged Log s (derive input h fuel r pos) (feed ctx input h fuel r pos s) := by
  induction fuel generalizing r pos s with
  | zero => rfl
  | succ fuel ih =>
    rw [derive, feed]
    cases hr : h[r]? with
    | none => rfl
    | some recognizer =>
      obtain ⟨l, s₁, hbegin, hs₁, hend⟩ := hctx.parse r hs
      have hnode := feedNode_logs hctx (fun e pos s hs => ih e pos hs)
        (derive_unmatched input h fuel) fuel pos hs₁ recognizer.node
      simp only [hbegin, ok_bind]
      cases hd : deriveNode input (derive input h fuel) fuel pos recognizer.node with
      | error e =>
        rw [hd] at hnode
        rw [show feedNode ctx input (feed ctx input h fuel) fuel pos s₁ recognizer.node = .error e
          from hnode]
        rfl
      | ok d =>
        rw [hd] at hnode
        obtain ⟨s₂, f, hx, hlog, hf⟩ := hnode
        obtain ⟨hmatch, hfail⟩ := hend s₂ f hlog pos
        simp only [hx, ok_bind]
        cases hm : matchedSome (lengthOf d) with
        | false =>
          obtain ⟨s₃, hx₃, hs₃⟩ := hfail _ hm
          have hnil : forestOf (withNode r pos d) = .nil := by
            cases d with
            | none => rfl
            | some m =>
              have hz : m.1 = 0 := by simpa [matchedSome, lengthOf] using hm
              simp [forestOf, withNode, hz]
          simp only [hx₃, ok_bind]
          exact ⟨s₃, by simp, by rw [hnil]; exact hs₃⟩
        | true =>
          cases d with
          | none => cases hm
          | some m =>
            have hpos : 0 < m.1 := by simpa [matchedSome, lengthOf] using hm
            obtain ⟨s₃, hx₃, hs₃⟩ := hmatch m.1 hpos
            simp only [show lengthOf (some m) = some m.1 from rfl, hx₃, ok_bind]
            refine ⟨s₃, by simp [lengthOf, withNode], ?_⟩
            simpa [forestOf, withNode, Nat.ne_of_gt hpos, hf m rfl] using hs₃

/-! ## No context -/

theorem nullContext_follows (input : Bytes) :
    Follows nullContext input (fun _ => True) (fun _ _ _ => True) (fun _ _ _ _ => True) where
  refl _ := trivial
  good _ := trivial
  trans _ _ := trivial
  parse _ _ := by
    refine ⟨(), (), rfl, trivial, ?_⟩
    intro s₂ f _ pos
    exact ⟨fun len _ => ⟨(), rfl, trivial⟩, fun m _ => ⟨(), rfl, trivial⟩⟩
  branch _ := ⟨(), (), rfl, trivial⟩
  branched_good _ := trivial
  branched_trans _ _ := trivial
  remove _ := ⟨(), rfl, trivial⟩
  drop _ _ := ⟨(), rfl, trivial⟩
  merge _ := ⟨(), rfl, trivial⟩

/-- Feeding without a context returns the length that is derived, and nothing else. -/
theorem feed_nullContext (input : Bytes) (h : Heap) (fuel : Nat) (r : Ref) (pos : Nat) :
    feed nullContext input h fuel r pos () =
      (derive input h fuel r pos).map fun d => (lengthOf d, ()) := by
  have hlog := feed_logs (nullContext_follows input) h fuel r pos (s := ()) trivial
  cases hd : derive input h fuel r pos with
  | error e =>
    rw [hd] at hlog
    exact hlog
  | ok d =>
    rw [hd] at hlog
    obtain ⟨s', hx, -⟩ := hlog
    exact hx

/-- A length is returned exactly when a derivation of that length is found. -/
theorem feeds_iff {h : Heap} {input : Bytes} {r : Ref} {pos : Nat} {m : Option Nat} :
    Feeds h input r pos m ↔ ∃ fuel d, derive input h fuel r pos = .ok d ∧ lengthOf d = m := by
  apply exists_congr
  intro fuel
  rw [feed_nullContext]
  cases derive input h fuel r pos with
  | error e => simp [Except.map]
  | ok d => simp [Except.map]

/-- Feeding returns one length at most. -/
theorem Feeds.unique {h : Heap} {input : Bytes} {r : Ref} {pos : Nat} {m m' : Option Nat}
    (hm : Feeds h input r pos m) (hm' : Feeds h input r pos m') : m = m' := by
  obtain ⟨fuel, hm⟩ := hm
  obtain ⟨fuel', hm'⟩ := hm'
  have hboth := (feed_growing nullContext input h r pos ()).unique hm hm'
  exact congrArg Prod.fst hboth

end GrooveIp.Belr
