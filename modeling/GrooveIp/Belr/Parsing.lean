import GrooveIp.Belr.ParseResult

/-!
# The parse result is the winning derivation

`parseInput`, `src/submodules/belr/include/belr/parser.h` lines 623–636, returns the object of the
root rule when that rule has a handler and matches something, and what every object has received
is read off the derivation that was taken. Collectors have to fit for that: one that takes an
object is for a sub-rule with a handler, one that takes text for a sub-rule without.
-/

namespace GrooveIp.Belr

open Lib List ParserContext

/-- What the object of a handler receives from the nodes below, in input order: the object of a
handled node; of another one what is below it, then its own text if it is collected. -/
def Forest.calls (p : Parser) (input : Bytes) : Nat → Forest → Calls
  | _, .nil => .nil
  | h, .cons r pos len kids rest =>
    let id := p.grammar.heap.id r
    let mine : Calls :=
      match p.handlers id, p.getCollector h id with
      | some _, none => .nil
      | some handler, some c =>
        .child c.fn handler.rulename (handler.value input pos len) (Forest.calls p input id kids) .nil
      | none, none => Forest.calls p input h kids
      | none, some c =>
        Forest.calls p input h kids ++ if id ≠ 0 then c.textCall (substr input pos len) else .nil
    mine ++ Forest.calls p input h rest

/-- A node of a derivation with the nodes below it. -/
structure DerivedNode where
  recognizer : Ref
  pos : Nat
  len : Nat
  kids : Forest

/-- The call for a node, if its rule is collected by a handler. -/
def DerivedNode.calls (p : Parser) (input : Bytes) (h : Nat) (n : DerivedNode) : Calls :=
  let id := p.grammar.heap.id n.recognizer
  match p.handlers id, p.getCollector h id with
  | _, none => .nil
  | some handler, some c =>
    .child c.fn handler.rulename (handler.value input n.pos n.len) (n.kids.calls p input id) .nil
  | none, some c => if id ≠ 0 then c.textCall (substr input n.pos n.len) else .nil

/-- Collectors fit: one takes an object exactly if the sub-rule it is for has a handler. -/
def Parser.Fitting (p : Parser) : Prop :=
  ∀ h id c, p.getCollector h id = some c → (c.kind = .child ↔ (p.handlers id).isSome)

namespace Calls

@[simp] theorem append_nil (c : Calls) : c ++ nil = c := by
  induction c with
  | nil => rfl
  | text fn value rest ih => exact congrArg (text fn value) ih
  | number fn value rest ih => exact congrArg (number fn value) ih
  | child fn rulename value calls rest _ ih => exact congrArg (child fn rulename value calls) ih

theorem append_assoc (c d e : Calls) : c ++ d ++ e = c ++ (d ++ e) := by
  induction c with
  | nil => rfl
  | text fn value rest ih => exact congrArg (text fn value) ih
  | number fn value rest ih => exact congrArg (number fn value) ih
  | child fn rulename value calls rest _ ih => exact congrArg (child fn rulename value calls) ih

end Calls

/-- What realizing the assignments of one node does, given what realizing those below it does for
a handler. -/
def Parser.nodeRealized (p : Parser) (input : Bytes) (below : Nat → Except Fault Calls)
    (h id pos len : Nat) : Except Fault Calls :=
  match p.handlers id, p.getCollector h id with
  | some _, none => .ok .nil
  | some handler, some c => do
    let calls ← below id
    c.childCall ⟨handler.rulename, handler.value input pos len, calls⟩
  | none, none => below h
  | none, some c => do
    let calls ← below h
    .ok (calls ++ if id ≠ 0 then c.textCall (substr input pos len) else .nil)

/-- What realizing the assignments of some nodes does: the calls that are made, or the fault of a
collector called with what it does not take. -/
def Forest.realized (p : Parser) (input : Bytes) : Nat → Forest → Except Fault Calls
  | _, .nil => .ok .nil
  | h, .cons r pos len kids rest => do
    let mine ← p.nodeRealized input (fun k => Forest.realized p input k kids) h
      (p.grammar.heap.id r) pos len
    let others ← Forest.realized p input h rest
    .ok (mine ++ others)

variable {p : Parser}

theorem Forest.realized_of_fitting (hfit : p.Fitting) (input : Bytes) (h : Nat)
    (f : Forest) : f.realized p input h = .ok (f.calls p input h) := by
  induction f generalizing h with
  | nil => rfl
  | cons r pos len kids rest ihk ihr =>
    rw [Forest.realized, Forest.calls, Parser.nodeRealized]
    cases hh : p.handlers (p.grammar.heap.id r) with
    | some handler =>
      cases hc : p.getCollector h (p.grammar.heap.id r) with
      | none => simp only [ok_bind, ihr]
      | some c =>
        have hkind : c.kind = .child := (hfit h _ c hc).2 (by simp [hh])
        simp only [ihk, ihr, Collector.childCall, hkind, ok_bind]
    | none =>
      cases hc : p.getCollector h (p.grammar.heap.id r) with
      | none => simp only [ihk, ihr, ok_bind]
      | some c => simp only [ihk, ihr, ok_bind]

section Realize

variable {p : Parser} {s : ParseState} {input : Bytes}

theorem invokeAll_append (realize : CtxRef → Nat → Nat → Except Fault Element)
    (as bs : List Assignment) : Assignment.invokeAll input realize (as ++ bs) = (do
      let c ← Assignment.invokeAll input realize as
      let d ← Assignment.invokeAll input realize bs
      .ok (c ++ d)) := by
  induction as with
  | nil =>
    rw [nil_append, Assignment.invokeAll, ok_bind]
    cases Assignment.invokeAll input realize bs <;> rfl
  | cons a as ih =>
    rw [List.cons_append, Assignment.invokeAll, Assignment.invokeAll, ih]
    cases a.invoke input realize with
    | error e => rfl
    | ok call =>
      cases Assignment.invokeAll input realize as with
      | error e => rfl
      | ok c =>
        cases Assignment.invokeAll input realize bs with
        | error e => rfl
        | ok d => simp only [ok_bind, Calls.append_assoc]

theorem invokeAll_single (realize : CtxRef → Nat → Nat → Except Fault Element) (a : Assignment) :
    Assignment.invokeAll input realize [a] = a.invoke input realize := by
  rw [Assignment.invokeAll]
  cases a.invoke input realize with
  | error e => rfl
  | ok c => simp only [Assignment.invokeAll, ok_bind, Calls.append_nil]

/-- Assignments that hold some nodes are realized as these nodes are, with fuel for their depth. -/
theorem Holds.invokeAll (input : Bytes) {f : Forest} {h : Nat} {as : List Assignment}
    (hf : Holds p s h f as) : ∃ n, ∀ fuel, n ≤ fuel →
      Assignment.invokeAll input (p.realize s input fuel) as = f.realized p input h := by
  induction f generalizing h as with
  | nil =>
    rw [show as = [] from hf]
    exact ⟨0, fun _ _ => rfl⟩
  | cons r pos len kids rest ihk ihr =>
    obtain ⟨mine, others, rfl, hrest, hmine⟩ := hf
    obtain ⟨n₁, hn₁⟩ := ihr hrest
    suffices hm : ∃ n, ∀ fuel, n ≤ fuel → Assignment.invokeAll input (p.realize s input fuel) mine =
          p.nodeRealized input (fun k => Forest.realized p input k kids) h
            (p.grammar.heap.id r) pos len by
      obtain ⟨n₂, hn₂⟩ := hm
      refine ⟨max n₁ n₂, ?_⟩
      intro fuel hfuel
      rw [invokeAll_append, hn₁ fuel (by omega), hn₂ fuel (by omega)]
      rfl
    rw [Parser.nodeRealized]
    cases hh : p.handlers (p.grammar.heap.id r) with
    | some handler =>
      simp only [hh] at hmine
      cases hc : p.getCollector h (p.grammar.heap.id r) with
      | none =>
        simp only [hc] at hmine
        rw [hmine]
        exact ⟨0, fun _ _ => rfl⟩
      | some c =>
        simp only [hc] at hmine
        obtain ⟨k, rfl, -, hid, hkids⟩ := hmine
        obtain ⟨n, hn⟩ := ihk hkids
        refine ⟨n + 1, ?_⟩
        intro fuel hfuel
        cases fuel with
        | zero => omega
        | succ fuel =>
          rw [invokeAll_single]
          simp only [Assignment.invoke, Parser.realize, hid, hh, hn fuel (by omega)]
          cases Forest.realized p input (p.grammar.heap.id r) kids <;> rfl
    | none =>
      simp only [hh] at hmine
      obtain ⟨inner, hinner, rfl⟩ := hmine
      obtain ⟨n, hn⟩ := ihk hinner
      refine ⟨n, ?_⟩
      intro fuel hfuel
      rw [invokeAll_append, hn fuel hfuel]
      cases hc : p.getCollector h (p.grammar.heap.id r) with
      | none =>
        have hnone : (if p.grammar.heap.id r ≠ 0 then
            p.childAssignments h (p.grammar.heap.id r) pos len none else []) = [] := by
          simp [Parser.childAssignments, hc]
        rw [hnone]
        cases Forest.realized p input h kids with
        | error e => rfl
        | ok calls => simp only [Assignment.invokeAll, ok_bind, Calls.append_nil]
      | some c =>
        by_cases hid : p.grammar.heap.id r = 0
        · simp [hid, Assignment.invokeAll]
        · simp only [ne_eq, hid, not_false_eq_true, if_true, Parser.childAssignments, hc]
          rw [show (Option.map (fun c => (⟨c, pos, len, none⟩ : Assignment)) (some c)).toList =
            [⟨c, pos, len, none⟩] from rfl, invokeAll_single]
          rfl

end Realize

/-! ## A parse -/

/-- The contexts are in order and none is on the stack. -/
def Idle (s : ParseState) : Prop := Tidy s ∧ s.stack = []

variable {input : Bytes} {s : ParseState}

theorem feed_root_unhandled {r : Ref} (hh : p.handlers (p.grammar.heap.id r) = none)
    (hs : s.stack = []) (fuel pos : Nat) {x : Option Nat × ParseState} :
    feed (methods p) input p.grammar.heap fuel r pos s ≠ .ok x := by
  cases fuel with
  | zero => simp [feed]
  | succ fuel =>
    rw [feed]
    split
    · simp
    · simp [methods, beginParse, hh, hs]

theorem pushContext_good (hs : Tidy s) (h : Nat) : Good (s.pushContext h).2 := by
  obtain ⟨htidy, -, hstack, -⟩ := hs.pushContext h
  refine ⟨htidy, ?_⟩
  rw [hstack]
  exact cons_ne_nil _ _

theorem feed_root_error {r : Ref} {handler : Handler}
    (hh : p.handlers (p.grammar.heap.id r) = some handler) (hs : Idle s) {fuel pos : Nat}
    {e : Fault} (hd : derive input p.grammar.heap fuel r pos = .error e) :
    feed (methods p) input p.grammar.heap fuel r pos s = .error e := by
  cases fuel with
  | zero =>
    cases hd
    rfl
  | succ fuel =>
    rw [derive] at hd
    rw [feed]
    cases hr : p.grammar.heap[r]? with
    | none =>
      rw [hr] at hd
      cases hd
      rfl
    | some recognizer =>
      simp only [hr, bind_eq_error] at hd
      have hnode := feedNode_logs (parserContext_follows p input)
        (fun e pos s hs => feed_logs (parserContext_follows p input) p.grammar.heap fuel e pos hs)
        (derive_unmatched input p.grammar.heap fuel) fuel pos
        (pushContext_good hs.1 (p.grammar.heap.id r)) recognizer.node
      rcases hd with hd | ⟨d, -, hd⟩
      · rw [hd] at hnode
        simp only [methods, beginParse, hh, ok_bind]
        simp only [methods] at hnode
        rw [show feedNode _ _ _ _ _ _ _ = .error e from hnode]
        rfl
      · cases hd

/-- Recognition of the root rule leaves an empty stack, and the assignments of the derivation unless
nothing was matched. -/
theorem feed_root {r : Ref} {handler : Handler}
    (hh : p.handlers (p.grammar.heap.id r) = some handler) (hs : Idle s) (hroot : s.root = none)
    {fuel : Nat} {d : Option (Nat × Forest)} {pos : Nat}
    (hd : derive input p.grammar.heap fuel r pos = .ok d) :
    ∃ s', feed (methods p) input p.grammar.heap fuel r pos s =
        .ok (lengthOf d, s') ∧ Idle s' ∧ (matchedSome (lengthOf d) = false → s'.root = none) ∧
      ∀ len kids, d = some (len, .node r pos len kids) → ∃ c, s'.root = some c ∧
        (s'.contexts c).handler = p.grammar.heap.id r ∧
        Holds p s' (p.grammar.heap.id r) kids (s'.contexts c).assignments := by
  obtain ⟨hs, hempty⟩ := hs
  cases fuel with
  | zero => cases hd
  | succ fuel =>
    rw [derive] at hd
    rw [feed]
    cases hr : p.grammar.heap[r]? with
    | none =>
      rw [hr] at hd
      cases hd
    | some recognizer =>
      simp only [hr, bind_eq_ok] at hd
      obtain ⟨d₀, hd₀, hd⟩ := hd
      cases hd
      obtain ⟨-, -, hstack, hroot₁, hnew, -⟩ := hs.pushContext (p.grammar.heap.id r)
      have hgood := pushContext_good hs (p.grammar.heap.id r)
      have hnode := feedNode_logs (parserContext_follows p input)
        (fun e pos s hs => feed_logs (parserContext_follows p input) p.grammar.heap fuel e pos hs)
        (derive_unmatched input p.grammar.heap fuel) fuel pos hgood recognizer.node
      rw [hd₀] at hnode
      obtain ⟨s₂, f, hx, hlog, hf⟩ := hnode
      simp only [methods, beginParse, hh, ok_bind]
      simp only [methods] at hx
      rw [hx, ok_bind]
      generalize hc : (s.pushContext (p.grammar.heap.id r)).1 = c at *
      obtain ⟨c', rest', as, hst', -, hctx, hholds⟩ := hlog.added
      rw [hstack, hempty] at hst'
      cases hst'
      rw [hnew] at hctx hholds
      have hst₂ : s₂.stack = [c] := by rw [hlog.stack, hstack, hempty]
      simp only [endParse, endHandled, hst₂]
      cases hm : matchedSome (lengthOf d₀) with
      | true =>
        obtain ⟨hpop, -, -⟩ := hlog.tidy.pop hst₂
        refine ⟨{ s₂ with stack := [], root := some c }, by simp [lengthOf_withNode],
          ⟨⟨hpop.nodup, hpop.onStack, hpop.cache, hpop.children⟩, rfl⟩, by simp [hm], ?_⟩
        intro len kids hkids
        refine ⟨c, rfl, ?_, ?_⟩
        · exact congrArg HandlerContext.handler hctx
        · cases d₀ with
          | none => cases hm
          | some m =>
            have hpos : 0 < m.1 := by simpa [matchedSome, lengthOf] using hm
            simp only [withNode, Option.map_some, Nat.ne_of_gt hpos, if_false, Forest.node,
              Option.some.injEq, Prod.mk.injEq, Forest.cons.injEq] at hkids
            obtain ⟨-, -, -, -, rfl, -⟩ := hkids
            rw [← hf m rfl]
            refine Holds.keeps (s := s₂) ?_ (by simpa [hctx] using hholds)
            intro k hk
            refine ⟨⟨hk.1, by simp, hk.2.2⟩, rfl⟩
      | false =>
        have hmem : c ∈ s₂.stack := by simp [hst₂]
        obtain ⟨hdrop, -, -⟩ := hlog.tidy.drop hmem
        have herase : s₂.stack.erase c = [] := by simp [hst₂]
        rw [herase] at hdrop
        refine ⟨_, by simp only [Bool.false_eq_true, if_false, ok_bind, lengthOf_withNode],
          ⟨hdrop, rfl⟩, ?_, ?_⟩
        · intro _
          rw [show (({ s₂ with stack := [] } : ParseState).recycle c).root = s₂.root from rfl,
            hlog.root, hroot₁, hroot]
        · intro len kids hkids
          cases d₀ with
          | none => cases hkids
          | some m =>
            have hz : m.1 = 0 := by simpa [matchedSome, lengthOf] using hm
            simp [withNode, hz, Forest.node] at hkids

theorem Idle.start {s : ParseState} (hs : Idle s) : Idle { s with stack := [], root := none } := by
  refine ⟨⟨nodup_nil, by simp, hs.1.cache, ?_⟩, rfl⟩
  intro c hc a ha k hk
  obtain ⟨hlt, -, hcache⟩ := hs.1.children c hc a ha k hk
  exact ⟨hlt, by simp, hcache⟩

theorem parseInput_idle {rulename : Bytes} {fuel : Nat} {s' : ParseState} {o : Parsed}
    (hs : Idle s) (h : p.parseInput rulename input fuel s = .ok (o, s')) : Idle s' := by
  rw [Parser.parseInput] at h
  cases hr : p.grammar.getRule rulename with
  | none =>
    rw [hr] at h
    cases h
  | some r =>
    simp only [hr, bind_eq_ok] at h
    obtain ⟨f, hf, obj, -, h⟩ := h
    cases h
    cases hh : p.handlers (p.grammar.heap.id r) with
    | none => exact absurd hf (feed_root_unhandled hh rfl fuel 0)
    | some handler =>
      cases hd : derive input p.grammar.heap fuel r 0 with
      | error e =>
        rw [feed_root_error hh hs.start hd] at hf
        cases hf
      | ok d =>
        obtain ⟨s₂, hx, hi, -⟩ := feed_root hh hs.start rfl hd
        rw [hx] at hf
        cases hf
        exact hi

/-- What earlier parses with a parser have left. -/
inductive Parser.Reached (p : Parser) : ParseState → Prop where
  | initial : Reached p .initial
  | parse {s s' : ParseState} {rulename input : Bytes} {fuel : Nat} {o : Parsed} :
    Reached p s → p.parseInput rulename input fuel s = .ok (o, s') → Reached p s'

/-- The contexts are in order whatever was parsed before. -/
theorem Parser.Reached.idle (h : p.Reached s) : Idle s := by
  induction h with
  | initial =>
    refine ⟨⟨nodup_nil, by simp [ParseState.initial], by simp [ParseState.initial], ?_⟩, rfl⟩
    intro c hc
    exact absurd hc (Nat.not_lt_zero c)
  | parse _ h ih => exact parseInput_idle ih h

/-- `parseInput` returns an outcome. -/
def Parser.Parses (p : Parser) (rulename input : Bytes) (s : ParseState) (o : Parsed) : Prop :=
  ∃ n, ∀ fuel, n ≤ fuel → ∃ s', p.parseInput rulename input fuel s = .ok (o, s')

/-- The object of a rule that matched with a derivation. -/
def Parser.object (p : Parser) (input : Bytes) (handler : Handler) (r : Ref) (kids : Forest) :
    Element :=
  ⟨handler.rulename, handler.value input 0 input.length, kids.calls p input (p.grammar.heap.id r)⟩

section Results

variable {p : Parser} {s : ParseState} {rulename input : Bytes} {r : Ref} {handler : Handler}
  {fuel : Nat}

variable {d : Option (Nat × Forest)}

theorem parses_none (hs : Idle s) (hr : p.grammar.getRule rulename = some r)
    (hh : p.handlers (p.grammar.heap.id r) = some handler)
    (hd : derive input p.grammar.heap fuel r 0 = .ok d) (hm : matchedSome (lengthOf d) = false) :
    p.Parses rulename input s ⟨none, lengthOf d⟩ := by
  obtain ⟨s', hx, -, hnone, -⟩ := feed_root hh hs.start rfl hd
  refine ⟨fuel, ?_⟩
  intro n hn
  have hx' := feed_ok_of_le hn hx
  refine ⟨s', ?_⟩
  simp only [Parser.parseInput, hr, hx', ok_bind, Parser.createRootObject, hnone hm]

theorem parseInput_realized (hs : Idle s) (hr : p.grammar.getRule rulename = some r)
    (hh : p.handlers (p.grammar.heap.id r) = some handler) {len : Nat} {kids : Forest}
    (hd : derive input p.grammar.heap fuel r 0 = .ok (some (len, .node r 0 len kids))) :
    ∃ n s', ∀ fuel, n ≤ fuel → p.parseInput rulename input fuel s =
      (kids.realized p input (p.grammar.heap.id r)).map fun calls =>
        (⟨some ⟨handler.rulename, handler.value input 0 input.length, calls⟩, some len⟩, s') := by
  obtain ⟨s', hx, -, -, hsome⟩ := feed_root hh hs.start rfl hd
  obtain ⟨c, hroot, hid, hholds⟩ := hsome len kids rfl
  obtain ⟨k, hk⟩ := hholds.invokeAll input
  refine ⟨max fuel (k + 1), s', ?_⟩
  intro n hn
  have hx' := feed_ok_of_le (Nat.le_trans (Nat.le_max_left fuel (k + 1)) hn) hx
  cases n with
  | zero => omega
  | succ n =>
    simp only [Parser.parseInput, hr, hx', ok_bind, Parser.createRootObject, hroot,
      Parser.realize, hid, hh, hk n (by omega)]
    cases Forest.realized p input (p.grammar.heap.id r) kids <;> rfl

theorem parses_some (hfit : p.Fitting) (hs : Idle s) (hr : p.grammar.getRule rulename = some r)
    (hh : p.handlers (p.grammar.heap.id r) = some handler) {len : Nat} {kids : Forest}
    (hd : derive input p.grammar.heap fuel r 0 = .ok (some (len, .node r 0 len kids))) :
    p.Parses rulename input s ⟨some (p.object input handler r kids), some len⟩ := by
  obtain ⟨n, s', hn⟩ := parseInput_realized hs hr hh hd
  refine ⟨n, ?_⟩
  intro fuel hfuel
  refine ⟨s', ?_⟩
  rw [hn fuel hfuel, Forest.realized_of_fitting hfit]
  rfl

/-- With enough fuel `parseInput` does one thing: it returns or it faults. -/
def Parser.Yields (p : Parser) (rulename input : Bytes) (s : ParseState)
    (x : Except Fault Parsed) : Prop :=
  ∃ n, ∀ fuel, n ≤ fuel → (p.parseInput rulename input fuel s).map Prod.fst = x

theorem Parser.Yields.unique {x y : Except Fault Parsed} (hx : p.Yields rulename input s x)
    (hy : p.Yields rulename input s y) : x = y := by
  obtain ⟨n, hn⟩ := hx
  obtain ⟨k, hk⟩ := hy
  rw [← hn _ (Nat.le_max_left n k), hk _ (by omega)]

/-- What a parse does with a derivation of its root rule, whatever the handlers and collectors. -/
def Parser.outcome (p : Parser) (input : Bytes) (r : Ref) (d : Option (Nat × Forest)) :
    Except Fault Parsed :=
  match p.handlers (p.grammar.heap.id r) with
  | none => .error .abort
  | some handler =>
    match forestOf d with
    | .nil => .ok ⟨none, lengthOf d⟩
    | .cons _ _ _ kids _ =>
      (kids.realized p input (p.grammar.heap.id r)).map fun calls =>
        ⟨some ⟨handler.rulename, handler.value input 0 input.length, calls⟩, lengthOf d⟩

theorem derive_forest {h : Heap} {pos : Nat} (hd : derive input h fuel r pos = .ok d) :
    (matchedSome (lengthOf d) = false ∧ forestOf d = .nil) ∨
      ∃ len kids, d = some (len, .node r pos len kids) := by
  cases fuel with
  | zero => cases hd
  | succ fuel =>
    rw [derive] at hd
    split at hd
    · cases hd
    · rw [bind_eq_ok] at hd
      obtain ⟨d₀, -, hd⟩ := hd
      cases hd
      cases d₀ with
      | none => exact .inl ⟨rfl, rfl⟩
      | some m =>
        by_cases hz : m.1 = 0
        · exact .inl ⟨by simp [withNode, lengthOf, matchedSome, hz],
            by simp [withNode, forestOf, hz]⟩
        · exact .inr ⟨m.1, m.2, by simp [withNode, hz]⟩

/-- A parse does with its derivation what the outcome says. -/
theorem parser_yields (hs : Idle s) (hr : p.grammar.getRule rulename = some r)
    (hd : derive input p.grammar.heap fuel r 0 = .ok d) :
    p.Yields rulename input s (p.outcome input r d) := by
  rw [Parser.outcome]
  cases hh : p.handlers (p.grammar.heap.id r) with
  | none =>
    refine ⟨1, ?_⟩
    intro n hn
    cases n with
    | zero => omega
    | succ n =>
      obtain ⟨recognizer, hget⟩ : ∃ recognizer, p.grammar.heap[r]? = some recognizer := by
        cases fuel with
        | zero => cases hd
        | succ fuel =>
          rw [derive] at hd
          cases hget : p.grammar.heap[r]? with
          | none =>
            rw [hget] at hd
            cases hd
          | some recognizer => exact ⟨recognizer, rfl⟩
      simp [Parser.parseInput, hr, feed, hget, methods, beginParse, hh,
        Except.map]
  | some handler =>
    rcases derive_forest hd with ⟨hm, hnil⟩ | ⟨len, kids, rfl⟩
    · obtain ⟨n, hn⟩ := parses_none hs hr hh hd hm
      refine ⟨n, ?_⟩
      intro fuel hfuel
      obtain ⟨s', hs'⟩ := hn fuel hfuel
      rw [hs', hnil]
      rfl
    · obtain ⟨n, s', hn⟩ := parseInput_realized hs hr hh hd
      refine ⟨n, ?_⟩
      intro fuel hfuel
      rw [hn fuel hfuel]
      simp only [forestOf, Forest.node]
      cases Forest.realized p input (p.grammar.heap.id r) kids <;> rfl

theorem Parser.Parses.handled {o : Parsed} (h : p.Parses rulename input s o) (hs : Idle s)
    (hr : p.grammar.getRule rulename = some r) :
    (p.handlers (p.grammar.heap.id r)).isSome ∧ Feeds p.grammar.heap input r 0 o.parsed ∧
      (o.object.isSome → matchedSome o.parsed) := by
  obtain ⟨n, hn⟩ := h
  obtain ⟨s', h⟩ := hn n (Nat.le_refl n)
  simp only [Parser.parseInput, hr, bind_eq_ok] at h
  obtain ⟨f, hf, obj, hobj, h⟩ := h
  cases h
  cases hh : p.handlers (p.grammar.heap.id r) with
  | none => exact absurd hf (feed_root_unhandled hh rfl n 0)
  | some handler =>
    cases hd : derive input p.grammar.heap n r 0 with
    | error e =>
      rw [feed_root_error hh hs.start hd] at hf
      cases hf
    | ok d =>
      obtain ⟨s₂, hx, -, hnone, -⟩ := feed_root hh hs.start rfl hd
      rw [hx] at hf
      cases hf
      refine ⟨rfl, feeds_iff.2 ⟨n, d, hd, rfl⟩, ?_⟩
      intro hsome
      cases hm : matchedSome (lengthOf d) with
      | true => rfl
      | false =>
        rw [Parser.createRootObject, hnone hm] at hobj
        cases hobj
        cases hsome

end Results

theorem Feeds.derivation {h : Heap} {r : Ref} {pos len : Nat}
    (hf : Feeds h input r pos (some len)) (hlen : 0 < len) :
    ∃ fuel kids, derive input h fuel r pos = .ok (some (len, .node r pos len kids)) := by
  obtain ⟨fuel, d, hd, hm⟩ := feeds_iff.1 hf
  rcases derive_forest hd with ⟨hz, -⟩ | ⟨len', kids, rfl⟩
  · rw [hm] at hz
    simp [matchedSome, Nat.ne_of_gt hlen] at hz
  · cases hm
    exact ⟨fuel, kids, hd⟩

/-- With collectors that fit, a parse whose recognition ends returns an object exactly if the root
rule has a handler and matches something; its objects have received the calls of the nodes below
them. -/
theorem Parser.parseInput_derivation {p : Parser} (hfit : p.Fitting) {s : ParseState}
    (hs : p.Reached s) {rulename input : Bytes} {r : Ref} {m : Option Nat}
    (hr : p.grammar.getRule rulename = some r) (hm : Feeds p.grammar.heap input r 0 m) :
    ((∃ e n, p.Parses rulename input s ⟨some e, n⟩) ↔
      (p.handlers (p.grammar.heap.id r)).isSome ∧ matchedSome m) ∧
    ∀ handler, p.handlers (p.grammar.heap.id r) = some handler → (∀ fuel len kids,
        derive input p.grammar.heap fuel r 0 = .ok (some (len, .node r 0 len kids)) →
        p.Parses rulename input s ⟨some (p.object input handler r kids), some len⟩) ∧
      (matchedSome m = false → p.Parses rulename input s ⟨none, m⟩) := by
  have hidle := hs.idle
  refine ⟨⟨?_, ?_⟩, ?_⟩
  · rintro ⟨e, n, h⟩
    obtain ⟨hhandled, hf, hsome⟩ := h.handled hidle hr
    refine ⟨hhandled, ?_⟩
    rw [hm.unique hf]
    exact hsome rfl
  · rintro ⟨hhandled, hmatch⟩
    obtain ⟨handler, hh⟩ := Option.isSome_iff_exists.1 hhandled
    cases m with
    | none => cases hmatch
    | some len =>
      obtain ⟨fuel, kids, hd⟩ := hm.derivation (by simpa [matchedSome] using hmatch)
      exact ⟨_, _, parses_some hfit hidle hr hh hd⟩
  · intro handler hh
    refine ⟨fun fuel len kids hd => parses_some hfit hidle hr hh hd, ?_⟩
    intro hmatch
    obtain ⟨fuel, d, hd, rfl⟩ := feeds_iff.1 hm
    exact parses_none hidle hr hh hd hmatch

/-- A rule `a` made of a rule `b`, with a handler for `a` that collects `b`. -/
def wordParser (kind : CollectorKind) : Parser where
  grammar := ⟨[⟨[97], 1, .sequence [1]⟩, ⟨[98], 2, .char 98 true⟩], [([97], 0), ([98], 1)]⟩
  handlers k :=
    if k = 1 then some ⟨[97], false, fun k => if k = 2 then some ⟨kind, 7⟩ else none⟩ else none

/-- A collector that takes an object is not called for a sub-rule without a handler: the object
receives nothing. -/
theorem wordParser_not_called : derive [98] (wordParser .child).grammar.heap 3 0 0 =
      .ok (some (1, .node 0 0 1 (.node 1 0 1 .nil))) ∧
    ((wordParser .child).getCollector 1 2).isSome ∧
    ((wordParser .child).parseInput [97] [98] 3 .initial).map Prod.fst =
      .ok ⟨some ⟨[97], none, .nil⟩, some 1⟩ := by
  decide

/-- With a collector that takes text the object receives the matched character. -/
theorem wordParser_called : ∃ e n, (wordParser .text).Parses [97] [98] .initial ⟨some e, n⟩ := by
  refine (Parser.parseInput_derivation (p := wordParser .text) (m := some 1) ?_ .initial
    (r := 0) rfl ⟨3, rfl⟩).1.2 ⟨rfl, rfl⟩
  intro h id c hc
  simp only [Parser.getCollector, wordParser, Option.bind_eq_some_iff] at hc
  obtain ⟨handler, hh, hc⟩ := hc
  split at hh
  · cases hh
    dsimp only at hc
    split at hc
    · next hid =>
      cases hc
      simp [wordParser, hid]
    · cases hc
  · cases hh

/-! ## More than one parse -/

variable {rulename : Bytes} {o : Parsed}

theorem Parser.parses_iff : p.Parses rulename input s o ↔ p.Yields rulename input s (.ok o) := by
  refine exists_congr fun n => forall₂_congr fun fuel _ => ?_
  cases p.parseInput rulename input fuel s <;> simp [Except.map, Prod.ext_iff]

/-- What a parse returns does not depend on the parses before it, whose contexts are used again. -/
theorem Parser.parses_reached {s' : ParseState} (hs : p.Reached s) (hs' : p.Reached s')
    (h : p.Parses rulename input s o) : p.Parses rulename input s' o := by
  cases hr : p.grammar.getRule rulename with
  | none =>
    obtain ⟨n, hn⟩ := h
    obtain ⟨s₁, h⟩ := hn n (Nat.le_refl n)
    simp [Parser.parseInput, hr] at h
  | some r =>
    obtain ⟨fuel, d, hd, -⟩ := feeds_iff.1 (h.handled hs.idle hr).2.1
    rw [Parser.parses_iff] at h ⊢
    rw [h.unique (parser_yields hs.idle hr hd)]
    exact parser_yields hs'.idle hr hd

/-- Also after a parse that returned an object. -/
theorem Parser.parses_reached_word : ∃ o s,
    (wordParser .text).parseInput [97] [98] 3 .initial = .ok (o, s) ∧
      (wordParser .text).Parses [97] [] s ⟨none, none⟩ := by
  have hok : ((wordParser .text).parseInput [97] [98] 3 .initial).isOk = true := by decide
  have hd : derive [] (wordParser .text).grammar.heap 3 0 0 = .ok none := rfl
  cases h : (wordParser .text).parseInput [97] [98] 3 .initial with
  | error e => cases h ▸ hok
  | ok x =>
    exact ⟨x.1, x.2, rfl, Parser.parses_reached .initial (.parse .initial h)
      (parses_none (Parser.Reached.initial (p := wordParser .text)).idle rfl rfl hd rfl)⟩

end GrooveIp.Belr
