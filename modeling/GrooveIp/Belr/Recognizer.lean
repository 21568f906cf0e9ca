import GrooveIp.Lib.Fuelled

/-!
# Recognizers

The recognizers of belr, `src/submodules/belr/src/belr.cpp`. A grammar is a graph: rules refer to
each other through shared pointers, so recognizers live in a heap and name each other by
reference. `feed` is run with fuel, because nothing in the code bounds its recursion; it is
written once for every parser context, as the virtual methods of `ParserContextBase` are all it
calls, and the null context is the one whose methods do nothing.
-/

namespace GrooveIp.Belr

open Lib

/-- The bytes of a `std::string`. -/
abbrev Bytes := List UInt8

/-- A `shared_ptr<Recognizer>` that is not null. -/
abbrev Ref := Nat

/-- `input[pos]` of a constant string: the byte, or NUL at the end; belr.cpp:258. -/
def charAt (input : Bytes) (pos : Nat) : Except Fault UInt8 :=
  if pos < input.length then .ok (input.getD pos 0)
  else if pos = input.length then .ok 0
  else .error .outOfBounds

/-- `::tolower` in the C locale. -/
def lowerInt (c : Int) : Int := if 65 ≤ c ∧ c ≤ 90 then c + 32 else c

/-- `::toupper` in the C locale. -/
def upperInt (c : Int) : Int := if 97 ≤ c ∧ c ≤ 122 then c - 32 else c

/-- `::tolower` of a byte. -/
def lowerByte (b : UInt8) : UInt8 := if 65 ≤ b ∧ b ≤ 90 then b + 32 else b

/-- `belr::tolower`; belr.cpp:809. -/
def tolower (s : Bytes) : Bytes := s.map lowerByte

/-- The classes derived from `Recognizer`, each with the members its methods read; belr.h:126. -/
inductive Node where
  | char (toRecognize : Int) (caseSensitive : Bool)
  | selector (exclusiveClass : Bool) (elements : List Ref) (isExclusive : Bool)
  | sequence (elements : List Ref)
  | loop (element : Ref) (min max : Int)
  | charRange (first last : Int)
  | literal (text : Bytes)
  | recognizerPointer (pointed : Option Ref)
  | recognizerAlias (pointed : Option Ref)
  deriving DecidableEq, Repr

/-- `CharRecognizer::CharRecognizer` (belr.cpp:248): a character with case is compared in lower case
unless case is minded. -/
def Foundation.charRecognizer (toRecognize : Int) (caseSensitive : Bool) : Node :=
  if lowerInt toRecognize = upperInt toRecognize then .char toRecognize true
  else if caseSensitive then .char toRecognize true
  else .char (lowerInt toRecognize) false

/-- `Foundation::selector`; belr.cpp:522. -/
def Foundation.selector (isExclusive : Bool) (elements : List Ref) : Node :=
  .selector isExclusive elements isExclusive

/-- `Literal::Literal`; belr.cpp:534. -/
def Utils.literal (text : Bytes) : Node := .literal (tolower text)

/-- A `Recognizer`: its name and its id, which is zero until it is named, with its class. -/
structure Recognizer where
  name : Bytes
  id : Nat
  node : Node
  deriving DecidableEq, Repr

/-- The recognizers that exist, by reference. -/
abbrev Heap := List Recognizer

/-- `getId`. -/
def Heap.id (h : Heap) (r : Ref) : Nat := (h[r]?.map Recognizer.id).getD 0

/-- The virtual methods of `ParserContextBase` (parser.h:203) over their state. `Local` is the
`ParserLocalContext` of `beginParse`, `Branch` what `branch` returns. -/
structure ParserContextBase (σ Local Branch : Type) where
  beginParse : Ref → σ → Except Fault (Local × σ)
  endParse : Local → Bytes → Nat → Option Nat → σ → Except Fault σ
  branch : σ → Except Fault (Branch × σ)
  merge : Branch → σ → Except Fault σ
  removeBranch : Branch → σ → Except Fault σ

/-- The context that is a null pointer: every method call is skipped. -/
def nullContext : ParserContextBase Unit Unit Unit where
  beginParse _ _ := .ok ((), ())
  endParse _ _ _ _ _ := .ok ()
  branch _ := .ok ((), ())
  merge _ _ := .ok ()
  removeBranch _ _ := .ok ()

/-- What feeding a recognizer at a position does: it returns a length, or `none` for `npos`. -/
abbrev Feeder (σ : Type) := Ref → Nat → σ → Except Fault (Option Nat × σ)

/-- `matched!=string::npos && matched>0`. -/
def matchedSome : Option Nat → Bool
  | none => false
  | some m => decide (0 < m)

/-- `CharRecognizer::_feed`; belr.cpp:257. -/
def CharRecognizer.feed (toRecognize : Int) (caseSensitive : Bool) (input : Bytes) (pos : Nat) :
    Except Fault (Option Nat) := do
  let b ← charAt input pos
  let c : Int := b.toNat
  if caseSensitive then .ok (if c = toRecognize then some 1 else none)
  else .ok (if lowerInt c = toRecognize then some 1 else none)

/-- `CharRange::_feed`; belr.cpp:484. -/
def CharRange.feed (first last : Int) (input : Bytes) (pos : Nat) : Except Fault (Option Nat) := do
  let b ← charAt input pos
  let c : Int := b.toNat
  .ok (if first ≤ c ∧ c ≤ last then some 1 else none)

/-- The loop of `Literal::_feed` (belr.cpp:541): whether the bytes from a position on are those of
the literal, read as far as they agree. -/
def Literal.agrees (input : Bytes) : Bytes → Nat → Except Fault Bool
  | [], _ => .ok true
  | b :: text, pos => do
    let c ← charAt input pos
    if lowerByte c ≠ b then .ok false else Literal.agrees input text (pos + 1)

/-- `Literal::_feed`; belr.cpp:538. -/
def Literal.feed (text : Bytes) (input : Bytes) (pos : Nat) : Except Fault (Option Nat) := do
  let same ← Literal.agrees input text pos
  .ok (if same then some text.length else none)

section Feed

variable {σ L B : Type} (ctx : ParserContextBase σ L B) (input : Bytes)

/-- `Selector::_feedExclusive`: the first element to match something; belr.cpp:280. -/
def Selector.feedExclusive (rec : Feeder σ) (pos : Nat) :
    List Ref → σ → Except Fault (Option Nat × σ)
  | [], s => .ok (none, s)
  | e :: es, s => do
    let f ← rec e pos s
    if matchedSome f.1 then .ok f else Selector.feedExclusive rec pos es f.2

/-- `matched!=string::npos && matched>bestmatch`, for the best match so far and its branch. -/
def Selector.better (m : Option Nat) (best : Option (Nat × B)) : Bool :=
  match m, best with
  | none, _ => false
  | some m, none => decide (0 < m)
  | some m, some b => decide (b.1 < m)

/-- `if (bestBranch) ctx->removeBranch(bestBranch)`; belr.cpp:305. -/
def Selector.dropBest (best : Option (Nat × B)) (s : σ) : Except Fault σ :=
  match best with
  | none => .ok s
  | some b => ctx.removeBranch b.2 s

/-- The loop of `Selector::_feed` (belr.cpp:299): each element in a branch of its own, the longest
match kept. `best` is `bestmatch` with `bestBranch`, absent while it is zero. -/
def Selector.feedAll (rec : Feeder σ) (pos : Nat) :
    List Ref → Option (Nat × B) → σ → Except Fault (Option (Nat × B) × σ)
  | [], best, s => .ok (best, s)
  | e :: es, best, s => do
    let b ← ctx.branch s
    let f ← rec e pos b.2
    if Selector.better f.1 best then
      let s' ← Selector.dropBest ctx best f.2
      Selector.feedAll rec pos es (some (f.1.getD 0, b.1)) s'
    else
      let s' ← ctx.removeBranch b.1 f.2
      Selector.feedAll rec pos es best s'

/-- The end of `Selector::_feed`; belr.cpp:312. -/
def Selector.finish (best : Option (Nat × B)) (s : σ) : Except Fault (Option Nat × σ) :=
  match best with
  | none => .ok (none, s)
  | some b => do
    let s' ← ctx.merge b.2 s
    .ok (some b.1, s')

/-- `Selector::_feed` of a selector that is not exclusive; belr.cpp:292. -/
def Selector.feed (rec : Feeder σ) (pos : Nat) (es : List Ref) (s : σ) :
    Except Fault (Option Nat × σ) := do
  let f ← Selector.feedAll ctx rec pos es none s
  Selector.finish ctx f.1 f.2

/-- `Sequence::_feed`, from the element that is next; belr.cpp:397. -/
def Sequence.feed (rec : Feeder σ) : List Ref → Nat → Nat → σ → Except Fault (Option Nat × σ)
  | [], _, total, s => .ok (some total, s)
  | e :: es, pos, total, s => do
    let f ← rec e pos s
    match f.1 with
    | none => .ok (none, f.2)
    | some m => Sequence.feed rec es (pos + m) (total + m) f.2

/-- `if (repeat<mMin) return string::npos; return total`; belr.cpp:455. -/
def Loop.result (min : Int) (count total : Nat) : Option Nat :=
  if (count : Int) < min then none else some total

/-- `Loop::_feed`, from the round that is next, with fuel for the rounds; belr.cpp:444. -/
def Loop.feed (rec : Feeder σ) (element : Ref) (min max : Int) :
    Nat → Nat → Nat → Nat → σ → Except Fault (Option Nat × σ)
  | 0, _, _, _, _ => .error .diverged
  | fuel + 1, count, pos, total, s =>
    if max ≠ -1 ∧ max ≤ count then .ok (Loop.result min count total, s)
    else do
      let c ← charAt input pos
      if c = 0 then .ok (Loop.result min count total, s)
      else
        let f ← rec element pos s
        match f.1 with
        | none => .ok (Loop.result min count total, f.2)
        | some m => Loop.feed rec element min max fuel (count + 1) (pos + m) (total + m) f.2

/-- A recognizer that does not use the context. -/
def leaf (m : Except Fault (Option Nat)) (s : σ) : Except Fault (Option Nat × σ) := do
  let m ← m
  .ok (m, s)

/-- `_feed`, by the class of the recognizer. A pointer that is not set is fatal; belr.cpp:567. -/
def feedNode (rec : Feeder σ) (fuel pos : Nat) (s : σ) : Node → Except Fault (Option Nat × σ)
  | .char toRecognize caseSensitive => leaf (CharRecognizer.feed toRecognize caseSensitive input pos) s
  | .selector exclusiveClass es isExclusive =>
    if exclusiveClass ∨ isExclusive then Selector.feedExclusive rec pos es s
    else Selector.feed ctx rec pos es s
  | .sequence es => Sequence.feed rec es pos 0 s
  | .loop element min max => Loop.feed input rec element min max fuel 0 pos 0 s
  | .charRange first last => leaf (CharRange.feed first last input pos) s
  | .literal text => leaf (Literal.feed text input pos) s
  | .recognizerPointer pointed | .recognizerAlias pointed =>
    match pointed with
    | none => .error .abort
    | some r => rec r pos s

/-- `Recognizer::feed`; belr.cpp:172. -/
def feed (h : Heap) : Nat → Feeder σ
  | 0, _, _, _ => .error .diverged
  | fuel + 1, r, pos, s =>
    match h[r]? with
    | none => .error .nullDereference
    | some recognizer => do
      let l ← ctx.beginParse r s
      let f ← feedNode ctx input (feed h fuel) fuel pos l.2 recognizer.node
      let s' ← ctx.endParse l.1 input pos f.1 f.2
      .ok (f.1, s')

end Feed

/-- Feeding without a context returns a length: with enough fuel, `feed(nullptr, input, pos)`. -/
def Feeds (h : Heap) (input : Bytes) (r : Ref) (pos : Nat) (m : Option Nat) : Prop :=
  ∃ fuel, feed nullContext input h fuel r pos () = .ok (m, ())

end GrooveIp.Belr
