import GrooveIp.Lib.Scanf
import GrooveIp.Belr.Derivation
import GrooveIp.Belr.Grammar

/-!
# The parser context

`ParserContext` and the handlers of a `Parser`, `src/submodules/belr/include/belr/parser.h`. While
a rule is recognized, collected sub-rules are noted as assignments in the context of the handler
they are under. Contexts are branched, merged, undone and given back to the one-slot cache of
their handler; when recognition is over the root context is realized: the objects are made and the
collectors called.
-/

namespace GrooveIp.Belr

open Lib

/-- What a collector takes (parser.h:55): the matched text or its `atoi` (`ParserCollector`), or the
object of the sub-rule (`ParserChildCollector`). -/
inductive CollectorKind where
  | text
  | number
  | child
  deriving DecidableEq, Repr

/-- A collector: its kind and the function it calls, by a number. -/
structure Collector where
  kind : CollectorKind
  fn : Nat
  deriving DecidableEq, Repr

/-- A `ParserHandler`; `debug` when it was given a function that takes the rule name and the
text, and the collectors by rule id; parser.h:122. -/
structure Handler where
  rulename : Bytes
  debug : Bool
  collectors : Nat → Option Collector

/-- `Parser`: its grammar, and `mHandlers` by rule id; parser.h:268. -/
structure Parser where
  grammar : Grammar
  handlers : Nat → Option Handler

/-- A pointer to a `HandlerContext`. -/
abbrev CtxRef := Nat

/-- `Assignment`; parser.h:152. -/
structure Assignment where
  collector : Collector
  pos : Nat
  count : Nat
  child : Option CtxRef
  deriving DecidableEq, Repr

/-- `HandlerContext`; the handler is named by the rule id it is installed for; parser.h:172. -/
structure HandlerContext where
  handler : Nat
  assignments : List Assignment
  deriving DecidableEq, Repr

/-- The contexts allocated so far, `mCachedContext` of each handler, and of the parse at hand
`mHandlerStack`, its back first, and `mRoot`. -/
structure ParseState where
  contexts : CtxRef → HandlerContext
  allocated : Nat
  cached : Nat → Option CtxRef
  stack : List CtxRef
  root : Option CtxRef

/-- A parser that has not parsed yet. -/
def ParseState.initial : ParseState :=
  { contexts := fun _ => ⟨0, []⟩, allocated := 0, cached := fun _ => none, stack := [], root := none }

/-- `ParserLocalContext`; parser.h:192. -/
structure ParserLocalContext where
  handlerContext : Option CtxRef
  recognizer : Ref
  assignmentPos : Nat
  deriving DecidableEq, Repr

namespace ParseState

variable (s : ParseState)

/-- Replace the assignments of a context. -/
def setAssignments (c : CtxRef) (as : List Assignment) : ParseState :=
  let contexts := fun d => if d = c then { s.contexts c with assignments := as } else s.contexts d
  { s with contexts }

/-- `ParserHandlerBase::createContext`, pushed on the stack as all its callers do; parser.h:501. -/
def pushContext (h : Nat) : CtxRef × ParseState :=
  match s.cached h with
  | some c =>
    (c, { s with cached := fun k => if k = h then none else s.cached k, stack := c :: s.stack })
  | none =>
    let contexts := fun d => if d = s.allocated then ⟨h, []⟩ else s.contexts d
    (s.allocated, { s with contexts, allocated := s.allocated + 1, stack := s.allocated :: s.stack })

/-- `HandlerContext::recycle`; parser.h:461. -/
def recycle (c : CtxRef) : ParseState :=
  let h := (s.contexts c).handler
  { s.setAssignments c [] with cached := fun k => if k = h then some c else s.cached k }

end ParseState

/-- `getCollector` of the handler of a rule id; parser.h:489. -/
def Parser.getCollector (p : Parser) (h id : Nat) : Option Collector :=
  (p.handlers h).bind fun handler => handler.collectors id

/-- `HandlerContext::setChild`: what is added for a sub-rule; parser.h:423. -/
def Parser.childAssignments (p : Parser) (h id pos count : Nat) (child : Option CtxRef) :
    List Assignment :=
  ((p.getCollector h id).map fun c => ⟨c, pos, count, child⟩).toList

/-- `HandlerContext::setChild`; parser.h:423. -/
def Parser.setChild (p : Parser) (c : CtxRef) (id pos count : Nat) (child : Option CtxRef)
    (s : ParseState) : ParseState :=
  s.setAssignments c ((s.contexts c).assignments ++
    p.childAssignments (s.contexts c).handler id pos count child)

namespace ParserContext

variable (p : Parser)

/-- `_beginParse`; parser.h:532. -/
def beginParse (r : Ref) (s : ParseState) : Except Fault (ParserLocalContext × ParseState) :=
  match p.handlers (p.grammar.heap.id r) with
  | some _ =>
    let created := s.pushContext (p.grammar.heap.id r)
    .ok (⟨some created.1, r, (created.2.contexts created.1).assignments.length⟩, created.2)
  | none =>
    match s.stack with
    | [] => .error .abort
    | top :: _ => .ok (⟨none, r, (s.contexts top).assignments.length⟩, s)

/-- The end of a recognizer with a handler; parser.h:548. -/
def endHandled (r : Ref) (c : CtxRef) (pos : Nat) (count : Option Nat) (s : ParseState) :
    Except Fault ParseState :=
  match s.stack with
  | [] => .error .nullDereference
  | _ :: rest =>
    let popped := { s with stack := rest }
    if matchedSome count then
      match rest with
      | [] => .ok { popped with root := some c }
      | top :: _ =>
        .ok (p.setChild top (p.grammar.heap.id r) pos (count.getD 0) (some c) popped)
    else .ok (popped.recycle c)

/-- The end of a recognizer without a handler; parser.h:563. -/
def endUnhandled (r : Ref) (assignmentPos pos : Nat) (count : Option Nat) (s : ParseState) :
    Except Fault ParseState :=
  match s.stack with
  | [] => .error .nullDereference
  | top :: _ =>
    if matchedSome count then
      if p.grammar.heap.id r ≠ 0 then
        .ok (p.setChild top (p.grammar.heap.id r) pos (count.getD 0) none s)
      else .ok s
    else .ok (s.setAssignments top ((s.contexts top).assignments.take assignmentPos))

/-- `_endParse`; parser.h:546. -/
def endParse (l : ParserLocalContext) (_input : Bytes) (pos : Nat) (count : Option Nat)
    (s : ParseState) : Except Fault ParseState :=
  match l.handlerContext with
  | some c => endHandled p l.recognizer c pos count s
  | none => endUnhandled p l.recognizer l.assignmentPos pos count s

/-- `_branch`; parser.h:581. -/
def branch (s : ParseState) : Except Fault (CtxRef × ParseState) :=
  match s.stack with
  | [] => .error .abort
  | top :: _ => .ok (s.pushContext (s.contexts top).handler)

/-- `_merge`; parser.h:591. -/
def merge (other : CtxRef) (s : ParseState) : Except Fault ParseState :=
  match s.stack with
  | [] => .error .nullDereference
  | back :: rest =>
    if back ≠ other then .error .abort
    else
      match rest with
      | [] => .error .nullDereference
      | top :: _ =>
        let popped := { s with stack := rest }
        let merged := popped.setAssignments top
          ((s.contexts top).assignments ++ (s.contexts other).assignments)
        .ok (merged.recycle other)

/-- `_removeBranch`; parser.h:601. -/
def removeBranch (other : CtxRef) (s : ParseState) : Except Fault ParseState :=
  if other ∈ s.stack then .ok ({ s with stack := s.stack.erase other }.recycle other)
  else .error .abort

/-- `ParserContext` as a context of the recognizers. -/
def methods : ParserContextBase ParseState ParserLocalContext CtxRef where
  beginParse := beginParse p
  endParse := endParse p
  branch := branch
  merge := merge
  removeBranch := removeBranch

end ParserContext

/-- The collector calls of an object in order: a text, a number, or an object with its rule name,
its text and its calls. -/
inductive Calls where
  | nil
  | text (fn : Nat) (value : Bytes) (rest : Calls)
  | number (fn : Nat) (value : Int) (rest : Calls)
  | child (fn : Nat) (rulename : Bytes) (value : Option Bytes) (calls rest : Calls)
  deriving DecidableEq, Repr

namespace Calls

/-- One run of calls after another. -/
def append : Calls → Calls → Calls
  | nil, d => d
  | text fn value rest, d => text fn value (rest.append d)
  | number fn value rest, d => number fn value (rest.append d)
  | child fn rulename value calls rest, d => child fn rulename value calls (rest.append d)

instance : Append Calls := ⟨append⟩

end Calls

/-- An object a handler made: the rule name and the text its function was given, and the calls
made on it. -/
structure Element where
  rulename : Bytes
  value : Option Bytes
  calls : Calls
  deriving DecidableEq, Repr

/-- `input.substr(begin, count)` for a `begin` that is not past the end. -/
def substr (input : Bytes) (pos count : Nat) : Bytes := (input.drop pos).take count

/-- The text a handler's function is given; parser.h:518. -/
def Handler.value (h : Handler) (input : Bytes) (pos count : Nat) : Option Bytes :=
  if h.debug then some (substr input pos count) else none

/-- The call of a collector with matched text; a collector that takes an object is none of the
types that `Assignment::invoke` tries; parser.h:391. -/
def Collector.textCall (c : Collector) (value : Bytes) : Calls :=
  match c.kind with
  | .text => .text c.fn value .nil
  | .number => .number c.fn (atoi (value.map fun b => Char.ofNat b.toNat)) .nil
  | .child => .nil

/-- The call of a collector with an object; a collector that takes text is never to be called with
one; parser.h:374. -/
def Collector.childCall (c : Collector) (e : Element) : Except Fault Calls :=
  match c.kind with
  | .child => .ok (.child c.fn e.rulename e.value e.calls .nil)
  | .text | .number => .error .abort

/-- `Assignment::invoke`; parser.h:385. -/
def Assignment.invoke (input : Bytes) (realize : CtxRef → Nat → Nat → Except Fault Element)
    (a : Assignment) : Except Fault Calls :=
  match a.child with
  | some c => do
    let e ← realize c a.pos a.count
    a.collector.childCall e
  | none => .ok (a.collector.textCall (substr input a.pos a.count))

/-- The loop of `realize`; parser.h:433. -/
def Assignment.invokeAll (input : Bytes) (realize : CtxRef → Nat → Nat → Except Fault Element) :
    List Assignment → Except Fault Calls
  | [] => .ok .nil
  | a :: as => do
    let call ← a.invoke input realize
    let calls ← Assignment.invokeAll input realize as
    .ok (call ++ calls)

/-- `HandlerContext::realize`, with fuel for the depth; parser.h:431. -/
def Parser.realize (p : Parser) (s : ParseState) (input : Bytes) :
    Nat → CtxRef → Nat → Nat → Except Fault Element
  | 0, _, _, _ => .error .diverged
  | fuel + 1, c, pos, count =>
    match p.handlers (s.contexts c).handler with
    | none => .error .nullDereference
    | some h => do
      let calls ← Assignment.invokeAll input (p.realize s input fuel) (s.contexts c).assignments
      .ok ⟨h.rulename, h.value input pos count, calls⟩

/-- `createRootObject`; parser.h:576. -/
def Parser.createRootObject (p : Parser) (s : ParseState) (input : Bytes) (fuel : Nat) :
    Except Fault (Option Element) :=
  match s.root with
  | none => .ok none
  | some c => do
    let e ← p.realize s input fuel c 0 input.length
    .ok (some e)

/-- What `parseInput` returns: the object, and `parsed_size`. -/
structure Parsed where
  object : Option Element
  parsed : Option Nat
  deriving DecidableEq, Repr

/-- `Parser::parseInput` (parser.h:623) with what earlier parses left. For an unknown rule `getRule`
makes a pointer without a handler. -/
def Parser.parseInput (p : Parser) (rulename input : Bytes) (fuel : Nat) (s : ParseState) :
    Except Fault (Parsed × ParseState) :=
  match p.grammar.getRule rulename with
  | none => .error .abort
  | some r => do
    let f ← feed (ParserContext.methods p) input p.grammar.heap fuel r 0
      { s with stack := [], root := none }
    let object ← p.createRootObject f.2 input fuel
    .ok (⟨object, f.1⟩, f.2)

/-- `setHandler`: a handler without collectors for a rule of the grammar; parser.h:613. -/
def Parser.setHandler (p : Parser) (rulename : Bytes) (debug : Bool) : Except Fault Parser :=
  match p.grammar.findRule rulename with
  | none => .error .abort
  | some r =>
    let id := p.grammar.heap.id r
    let handler : Handler := ⟨tolower rulename, debug, fun _ => none⟩
    let handlers := fun k => if k = id then some handler else p.handlers k
    .ok { p with handlers }

/-- `setCollector` of the handler installed for a rule id; parser.h:477. -/
def Parser.setCollector (p : Parser) (handlerId : Nat) (rulename : Bytes) (c : Collector) :
    Except Fault Parser :=
  match p.grammar.findRule rulename, p.handlers handlerId with
  | some r, some handler =>
    let id := p.grammar.heap.id r
    let handler' := { handler with collectors := fun k => if k = id then some c else handler.collectors k }
    let handlers := fun k => if k = handlerId then some handler' else p.handlers k
    .ok { p with handlers }
  | _, _ => .error .abort

end GrooveIp.Belr
