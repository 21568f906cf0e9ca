import Mathlib.Data.Fintype.Card
import Mathlib.Data.Fintype.Basic
import Mathlib.Data.List.Basic

/-!
# The media ticker

`run_graphs` of `msticker.c` walks the filter graph depth first from its sources. A filter is
stamped with the number of the tick and called where every filter before it carries the stamp;
where one does not, the filter is put on a list, and what is on the list at the end is walked
again without looking at the stamps.
-/

namespace GrooveIp.Media

/-- A graph of filters: for each pin the filter at the other end of its queue, none where the pin
is not linked. `ms_filter_link` sets both ends of a queue. -/
structure FilterGraph (F : Type) where
  inputs : F → List (Option F)
  outputs : F → List (Option F)
  linked : ∀ f h, some h ∈ outputs f ↔ some f ∈ inputs h

/-- The part of `struct _MSTicker` that schedules, with `last_tick` of every filter. -/
structure Ticker (F : Type) where
  executionList : List F := []
  ticks : BitVec 32 := 1
  lastTick : F → BitVec 32

/-- What one tick works on: the stamps, the calls of `call_process` so far, and the filters put
aside. -/
structure TickState (F : Type) where
  lastTick : F → BitVec 32
  calls : List F := []
  unschedulable : List F := []

variable {F : Type}

/-! ### The source's functions -/

variable (g : FilterGraph F)

/-- `get_sources` (lines 121–131): the filters without input pins. -/
def getSources (filters : List F) : List F :=
  filters.filter fun f => (g.inputs f).length == 0

/-- `filter_can_process` (lines 209–220). -/
def filterCanProcess (tick : BitVec 32) (lastTick : F → BitVec 32) (f : F) : Bool :=
  (g.inputs f).all fun l =>
    match l with
    | some before => lastTick before == tick
    | none => true

section

variable [DecidableEq F]

/-- `ms_ticker_attach_multiple` (lines 137–170) on the filters that were found around the given
ones: each is prepared, which clears its stamp, and the sources are scheduled. -/
def Ticker.attachMultiple (t : Ticker F) (g : FilterGraph F) (filters : List F) : Ticker F :=
  { t with
    executionList := t.executionList ++ getSources g filters
    lastTick := fun f => if f ∈ filters then 0 else t.lastTick f }

/-- The stamp of a filter and its `call_process`. -/
def TickState.call (s : TickState F) (tick : BitVec 32) (f : F) : TickState F :=
  { s with
    lastTick := fun x => if x = f then tick else s.lastTick x
    calls := s.calls ++ [f] }

/-- `run_graph` (lines 238–259), with a bound on the depth of the recursion. -/
def runGraph (g : FilterGraph F) (tick : BitVec 32) (force : Bool) :
    Nat → F → TickState F → Option (TickState F)
  | 0, _, _ => none
  | n + 1, f, s =>
    if s.lastTick f = tick then some s
    else if filterCanProcess g tick s.lastTick f || force then
      (g.outputs f).foldlM (fun s l =>
        match l with
        | some next => runGraph g tick force n next s
        | none => some s) (s.call tick f)
    else some { s with unschedulable := f :: s.unschedulable }

/-- `run_graphs` (lines 261–276), with a bound on both recursions. The list of what was put aside
is local to each turn. -/
def runGraphs (g : FilterGraph F) (tick : BitVec 32) (depth : Nat) :
    Nat → List F → Bool → TickState F → Option (TickState F)
  | 0, _, _, _ => none
  | n + 1, executionList, force, s =>
    (executionList.foldlM (fun s f => runGraph g tick force depth f s)
      { s with unschedulable := [] }).bind fun s =>
        if s.unschedulable = [] then some s
        else runGraphs g tick depth n s.unschedulable true s

variable [Fintype F]

/-- One turn of the loop of `ms_ticker_run`: the calls in their order, and the ticker behind it.
No walk is deeper than there are filters. -/
def Ticker.tick (t : Ticker F) (g : FilterGraph F) : Option (List F × Ticker F) :=
  let ticks := t.ticks + 1
  (runGraphs g ticks (Fintype.card F + 1) 2 t.executionList false
    { lastTick := t.lastTick }).map fun s =>
      (s.calls, { t with ticks := ticks, lastTick := s.lastTick })

end

/-! ### What a tick should do -/

/-- A filter feeds another: an output of the one is an input of the other. -/
def FilterGraph.Feeds (e f : F) : Prop := some e ∈ g.inputs f

/-- A filter on a path from one that is scheduled. -/
def FilterGraph.Reachable (sources : List F) (f : F) : Prop :=
  ∃ s ∈ sources, Relation.ReflTransGen g.Feeds s f

/-- A filter on no loop. -/
def FilterGraph.OnNoCycle (f : F) : Prop := ¬ Relation.TransGen g.Feeds f f

/-- A filter whose stream comes from the sources without passing a loop: neither it nor anything
upstream of it is on one, and all of it is scheduled. -/
def FilterGraph.Settled (sources : List F) (f : F) : Prop :=
  ∀ e, Relation.ReflTransGen g.Feeds e f → g.OnNoCycle e ∧ g.Reachable sources e

/-- What feeds a settled filter is settled. -/
theorem FilterGraph.Settled.of_feeds {g : FilterGraph F} {sources : List F} {e f : F}
    (h : g.Settled sources f) (he : g.Feeds e f) : g.Settled sources e :=
  fun x hx => h x (hx.tail he)

end GrooveIp.Media
