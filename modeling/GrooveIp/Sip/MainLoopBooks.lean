import GrooveIp.Sip.MainLoop

/-!
# The main loop keeps its books

What holds in every state of a run of the main loop, when no source is added while it is linked, without
anything to be linked by or left expired where that counts, no source has an event and an elapsed period
at once, and no callback returns to be called again when its source would be put back after its removal
or fall out of the loop for a negative timeout.
-/

namespace GrooveIp.Sip.Loop

open Lib MainLoop Function

/-- The conditions under which a step keeps the books. -/
def MainLoop.Meets (ml : MainLoop) : Step → Prop
  | .add s _ => s ∉ ml.linked ∧ ((ml.source s).fd ∨ 0 ≤ (ml.source s).timeout) ∧
      ((ml.source s).expired = true → (ml.source s).fd = false ∧ s ∉ ml.toBeNotified ∧
        ml.running ≠ some s)
  | .iterate poll cur => ∀ revents, poll = some revents → ∀ entry ∈ ml.timerSources,
      entry.key ≤ cur → (ml.source entry.value).cancelled = false →
        entry.value ∈ ml.fdSources → revents entry.value = 0
  | .finish ret => ∀ s, ml.running = some s → ret = .stop ∨ (ml.source s).oneshot ∨
      (0 ≤ (ml.source s).timeout → s ∈ ml.linked) ∧
        ((ml.source s).timeout < 0 → (ml.source s).fd ∨ (ml.source s).expired = false ∨
          (ml.source s).it = none)
  | .remove _ | .cancel _ | .setTimeout .. | .turn => True

/-! ## Timers and iterators -/

/-- Timers and iterators refer to each other. -/
structure Links (ml : MainLoop) : Prop where
  entry : ∀ e ∈ ml.timerSources, (ml.source e.value).it = some e.stamp
  it : ∀ s stamp, (ml.source s).it = some stamp →
    ∃ e ∈ ml.timerSources, e.stamp = stamp ∧ e.value = s
  stamps : (ml.timerSources.map Entry.stamp).Nodup
  ordered : Ordered ml.timerSources
  fresh : ∀ e ∈ ml.timerSources, e.stamp < ml.nextStamp

section Primitives

variable {ml : MainLoop} (s : Nat)

@[simp] theorem source_update (f : Source → Source) (t : Nat) :
    (ml.update s f).source t = if t = s then f (ml.source s) else ml.source t :=
  update_apply _ _ _ _

@[simp] theorem source_eraseTimer (t : Nat) : (ml.eraseTimer s).source t =
      if t = s then { ml.source s with it := none } else ml.source t :=
  update_apply _ _ _ _

/-- The timer of a source is erased, and no other. -/
theorem Links.mem_eraseTimer (h : Links ml) {e : Entry Nat} :
    e ∈ (ml.eraseTimer s).timerSources ↔ e ∈ ml.timerSources ∧ e.value ≠ s := by
  unfold MainLoop.eraseTimer
  split
  · next hnone =>
    refine ⟨fun he => ⟨he, ?_⟩, fun he => he.1⟩
    rintro rfl
    rw [h.entry e he] at hnone
    cases hnone
  · next stamp hsome =>
    simp only [mem_eraseEntry]
    refine and_congr_right fun he => not_congr ⟨?_, ?_⟩
    · intro heq
      obtain ⟨e', he', hstamp, hvalue⟩ := h.it s stamp hsome
      rw [← eq_of_stamp h.stamps he' he (hstamp.trans heq.symm), hvalue]
    · rintro rfl
      rw [h.entry e he] at hsome
      exact Option.some_inj.mp hsome

/-- Erasing a timer keeps timers and iterators together. -/
theorem Links.eraseTimer (h : Links ml) : Links (ml.eraseTimer s) where
  entry e he := by
    rw [h.mem_eraseTimer] at he
    rw [source_eraseTimer, if_neg he.2, h.entry e he.1]
  it t stamp ht := by
    rw [source_eraseTimer] at ht
    split at ht
    · cases ht
    · next hne =>
      obtain ⟨e, he, hstamp, rfl⟩ := h.it t stamp ht
      exact ⟨e, (h.mem_eraseTimer s).mpr ⟨he, hne⟩, hstamp, rfl⟩
  stamps := by
    unfold MainLoop.eraseTimer
    split
    · exact h.stamps
    · exact nodup_stamps_eraseEntry h.stamps _
  ordered := by
    unfold MainLoop.eraseTimer
    split
    · exact h.ordered
    · exact h.ordered.eraseEntry _
  fresh e he := by
    rw [h.mem_eraseTimer] at he
    exact h.fresh e he.1

theorem Links.insertTimer (h : Links ml) (hnone : (ml.source s).it = none) (key : Nat) :
    Links (ml.insertTimer s key) where
  entry e he := by
    obtain rfl | hmem := mem_insertEntry.mp he
    · simp [MainLoop.insertTimer]
    · have hne : e.value ≠ s := by
        rintro heq
        rw [← heq, h.entry e hmem] at hnone
        cases hnone
      simpa [MainLoop.insertTimer, hne] using h.entry e hmem
  it t stamp ht := by
    simp only [MainLoop.insertTimer, source_update] at ht
    split at ht
    · next heq =>
      exact ⟨⟨key, ml.nextStamp, s⟩, mem_insertEntry.mpr (.inl rfl), Option.some_inj.mp ht,
        heq.symm⟩
    · obtain ⟨e, he, hstamp, rfl⟩ := h.it t stamp ht
      exact ⟨e, mem_insertEntry.mpr (.inr he), hstamp, rfl⟩
  stamps := nodup_stamps_insertEntry h.stamps fun e he => Nat.ne_of_lt (h.fresh e he)
  ordered := h.ordered.insertEntry _
  fresh e he := by
    obtain rfl | he := mem_insertEntry.mp he
    · exact Nat.lt_succ_self _
    · exact Nat.lt_succ_of_lt (h.fresh e he)

theorem Links.update (h : Links ml) {f : Source → Source}
    (hf : (f (ml.source s)).it = (ml.source s).it) : Links (ml.update s f) where
  entry e he := by
    rw [source_update]
    split
    · next heq =>
      rw [hf, ← heq]
      exact h.entry e he
    · exact h.entry e he
  it t stamp ht := by
    rw [source_update] at ht
    split at ht
    · next heq =>
      rw [hf, ← heq] at ht
      exact h.it t stamp ht
    · exact h.it t stamp ht
  stamps := h.stamps
  ordered := h.ordered
  fresh := h.fresh

end Primitives

/-- What holds between the steps of a run. -/
structure Inv (ml : MainLoop) : Prop extends Links ml where
  fdNodup : ml.fdSources.Nodup
  fdSource : ∀ s ∈ ml.fdSources, (ml.source s).fd
  oldArmed : ∀ stamp ∈ ml.books.armed, stamp < ml.nextStamp
  oldReported : ∀ stamp ∈ ml.books.reported, stamp < ml.nextStamp
  seen : ml.seen ≤ ml.nextStamp
  count : ml.nsources = ml.linked.card
  fdLinked : ∀ s, (ml.source s).it.isSome → (ml.source s).fd → s ∈ ml.fdSources
  live : ∀ s ∈ ml.linked, (ml.source s).cancelled = false → ml.books.live s = true
  queued : ∀ s ∈ ml.toBeNotified, s ∈ ml.linked ∨ (ml.source s).cancelled = true
  started : ∀ call ∈ ml.books.started, call.2 = true
  running : ∀ s, ml.running = some s → (ml.source s).expired = true →
    ∀ stamp, (ml.source s).it = some stamp → stamp ∈ ml.books.armed → stamp ∈ ml.books.reported
  timedOut : ∀ s, ml.running ≠ some s → (ml.source s).timedOut = true →
    (ml.source s).expired = true ∧ ((ml.source s).cancelled = true ∨
      ∃ stamp, (ml.source s).it = some stamp ∧ stamp ∉ ml.books.reported)
  overdue : ∀ s, ml.running ≠ some s → (ml.source s).expired = true →
    (ml.source s).cancelled = false → (ml.source s).it.isSome →
      (ml.source s).fd ∨ s ∈ ml.toBeNotified → (ml.source s).timedOut = true
  quiet : ∀ s ∉ ml.toBeNotified, ml.running ≠ some s →
    (ml.source s).events = 0 ∧ (ml.source s).timedOut = false
  once : ml.books.reported.Nodup
  ledger : ∀ stamp ∈ ml.books.armed, stamp ∈ ml.books.reported ∨
    stamp ∈ ml.books.withdrawn ∨ stamp ∈ ml.timerSources.map Entry.stamp
  reported : ∀ e ∈ ml.timerSources, e.stamp ∈ ml.books.reported →
    ml.running = some e.value ∧ (ml.source e.value).expired = true
  late : ∀ e ∈ ml.timerSources, e.stamp < ml.seen → e.key ≤ ml.cur →
    (ml.source e.value).cancelled = false → (ml.source e.value).expired = true ∧
      (e.value ∈ ml.toBeNotified ∨ ml.running = some e.value)

/-- A source is linked when it is in the list or has an iterator. -/
theorem Links.mem_linked_iff {ml : MainLoop} (h : Links ml) (s : Nat) :
    s ∈ ml.linked ↔ s ∈ ml.fdSources ∨ (ml.source s).it.isSome := by
  simp only [MainLoop.linked, Finset.mem_union, List.mem_toFinset, List.mem_map]
  constructor
  · rintro (hfd | ⟨e, he, rfl⟩)
    · exact .inl hfd
    · exact .inr (by rw [h.entry e he]; rfl)
  · rintro (hfd | hit)
    · exact .inl hfd
    · obtain ⟨stamp, hstamp⟩ := Option.isSome_iff_exists.mp hit
      obtain ⟨e, he, -, hvalue⟩ := h.it s stamp hstamp
      exact .inr ⟨e, he, hvalue⟩

/-! ## Calls -/

section Calls

variable {ml : MainLoop}

/-- A linked source that is removed: its links are gone, and its period is withdrawn. -/
structure Unlinked (ml : MainLoop) (s : Nat) (ml' : MainLoop) : Prop extends Links ml' where
  source : ∀ t, ml'.source t =
    if t = s then { ml.source s with it := none, cancelled := true } else ml.source t
  timers : ∀ e, e ∈ ml'.timerSources ↔ e ∈ ml.timerSources ∧ e.value ≠ s
  fdSources : ml'.fdSources = ml.fdSources.erase s
  nsources : ml'.nsources = ml.nsources - 1
  nextStamp : ml'.nextStamp = ml.nextStamp
  cur : ml'.cur = ml.cur
  seen : ml'.seen = ml.seen
  toBeNotified : ml'.toBeNotified = ml.toBeNotified
  running : ml'.running = ml.running
  books : ml'.books = { ml.books with
    live := update ml.books.live s false
    withdrawn := ml.books.withdrawn ++ (ml.source s).it.toList }

/-- `belle_sip_main_loop_remove_source` of a linked source. -/
theorem Links.removeSource (h : Links ml) {s : Nat}
    (hlink : s ∈ ml.fdSources ∨ (ml.source s).it.isSome) : Unlinked ml s (ml.removeSource s) := by
  have hstart : Links ((ml.setLive s false).withdraw s) :=
    ⟨h.entry, h.it, h.stamps, h.ordered, h.fresh⟩
  have herase := hstart.eraseTimer s
  have hcancel := herase.update s (f := ({ · with cancelled := true })) rfl
  have hlink' : s ∈ (ml.setLive s false).fdSources ∨ ((ml.setLive s false).source s).it.isSome :=
    hlink
  unfold MainLoop.removeSource
  rw [if_pos hlink']
  exact { hcancel with
      entry := hcancel.entry
      it := hcancel.it
      stamps := hcancel.stamps
      ordered := hcancel.ordered
      fresh := hcancel.fresh
      source := by
        intro t
        simp only [source_update, source_eraseTimer, if_true]
        split <;> rfl
      timers := fun e => hstart.mem_eraseTimer s
      fdSources := rfl
      nsources := rfl
      nextStamp := rfl
      cur := rfl
      seen := rfl
      toBeNotified := rfl
      running := rfl
      books := rfl }

/-- Removing a source keeps the books. -/
theorem Inv.removeSource (h : Inv ml) (s : Nat) : Inv (ml.removeSource s) := by
  by_cases hlink : s ∈ ml.fdSources ∨ (ml.source s).it.isSome
  · have hres := h.toLinks.removeSource hlink
    generalize ml.removeSource s = ml' at hres ⊢
    have herase : ∀ t, t ∈ ml.fdSources.erase s ↔ t ≠ s ∧ t ∈ ml.fdSources :=
      fun t => h.fdNodup.mem_erase_iff
    have hlinked : ∀ t, t ∈ ml'.linked ↔ t ∈ ml.linked ∧ t ≠ s := by
      intro t
      rw [hres.toLinks.mem_linked_iff, h.mem_linked_iff, hres.fdSources, hres.source]
      grind
    exact { hres.toLinks with
        fdNodup := by
          rw [hres.fdSources]
          exact h.fdNodup.erase s
        fdSource := by
          have := h.fdSource
          grind [hres.source, hres.fdSources, List.mem_of_mem_erase]
        oldArmed := by
          rw [hres.books, hres.nextStamp]
          exact h.oldArmed
        oldReported := by
          rw [hres.books, hres.nextStamp]
          exact h.oldReported
        seen := by
          rw [hres.seen, hres.nextStamp]
          exact h.seen
        count := by
          have hset : ml'.linked = ml.linked.erase s := by
            ext t
            rw [hlinked, Finset.mem_erase, and_comm]
          have hmem : s ∈ ml.linked := (h.mem_linked_iff s).mpr hlink
          have hpos := Finset.card_pos.mpr ⟨s, hmem⟩
          rw [hres.nsources, h.count, hset, Finset.card_erase_of_mem hmem]
          omega
        fdLinked := by
          have := h.fdLinked
          grind [hres.source, hres.fdSources]
        live := by
          have := h.live
          rw [hres.books]
          grind [hres.source, update_apply]
        queued := by
          have := h.queued
          rw [hres.toBeNotified]
          grind [hres.source]
        started := by
          rw [hres.books]
          exact h.started
        running := by
          have := h.running
          rw [hres.books, hres.running]
          grind [hres.source]
        timedOut := by
          have := h.timedOut
          rw [hres.books, hres.running]
          grind [hres.source]
        overdue := by
          have := h.overdue
          rw [hres.toBeNotified, hres.running]
          grind [hres.source]
        quiet := by
          have := h.quiet
          rw [hres.toBeNotified, hres.running]
          grind [hres.source]
        once := by
          rw [hres.books]
          exact h.once
        ledger := by
          have := h.ledger
          have := h.entry
          rw [hres.books]
          grind [hres.timers]
        reported := by
          have := h.reported
          rw [hres.books, hres.running]
          grind [hres.source, hres.timers]
        late := by
          have := h.late
          rw [hres.seen, hres.cur, hres.toBeNotified, hres.running]
          grind [hres.source, hres.timers] }
  · have hout : s ∉ ml.linked := mt (h.mem_linked_iff s).mp hlink
    unfold MainLoop.removeSource
    dsimp only [MainLoop.setLive]
    rw [if_neg hlink]
    exact { h with
      live := by
        intro t ht hcancelled
        have hne : t ≠ s := by
          rintro rfl
          exact hout ht
        dsimp only
        rw [update_of_ne hne]
        exact h.live t ht hcancelled }

/-- A source that changes while its timer is put at another place. -/
structure Moved (ml : MainLoop) (s key : Nat) (f : Source → Source) (books : Books)
    (ml' : MainLoop) : Prop extends Links ml' where
  source : ∀ t, ml'.source t =
    if t = s then { f (ml.source s) with it := some ml.nextStamp } else ml.source t
  timers : ∀ e, e ∈ ml'.timerSources ↔
    e = ⟨key, ml.nextStamp, s⟩ ∨ e ∈ ml.timerSources ∧ e.value ≠ s
  fdSources : ml'.fdSources = ml.fdSources
  nsources : ml'.nsources = ml.nsources
  nextStamp : ml'.nextStamp = ml.nextStamp + 1
  cur : ml'.cur = ml.cur
  seen : ml'.seen = ml.seen
  toBeNotified : ml'.toBeNotified = ml.toBeNotified
  running : ml'.running = ml.running
  books : ml'.books = books

variable {f : Source → Source}

/-- A timer is erased and inserted at another place. -/
theorem Links.move (h : Links ml) (s key : Nat) (hf : (f (ml.source s)).it = (ml.source s).it)
    (books books' : Books) :
    Moved ml s key f books'
      { ((({ ml.update s f with books } : MainLoop).eraseTimer s).insertTimer s key) with
        books := books' } := by
  have hupdate := h.update s hf
  have hstart : Links { ml.update s f with books } :=
    ⟨hupdate.entry, hupdate.it, hupdate.stamps, hupdate.ordered, hupdate.fresh⟩
  have hnone : ((({ ml.update s f with books } : MainLoop).eraseTimer s).source s).it = none := by
    rw [source_eraseTimer, if_pos rfl]
  have hlinks := (hstart.eraseTimer s).insertTimer s hnone key
  exact
    { entry := hlinks.entry
      it := hlinks.it
      stamps := hlinks.stamps
      ordered := hlinks.ordered
      fresh := hlinks.fresh
      source := by
        intro t
        simp only [MainLoop.insertTimer, source_update, source_eraseTimer, if_true]
        split <;> rfl
      timers := by
        intro e
        simp only [MainLoop.insertTimer, mem_insertEntry]
        rw [hstart.mem_eraseTimer]
        rfl
      fdSources := rfl
      nsources := rfl
      nextStamp := rfl
      cur := rfl
      seen := rfl
      toBeNotified := rfl
      running := rfl
      books := rfl }

variable {ml' : MainLoop}

/-- A source that is linked stays linked when its timer is moved, and no other is. -/
theorem Moved.mem_linked_iff {s key : Nat} {books : Books} (h : Moved ml s key f books ml')
    (hlinks : Links ml) (t : Nat) : t ∈ ml'.linked ↔ t = s ∨ t ∈ ml.linked := by
  rw [h.toLinks.mem_linked_iff, hlinks.mem_linked_iff, h.fdSources, h.source]
  grind

/-- A source that changes, but for its iterator. -/
structure Changed (ml : MainLoop) (s : Nat) (f : Source → Source) (books : Books)
    (ml' : MainLoop) : Prop extends Links ml' where
  source : ∀ t, ml'.source t = if t = s then f (ml.source s) else ml.source t
  timers : ml'.timerSources = ml.timerSources
  fdSources : ml'.fdSources = ml.fdSources
  nsources : ml'.nsources = ml.nsources
  nextStamp : ml'.nextStamp = ml.nextStamp
  cur : ml'.cur = ml.cur
  seen : ml'.seen = ml.seen
  toBeNotified : ml'.toBeNotified = ml.toBeNotified
  running : ml'.running = ml.running
  books : ml'.books = books

/-- A source changes, but for its iterator. -/
theorem Links.change (h : Links ml) (s : Nat) (hf : (f (ml.source s)).it = (ml.source s).it)
    (books : Books) : Changed ml s f books { ml.update s f with books } :=
  have hupdate := h.update s hf
  { entry := hupdate.entry
    it := hupdate.it
    stamps := hupdate.stamps
    ordered := hupdate.ordered
    fresh := hupdate.fresh
    source := source_update s f
    timers := rfl
    fdSources := rfl
    nsources := rfl
    nextStamp := rfl
    cur := rfl
    seen := rfl
    toBeNotified := rfl
    running := rfl
    books := rfl }

/-- The same sources are linked. -/
theorem Changed.linked {s : Nat} {books : Books} (h : Changed ml s f books ml') :
    ml'.linked = ml.linked := by
  unfold MainLoop.linked
  rw [h.fdSources, h.timers]

/-- What the books say about the list, the counter and the stamps, with no regard to turns. -/
structure Tally (ml : MainLoop) : Prop where
  fdNodup : ml.fdSources.Nodup
  fdSource : ∀ s ∈ ml.fdSources, (ml.source s).fd
  oldArmed : ∀ stamp ∈ ml.books.armed, stamp < ml.nextStamp
  oldReported : ∀ stamp ∈ ml.books.reported, stamp < ml.nextStamp
  seen : ml.seen ≤ ml.nextStamp
  count : ml.nsources = ml.linked.card
  fdLinked : ∀ s, (ml.source s).it.isSome → (ml.source s).fd → s ∈ ml.fdSources
  started : ∀ call ∈ ml.books.started, call.2 = true
  once : ml.books.reported.Nodup

/-- A change of a source keeps the tally. -/
theorem Inv.tally (h : Inv ml) {s : Nat} {live : Nat → Bool}
    (hchanged : Changed ml s f { ml.books with live } ml')
    (hfd : (f (ml.source s)).fd = (ml.source s).fd)
    (hit : (f (ml.source s)).it = (ml.source s).it) : Tally ml' where
  fdNodup := by
    rw [hchanged.fdSources]
    exact h.fdNodup
  fdSource := by
    have := h.fdSource
    grind [hchanged.source, hchanged.fdSources]
  oldArmed := by
    rw [hchanged.books, hchanged.nextStamp]
    exact h.oldArmed
  oldReported := by
    rw [hchanged.books, hchanged.nextStamp]
    exact h.oldReported
  seen := by
    rw [hchanged.seen, hchanged.nextStamp]
    exact h.seen
  count := by rw [hchanged.nsources, h.count, hchanged.linked]
  fdLinked := by
    have := h.fdLinked
    grind [hchanged.source, hchanged.fdSources]
  started := by
    rw [hchanged.books]
    exact h.started
  once := by
    rw [hchanged.books]
    exact h.once

/-- A change of a source that its turns do not depend on keeps the books. -/
theorem Inv.changed (h : Inv ml) {s : Nat} {live : Nat → Bool}
    (hchanged : Changed ml s f { ml.books with live } ml')
    (hf : f (ml.source s) = { ml.source s with
      timeout := (f (ml.source s)).timeout, expireMs := (f (ml.source s)).expireMs,
      cancelled := (f (ml.source s)).cancelled })
    (hcancelled : (ml.source s).cancelled = true → (f (ml.source s)).cancelled = true)
    (hlive : ∀ t ∈ ml.linked, (ml'.source t).cancelled = false → live t = true) : Inv ml' := by
  have hsource : ∀ t, (ml'.source t).fd = (ml.source t).fd ∧
      ((ml.source t).cancelled = true → (ml'.source t).cancelled = true) ∧
      (ml'.source t).expired = (ml.source t).expired ∧
      (ml'.source t).events = (ml.source t).events ∧
      (ml'.source t).timedOut = (ml.source t).timedOut ∧ (ml'.source t).it = (ml.source t).it := by
    intro t
    rw [hchanged.source]
    split
    · next heq =>
      rw [heq]
      refine ⟨?_, hcancelled, ?_, ?_, ?_, ?_⟩ <;> rw [hf]
    · exact ⟨rfl, id, rfl, rfl, rfl, rfl⟩
  exact { hchanged.toLinks, h.tally hchanged (by rw [hf]) (by rw [hf]) with
      live := by
        rw [hchanged.books, hchanged.linked]
        exact hlive
      queued := by
        have := h.queued
        rw [hchanged.toBeNotified]
        grind [hchanged.linked]
      running := by
        have := h.running
        rw [hchanged.books, hchanged.running]
        grind
      timedOut := by
        have := h.timedOut
        rw [hchanged.books, hchanged.running]
        grind
      overdue := by
        have := h.overdue
        rw [hchanged.toBeNotified, hchanged.running]
        grind
      quiet := by
        have := h.quiet
        rw [hchanged.toBeNotified, hchanged.running]
        grind
      ledger := by
        rw [hchanged.books, hchanged.timers]
        exact h.ledger
      reported := by
        have := h.reported
        rw [hchanged.books, hchanged.running, hchanged.timers]
        grind
      late := by
        have := h.late
        rw [hchanged.seen, hchanged.cur, hchanged.toBeNotified, hchanged.running, hchanged.timers]
        grind }

/-- Putting the timer of a linked source at another place keeps the books, when the period that was
running is reported or withdrawn, and a new one is armed for a source that has not elapsed. -/
theorem Inv.moved (h : Inv ml) {s key : Nat} {books : Books} (hmem : s ∈ ml.linked)
    (hmoved : Moved ml s key f books ml') (withdrawn armed : List Nat)
    (hbooks : books = { ml.books with
      live := books.live
      withdrawn := ml.books.withdrawn ++ withdrawn
      armed := ml.books.armed ++ armed }) (hf : f (ml.source s) = { ml.source s with
      expireMs := (f (ml.source s)).expireMs, expired := (f (ml.source s)).expired,
      cancelled := (f (ml.source s)).cancelled })
    (hcancelled : (ml.source s).cancelled = true → (f (ml.source s)).cancelled = true)
    (hturn : ml.running = some s ∨ (ml.source s).it.isSome ∧ (f (ml.source s)).expired = (ml.source
      s).expired)
    (harmed : ∀ stamp ∈ armed, stamp = ml.nextStamp ∧ (f (ml.source s)).expired = false)
    (hold : ∀ stamp ∈ ml.books.armed, (ml.source s).it = some stamp → stamp ∈ ml.books.reported ∨
      stamp ∈ withdrawn)
    (hlive : ∀ t ∈ ml.linked, (ml'.source t).cancelled = false → books.live t = true) :
    Inv ml' := by
  have hafter := hmoved.books.trans hbooks
  have hlinked : ml'.linked = ml.linked := by
    ext t
    rw [hmoved.mem_linked_iff h.toLinks, or_iff_right_of_imp]
    rintro rfl
    exact hmem
  have hother : ∀ t, t ≠ s → ml'.source t = ml.source t := fun t ht => by
    rw [hmoved.source, if_neg ht]
  have hself : (ml'.source s).it = some ml.nextStamp ∧ (ml'.source s).fd = (ml.source s).fd ∧
      ((ml.source s).cancelled = true → (ml'.source s).cancelled = true) ∧
      (ml'.source s).expired = (f (ml.source s)).expired ∧
      (ml'.source s).events = (ml.source s).events ∧
      (ml'.source s).timedOut = (ml.source s).timedOut := by
    rw [hmoved.source, if_pos rfl]
    refine ⟨rfl, ?_, hcancelled, rfl, ?_, ?_⟩ <;> rw [hf]
  exact { hmoved.toLinks with
      fdNodup := by
        rw [hmoved.fdSources]
        exact h.fdNodup
      fdSource := by
        have := h.fdSource
        grind [hmoved.fdSources]
      oldArmed := by
        have := h.oldArmed
        rw [hafter, hmoved.nextStamp]
        grind
      oldReported := by
        have := h.oldReported
        rw [hafter, hmoved.nextStamp]
        grind
      seen := by
        rw [hmoved.seen, hmoved.nextStamp]
        exact Nat.le_succ_of_le h.seen
      count := by rw [hmoved.nsources, h.count, hlinked]
      fdLinked := by
        have := h.fdLinked
        have := (h.mem_linked_iff s).mp hmem
        grind [hmoved.fdSources]
      live := by
        rw [hmoved.books, hlinked]
        exact hlive
      queued := by
        have := h.queued
        rw [hmoved.toBeNotified]
        grind
      started := by
        rw [hafter]
        exact h.started
      running := by
        have := h.running
        have := h.fresh
        have := h.it
        have := h.oldArmed
        rw [hafter, hmoved.running]
        grind
      timedOut := by
        have := h.timedOut
        have := h.oldReported
        rw [hafter, hmoved.running]
        grind
      overdue := by
        have := h.overdue
        rw [hmoved.toBeNotified, hmoved.running]
        grind
      quiet := by
        have := h.quiet
        rw [hmoved.toBeNotified, hmoved.running]
        grind
      once := by
        rw [hafter]
        exact h.once
      ledger := by
        have := h.ledger
        have := h.entry
        have : (⟨key, ml.nextStamp, s⟩ : Entry Nat) ∈ ml'.timerSources :=
          (hmoved.timers _).mpr (.inl rfl)
        grind [hmoved.timers]
      reported := by
        have := h.reported
        have := h.oldReported
        rw [hafter, hmoved.running]
        grind [hmoved.timers]
      late := by
        have := h.late
        have := h.seen
        rw [hmoved.seen, hmoved.cur, hmoved.toBeNotified, hmoved.running]
        grind [hmoved.timers] }

/-- Cancelling a source keeps the books. -/
theorem Inv.cancel (h : Inv ml) (s : Nat) : Inv (ml.cancel s) := by
  have hbooks : ((ml.setLive s false).update s ({ · with cancelled := true })).withdraw s =
      { ml.update s ({ · with cancelled := true }) with
        books := { ml.books with
          live := update ml.books.live s false
          withdrawn := ml.books.withdrawn ++ (ml.source s).it.toList } } := by
    simp [MainLoop.withdraw, MainLoop.setLive, MainLoop.update]
  unfold MainLoop.cancel
  dsimp only
  split
  · next hit =>
    replace hit : (ml.source s).it.isSome := by simpa [MainLoop.setLive] using hit
    have hmoved := h.toLinks.move s 0 (f := ({ · with cancelled := true })) rfl { ml.books with
        live := update ml.books.live s false
        withdrawn := ml.books.withdrawn ++ (ml.source s).it.toList } { ml.books with
        live := update ml.books.live s false
        withdrawn := ml.books.withdrawn ++ (ml.source s).it.toList }
    rw [hbooks]
    change Moved ml s 0 _ _ ((({ ml.update s _ with books := _ } : MainLoop).eraseTimer
      s).insertTimer s 0) at hmoved
    generalize (({ ml.update s ({ · with cancelled := true }) with books := _ } :
      MainLoop).eraseTimer s).insertTimer s 0 = ml' at hmoved ⊢
    have hmem : s ∈ ml.linked := (h.mem_linked_iff s).mpr (.inr hit)
    refine h.moved hmem hmoved (ml.source s).it.toList [] (by simp) rfl (fun _ => rfl)
      (.inr ⟨hit, rfl⟩) (by simp) (fun _ _ hstamp => .inr (Option.mem_toList.mpr hstamp)) ?_
    intro t ht
    have := h.live t ht
    rw [hmoved.source]
    grind
  · next hit =>
    replace hit : (ml.source s).it = none := by simpa [MainLoop.setLive] using hit
    have hchanged : Changed ml s _ _
        ((ml.setLive s false).update s ({ · with cancelled := true })) :=
      h.toLinks.change s (f := ({ · with cancelled := true })) rfl
        { ml.books with live := update ml.books.live s false }
    generalize (ml.setLive s false).update s ({ · with cancelled := true }) = ml' at hchanged ⊢
    refine h.changed hchanged rfl (fun _ => rfl) ?_
    intro t ht
    have := h.live t ht
    rw [hchanged.source]
    grind

/-- A change of the timeout of a source keeps the books. -/
theorem Inv.changeTimeout (h : Inv ml) (s : Nat)
    (hf : f (ml.source s) = { ml.source s with timeout := (f (ml.source s)).timeout, expireMs := (f
      (ml.source s)).expireMs }) : Inv (ml.update s f) := by
  have hchanged : Changed ml s f ml.books (ml.update s f) :=
    h.toLinks.change s (by rw [hf]) ml.books
  generalize ml.update s f = ml' at hchanged ⊢
  exact h.changed hchanged (by rw [hf]) (by rw [hf]; exact id) (by
    intro t ht
    rw [hchanged.source]
    split
    · next heq =>
      rw [hf, ← heq]
      exact h.live t ht
    · exact h.live t ht)

/-- Moving a timer that has not elapsed keeps the books. -/
theorem Inv.retime (h : Inv ml) (s key : Nat) (hit : (ml.source s).it.isSome)
    (hexpired : (ml.source s).expired = false) :
    Inv (((ml.withdraw s).eraseTimer s).arm s key) := by
  have hmoved := h.toLinks.move s key (f := id) rfl
    { ml.books with withdrawn := ml.books.withdrawn ++ (ml.source s).it.toList } { ml.books with
      withdrawn := ml.books.withdrawn ++ (ml.source s).it.toList
      armed := ml.books.armed ++ [ml.nextStamp] }
  have hupdate : ml.update s id = ml := by simp [MainLoop.update]
  rw [hupdate] at hmoved
  change Moved ml s key id _ (((ml.withdraw s).eraseTimer s).arm s key) at hmoved
  generalize ((ml.withdraw s).eraseTimer s).arm s key = ml' at hmoved ⊢
  have hmem : s ∈ ml.linked := (h.mem_linked_iff s).mpr (.inr hit)
  refine h.moved hmem hmoved (ml.source s).it.toList [ml.nextStamp] rfl rfl id (.inr ⟨hit, rfl⟩)
    (by simpa using hexpired) (fun _ _ hstamp => .inr (Option.mem_toList.mpr hstamp)) ?_
  intro t ht
  have := h.live t ht
  rw [hmoved.source]
  grind

/-- Setting a timeout keeps the books. -/
theorem Inv.setTimeout (h : Inv ml) (s : Nat) (value : UInt32) (now : Nat) :
    Inv (ml.setTimeout s value now) := by
  unfold MainLoop.setTimeout
  dsimp only
  split
  · exact h.changeTimeout s rfl
  · next hexpired =>
    have hexpire : Inv (ml.update s ({ · with expireMs := now + value.toNat })) :=
      h.changeTimeout s rfl
    split
    · next hit =>
      exact (hexpire.retime s _ hit (by simpa using hexpired)).changeTimeout s rfl
    · exact hexpire.changeTimeout s rfl

/-- A source that is added: its timer is armed when it has a timeout that is not negative. -/
structure Added (ml : MainLoop) (s : Nat) (ml' : MainLoop) : Prop extends Links ml' where
  other : ∀ t, t ≠ s → ml'.source t = ml.source t
  fd : (ml'.source s).fd = (ml.source s).fd
  timeout : (ml'.source s).timeout = (ml.source s).timeout
  events : (ml'.source s).events = (ml.source s).events
  timedOut : (ml'.source s).timedOut = (ml.source s).timedOut
  expired : (ml'.source s).expired = (ml.source s).expired
  cancelled : (ml'.source s).cancelled = false
  iterator : (ml'.source s).it = if 0 ≤ (ml.source s).timeout then some ml.nextStamp else none
  timers : ∀ e, e ∈ ml.timerSources → e ∈ ml'.timerSources
  timer : ∀ e, e ∈ ml'.timerSources →
    0 ≤ (ml.source s).timeout ∧ e.stamp = ml.nextStamp ∧ e.value = s ∨ e ∈ ml.timerSources
  fdSources : ml'.fdSources = if (ml.source s).fd then s :: ml.fdSources else ml.fdSources
  nsources : ml'.nsources = ml.nsources + 1
  nextStamp : ml.nextStamp ≤ ml'.nextStamp
  next : 0 ≤ (ml.source s).timeout → ml'.nextStamp = ml.nextStamp + 1
  cur : ml'.cur = ml.cur
  seen : ml'.seen = ml.seen
  toBeNotified : ml'.toBeNotified = ml.toBeNotified
  running : ml'.running = ml.running
  books : ml'.books = { ml.books with
    live := update ml.books.live s true
    armed := ml.books.armed ++ if 0 ≤ (ml.source s).timeout then [ml.nextStamp] else [] }

/-- `belle_sip_main_loop_add_source` of a source that is not linked. -/
theorem Links.addSource (h : Links ml) {s : Nat} (hout : s ∉ ml.linked) (now : Nat) :
    ∃ ml', ml.addSource s now = .ok ml' ∧ Added ml s ml' := by
  have hnot := mt (h.mem_linked_iff s).mpr hout
  rw [not_or] at hnot
  have hnone : (ml.source s).it = none := by simpa using hnot.2
  unfold MainLoop.addSource
  rw [if_neg (fun hin => hnot.1 hin.1), if_neg (fun hin => hnot.1 hin.1)]
  refine ⟨_, rfl, ?_⟩
  by_cases htimeout : 0 ≤ (ml.source s).timeout
  · have hexpire := h.update s
      (f := ({ · with expireMs := now + (ml.source s).timeout.toNat })) rfl
    have hinsert := hexpire.insertTimer s (by simpa using hnone)
      (now + (ml.source s).timeout.toNat)
    have hlinks := hinsert.update s (f := ({ · with cancelled := false })) rfl
    simp only [htimeout, if_true]
    exact
      { entry := hlinks.entry
        it := hlinks.it
        stamps := hlinks.stamps
        ordered := hlinks.ordered
        fresh := hlinks.fresh
        other := by
          intro t ht
          simp [arm, MainLoop.insertTimer, MainLoop.setLive, ht]
        fd := by simp [arm, MainLoop.insertTimer, MainLoop.setLive]
        timeout := by simp [arm, MainLoop.insertTimer, MainLoop.setLive]
        events := by simp [arm, MainLoop.insertTimer, MainLoop.setLive]
        timedOut := by simp [arm, MainLoop.insertTimer, MainLoop.setLive]
        expired := by simp [arm, MainLoop.insertTimer, MainLoop.setLive]
        cancelled := by simp [MainLoop.setLive]
        iterator := by simp [arm, MainLoop.insertTimer, MainLoop.setLive, htimeout,
          MainLoop.update]
        timers := fun e he => mem_insertEntry.mpr (.inr he)
        timer := by
          intro e he
          obtain rfl | he := mem_insertEntry.mp he
          · exact .inl ⟨htimeout, rfl, rfl⟩
          · exact .inr he
        fdSources := by simp [arm, MainLoop.insertTimer, MainLoop.setLive, MainLoop.update]
        nsources := rfl
        nextStamp := Nat.le_succ _
        next := fun _ => rfl
        cur := rfl
        seen := rfl
        toBeNotified := rfl
        running := rfl
        books := by rw [if_pos htimeout]; rfl }
  · have hlinks := h.update s (f := ({ · with cancelled := false })) rfl
    simp only [htimeout, if_false]
    exact
      { entry := hlinks.entry
        it := hlinks.it
        stamps := hlinks.stamps
        ordered := hlinks.ordered
        fresh := hlinks.fresh
        other := by
          intro t ht
          simp [MainLoop.setLive, ht]
        fd := by simp [MainLoop.setLive]
        timeout := by simp [MainLoop.setLive]
        events := by simp [MainLoop.setLive]
        timedOut := by simp [MainLoop.setLive]
        expired := by simp [MainLoop.setLive]
        cancelled := by simp [MainLoop.setLive]
        iterator := by simpa [MainLoop.setLive, htimeout] using hnone
        timers := fun e he => he
        timer := fun e he => .inr he
        fdSources := by simp [MainLoop.setLive, MainLoop.update]
        nsources := rfl
        nextStamp := Nat.le_refl _
        next := fun h => absurd h htimeout
        cur := rfl
        seen := rfl
        toBeNotified := rfl
        running := rfl
        books := by rw [if_neg htimeout, List.append_nil]; rfl }

/-- Adding a source that is not linked keeps the books, when an earlier use did not leave it expired
with a file descriptor, to be notified or in its callback. -/
theorem Inv.addSource (h : Inv ml) {s : Nat} (hout : s ∉ ml.linked)
    (hlink : (ml.source s).fd ∨ 0 ≤ (ml.source s).timeout)
    (hexpired : (ml.source s).expired = true → (ml.source s).fd = false ∧ s ∉ ml.toBeNotified ∧
      ml.running ≠ some s) (now : Nat) : ∃ ml', ml.addSource s now = .ok ml' ∧ Inv ml' := by
  have hnot := mt (h.mem_linked_iff s).mpr hout
  obtain ⟨ml', hml', ha⟩ := h.toLinks.addSource hout now
  refine ⟨ml', hml', ?_⟩
  have hlinked : ∀ t, t ∈ ml'.linked ↔ t = s ∨ t ∈ ml.linked := by
    intro t
    have := ha.iterator
    rw [ha.toLinks.mem_linked_iff, h.mem_linked_iff, ha.fdSources]
    grind [ha.other]
  have hvalue : ∀ e ∈ ml.timerSources, e.value ≠ s := by
    have := h.entry
    grind
  exact { ha.toLinks with
      fdNodup := by
        have := h.fdNodup
        grind [ha.fdSources]
      fdSource := by
        have := h.fdSource
        grind [ha.fdSources, ha.other, ha.fd]
      oldArmed := by
        have := h.oldArmed
        have := ha.nextStamp
        have := ha.next
        rw [ha.books]
        grind
      oldReported := by
        have := h.oldReported
        have := ha.nextStamp
        rw [ha.books]
        grind
      seen := by
        rw [ha.seen]
        exact Nat.le_trans h.seen ha.nextStamp
      count := by
        have hset : ml'.linked = insert s ml.linked := by
          ext t
          rw [hlinked, Finset.mem_insert]
        rw [ha.nsources, h.count, hset, Finset.card_insert_of_notMem hout]
        rfl
      fdLinked := by
        have := h.fdLinked
        grind [ha.fdSources, ha.other, ha.fd]
      live := by
        have := h.live
        rw [ha.books]
        grind [ha.other]
      queued := by
        have := h.queued
        rw [ha.toBeNotified]
        grind [ha.other]
      started := by
        rw [ha.books]
        exact h.started
      running := by
        have := h.running
        have := h.it
        have := h.fresh
        have := ha.expired
        rw [ha.books, ha.running]
        grind [ha.other]
      timedOut := by
        have := h.timedOut
        have := h.quiet
        have := ha.timedOut
        rw [ha.books, ha.running]
        grind [ha.other]
      overdue := by
        have := h.overdue
        have := ha.expired
        have := ha.fd
        rw [ha.toBeNotified, ha.running]
        grind [ha.other]
      quiet := by
        have := h.quiet
        have := ha.events
        have := ha.timedOut
        rw [ha.toBeNotified, ha.running]
        grind [ha.other]
      once := by
        rw [ha.books]
        exact h.once
      ledger := by
        have := h.ledger
        have := ha.it s ml.nextStamp
        have := ha.iterator
        rw [ha.books]
        grind [ha.timers]
      reported := by
        have := h.reported
        have := h.oldReported
        rw [ha.books, ha.running]
        grind [ha.other, ha.timer]
      late := by
        have := h.late
        have := h.seen
        rw [ha.seen, ha.cur, ha.toBeNotified, ha.running]
        grind [ha.other, ha.timer] }

end Calls

end GrooveIp.Sip.Loop
