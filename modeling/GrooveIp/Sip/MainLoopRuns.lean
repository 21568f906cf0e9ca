import GrooveIp.Sip.MainLoopBooks

/-!
# Runs of the main loop

Iterations keep the books as the calls do, so that every run that meets the conditions does: no callback
starts for a source that is not in the loop, each elapsed period is reported once, iterators and timers
refer to each other, and the poll table has room. Without the conditions a source that removes itself
and asks to be called again is put back into the timers, and the table gets too small.
-/

namespace GrooveIp.Sip.Loop

open Lib List
open Entry (value)

variable {ml : MainLoop}

/-! ## Turns -/

variable {s : Nat}

theorem Links.it_inj (h : Links ml) {t stamp : Nat} (hs : (ml.source s).it = some stamp)
    (ht : (ml.source t).it = some stamp) : s = t := by
  obtain ⟨e, he, hstamp, rfl⟩ := h.it s stamp hs
  obtain ⟨e', he', hstamp', rfl⟩ := h.it t stamp ht
  rw [eq_of_stamp h.stamps he he' (hstamp.trans hstamp'.symm)]

theorem removeSource_frame (ml : MainLoop) (s : Nat) :
    (ml.removeSource s).toBeNotified = ml.toBeNotified ∧
      (ml.removeSource s).running = ml.running := by
  unfold MainLoop.removeSource
  dsimp only
  split <;> exact ⟨rfl, rfl⟩

theorem Links.removeSource_source (h : Links ml) (s : Nat) :
    ((ml.removeSource s).source s).it = none ∧
      ((ml.source s).cancelled = true → ((ml.removeSource s).source s).cancelled = true) := by
  by_cases hlink : s ∈ ml.fdSources ∨ (ml.source s).it.isSome
  · rw [(h.removeSource hlink).source, if_pos rfl]
    exact ⟨rfl, fun _ => rfl⟩
  · unfold MainLoop.removeSource
    dsimp only [MainLoop.setLive]
    rw [if_neg hlink]
    exact ⟨by simpa using (not_or.mp hlink).2, id⟩

/-- The turn of a cancelled source is over when it is removed. -/
theorem Inv.skip (h : Inv ml) {next : List Nat} (hqueue : ml.toBeNotified = s :: next)
    (hcancelled : (ml.source s).cancelled = true) :
    Inv { ml.update s ({ · with events := 0, timedOut := false }) with toBeNotified := next } := by
  have hchanged : Changed ml s ({ · with events := 0, timedOut := false }) ml.books
      (ml.update s ({ · with events := 0, timedOut := false })) :=
    h.toLinks.change s rfl ml.books
  generalize ml.update s ({ · with events := 0, timedOut := false }) = ml' at hchanged ⊢
  exact
    { hchanged.toLinks, h.tally hchanged rfl rfl with
      live := by
        have := h.live
        change ∀ t ∈ ml'.linked, _
        rw [hchanged.books, hchanged.linked]
        grind [hchanged.source]
      queued := by
        have := h.queued
        change ∀ t ∈ next, t ∈ ml'.linked ∨ _
        grind [hchanged.source, hchanged.linked]
      running := by
        have := h.running
        rw [hchanged.books, hchanged.running]
        grind [hchanged.source]
      timedOut := by
        have := h.timedOut
        rw [hchanged.books, hchanged.running]
        grind [hchanged.source]
      overdue := by
        have := h.overdue
        rw [hchanged.running]
        grind [hchanged.source]
      quiet := by
        have := h.quiet
        rw [hchanged.running]
        grind [hchanged.source]
      ledger := by
        rw [hchanged.books, hchanged.timers]
        exact h.ledger
      reported := by
        have := h.reported
        rw [hchanged.books, hchanged.running, hchanged.timers]
        grind [hchanged.source]
      late := by
        have := h.late
        rw [hchanged.seen, hchanged.cur, hchanged.running, hchanged.timers]
        grind [hchanged.source] }

/-- A callback starts. -/
theorem Inv.start (h : Inv ml) {s : Nat} {next : List Nat} (hrunning : ml.running = none)
    (hqueue : ml.toBeNotified = s :: next) (hcancelled : (ml.source s).cancelled = false) :
    Inv { ml with
      toBeNotified := next
      running := some s
      books := { ml.books with
        started := ml.books.started ++ [(s, ml.books.live s)]
        reported := ml.books.reported ++
          if (ml.source s).timedOut then (ml.source s).it.toList else [] } } := by
  have hmem : s ∈ ml.linked := by
    have := h.queued s (by rw [hqueue]; exact mem_cons_self)
    simpa [hcancelled] using this
  have hmine : ∀ t stamp, (ml.source s).it = some stamp → (ml.source t).it = some stamp → s = t :=
    fun t stamp hs ht => h.toLinks.it_inj hs ht
  exact
    { h with
      oldReported := by
        have := h.oldReported
        have := h.it s
        have := h.fresh
        grind
      queued := by
        have := h.queued
        change ∀ t ∈ next, t ∈ ml.linked ∨ _
        grind
      started := by
        have := h.started
        have := h.live s hmem hcancelled
        grind
      running := by
        have := h.overdue
        grind
      timedOut := by
        have := h.timedOut
        grind
      overdue := by
        have := h.overdue
        grind
      quiet := by
        have := h.quiet
        grind
      once := by
        have := h.timedOut s
        have hnodup : (if (ml.source s).timedOut then (ml.source s).it.toList else []).Nodup := by
          split
          · cases (ml.source s).it <;> simp
          · exact nodup_nil
        refine nodup_append'.mpr ⟨h.once, hnodup, ?_⟩
        intro stamp hold hnew
        grind
      ledger := by
        have := h.ledger
        grind
      reported := by
        have := h.reported
        have := h.entry
        have := h.timedOut s
        grind
      late := by
        have := h.late
        grind }

theorem Inv.turn (h : Inv ml) : Inv ml.turn := by
  unfold MainLoop.turn
  split
  · next s next hrunning hqueue =>
    split
    · next hcancelled =>
      have hframe := removeSource_frame ml s
      exact (h.removeSource s).skip (hframe.1.trans hqueue)
        ((h.toLinks.removeSource_source s).2 hcancelled)
    · next hcancelled =>
      exact h.start hrunning hqueue (by simpa using hcancelled)
  · exact h

/-! ## Returns of callbacks -/

/-- A callback is over, for a source that has no timer or one that has not elapsed. -/
theorem Inv.leave (h : Inv ml) {s : Nat} (hrunning : ml.running = some s)
    (hs : (ml.source s).it = none ∨ (ml.source s).expired = false) :
    Inv { ml.update s ({ · with events := 0, timedOut := false }) with running := none } := by
  have hchanged : Changed ml s ({ · with events := 0, timedOut := false }) ml.books
      (ml.update s ({ · with events := 0, timedOut := false })) :=
    h.toLinks.change s rfl ml.books
  generalize ml.update s ({ · with events := 0, timedOut := false }) = ml' at hchanged ⊢
  exact
    { hchanged.toLinks, h.tally hchanged rfl rfl with
      live := by
        have := h.live
        change ∀ t ∈ ml'.linked, _
        rw [hchanged.books, hchanged.linked]
        grind [hchanged.source]
      queued := by
        have := h.queued
        change ∀ t ∈ ml'.toBeNotified, t ∈ ml'.linked ∨ _
        rw [hchanged.toBeNotified, hchanged.linked]
        grind [hchanged.source]
      running := by
        intro t ht
        cases ht
      timedOut := by
        intro t _ ht
        rw [hchanged.source] at ht ⊢
        rw [hchanged.books]
        split at ht
        · cases ht
        · next hne =>
          rw [if_neg hne]
          exact h.timedOut t (by rw [hrunning]; grind) ht
      overdue := by
        have := h.overdue
        rw [hchanged.toBeNotified]
        grind [hchanged.source]
      quiet := by
        have := h.quiet
        rw [hchanged.toBeNotified]
        grind [hchanged.source]
      ledger := by
        rw [hchanged.books, hchanged.timers]
        exact h.ledger
      reported := by
        have := h.reported
        have := h.entry
        rw [hchanged.books, hchanged.timers]
        grind [hchanged.source]
      late := by
        have := h.late
        have := h.entry
        rw [hchanged.seen, hchanged.cur, hchanged.toBeNotified, hchanged.timers]
        grind [hchanged.source] }

theorem eraseTimer_of_none (h : (ml.source s).it = none) : ml.eraseTimer s = ml := by
  have hsource : Function.update ml.source s { ml.source s with it := none } = ml.source := by
    funext t
    rw [Function.update_apply]
    split
    · next heq => rw [heq, ← h]
    · rfl
  unfold MainLoop.eraseTimer MainLoop.update
  rw [hsource, h]

/-- The timer of a source whose period is reported, or that has none, is started again. -/
theorem Inv.restart (h : Inv ml) {key : Nat} {ml' : MainLoop} (hrunning : ml.running = some s)
    (hmem : s ∈ ml.linked)
    (hdone : (ml.source s).it = none ∨ (ml.source s).expired = true)
    (hmoved : Moved ml s key ({ · with expireMs := key, expired := false }) { ml.books with armed
      := ml.books.armed ++ [ml.nextStamp] } ml') : Inv ml' := by
  refine h.moved hmem hmoved [] [ml.nextStamp] (by simp) rfl id (.inl hrunning) (by simp) ?_ ?_
  · intro stamp harmed hstamp
    obtain hnone | hexpired := hdone
    · rw [hnone] at hstamp
      cases hstamp
    · exact .inl (h.running s hrunning hexpired stamp hstamp harmed)
  · intro t ht
    have := h.live t ht
    rw [hmoved.source]
    grind

/-- The timer of a source with a file descriptor, whose period is reported, is not started again. -/
theorem Inv.retire (h : Inv ml) (hrunning : ml.running = some s) (hfd : s ∈ ml.fdSources)
    (hexpired : (ml.source s).expired = true) :
    Inv (ml.eraseTimer s) := by
  have hlinks := h.toLinks.eraseTimer s
  have hsource : ∀ t, (ml.eraseTimer s).source t =
      if t = s then { ml.source s with it := none } else ml.source t := source_eraseTimer s
  have htimers : ∀ e, e ∈ (ml.eraseTimer s).timerSources ↔ e ∈ ml.timerSources ∧ e.value ≠ s :=
    fun e => h.toLinks.mem_eraseTimer s
  have hlinked : (ml.eraseTimer s).linked = ml.linked := by
    ext t
    rw [hlinks.mem_linked_iff, h.mem_linked_iff, hsource]
    change t ∈ ml.fdSources ∨ _ ↔ _
    grind
  exact
    { hlinks with
      fdNodup := h.fdNodup
      fdSource := by
        have := h.fdSource
        change ∀ t ∈ ml.fdSources, _
        grind
      oldArmed := h.oldArmed
      oldReported := h.oldReported
      seen := h.seen
      count := by
        rw [hlinked]
        exact h.count
      fdLinked := by
        have := h.fdLinked
        change ∀ t, _ → _ → t ∈ ml.fdSources
        grind
      live := by
        have := h.live
        rw [hlinked]
        change ∀ t ∈ ml.linked, _ → ml.books.live t = true
        grind
      queued := by
        have := h.queued
        change ∀ t ∈ ml.toBeNotified, _
        grind
      started := h.started
      running := by
        change ∀ t, ml.running = some t → _
        grind
      timedOut := by
        have := h.timedOut
        change ∀ t, ml.running ≠ some t → _ → _ ∧ (_ ∨ ∃ stamp, _ ∧ stamp ∉ ml.books.reported)
        grind
      overdue := by
        have := h.overdue
        change ∀ t, ml.running ≠ some t → _ → _ → _ → _ ∨ t ∈ ml.toBeNotified → _
        grind
      quiet := by
        have := h.quiet
        change ∀ t, t ∉ ml.toBeNotified → ml.running ≠ some t → _
        grind
      once := h.once
      ledger := by
        have := h.ledger
        have := h.entry
        have := h.running s hrunning
        change ∀ stamp ∈ ml.books.armed, stamp ∈ ml.books.reported ∨ stamp ∈ ml.books.withdrawn ∨ _
        grind
      reported := by
        have := h.reported
        change ∀ e : Entry Nat, _ → e.stamp ∈ ml.books.reported → ml.running = some e.value ∧ _
        grind
      late := by
        have := h.late
        change ∀ e : Entry Nat, _ → e.stamp < ml.seen → e.key ≤ ml.cur → _ →
          _ ∧ (e.value ∈ ml.toBeNotified ∨ ml.running = some e.value)
        grind }

/-- What follows a callback that is to be called again keeps the books, when its source is still linked
or has no timeout. -/
theorem Inv.rearm (h : Inv ml) (hrunning : ml.running = some s) (ret : Ret)
    (hlinked : 0 ≤ (ml.source s).timeout → s ∈ ml.linked)
    (hkept : (ml.source s).timeout < 0 → (ml.source s).fd ∨ (ml.source s).expired = false ∨
      (ml.source s).it = none) :
    Inv (ml.rearm s ret) ∧ (ml.rearm s ret).running = some s ∧
      (((ml.rearm s ret).source s).it = none ∨ ((ml.rearm s ret).source s).expired = false) := by
  have hmove : ∀ key, Moved ml s key ({ · with expireMs := key, expired := false })
      { ml.books with armed := ml.books.armed ++ [ml.nextStamp] }
      (((ml.eraseTimer s).update s ({ · with expireMs := key, expired := false })).arm s key) := by
    intro key
    have hmoved : Moved ml s key ({ · with expireMs := key, expired := false })
        { ml.books with armed := ml.books.armed ++ [ml.nextStamp] }
        { ((ml.update s ({ · with expireMs := key, expired := false })).eraseTimer s).insertTimer s
            key with
          books := { ml.books with armed := ml.books.armed ++ [ml.nextStamp] } } :=
      h.toLinks.move s key rfl ml.books _
    have hcomm : (ml.update s ({ · with expireMs := key, expired := false })).eraseTimer s =
        (ml.eraseTimer s).update s ({ · with expireMs := key, expired := false }) := by
      simp [MainLoop.update, MainLoop.eraseTimer]
    rw [hcomm] at hmoved
    exact hmoved
  have hafter : ∀ {key ml'}, Moved ml s key ({ · with expireMs := key, expired := false })
      { ml.books with armed := ml.books.armed ++ [ml.nextStamp] } ml' →
      ml'.running = some s ∧ ((ml'.source s).it = none ∨ (ml'.source s).expired = false) := by
    intro key ml' hmoved
    rw [hmoved.running, hmoved.source, if_pos rfl]
    exact ⟨hrunning, .inr rfl⟩
  unfold MainLoop.rearm
  dsimp only
  by_cases herase : (ml.source s).expired = true ∧ (ml.source s).it.isSome
  · have hmem : s ∈ ml.linked := (h.mem_linked_iff s).mpr (.inr herase.2)
    rw [if_pos herase]
    by_cases htimeout : 0 ≤ (ml.source s).timeout
    · rw [if_pos (by simpa using htimeout)]
      have hmoved := hmove
        ((if ret = .continueWithoutCatchup then ml.cur else (ml.source s).expireMs) +
          (ml.source s).timeout.toNat)
      have hkey : (if ret = .continueWithoutCatchup then (ml.eraseTimer s).cur
          else ((ml.eraseTimer s).source s).expireMs) + ((ml.eraseTimer s).source s).timeout.toNat =
          (if ret = .continueWithoutCatchup then ml.cur else (ml.source s).expireMs) +
            (ml.source s).timeout.toNat := by
        simp only [source_eraseTimer, if_true]
        rfl
      rw [hkey]
      exact ⟨h.restart hrunning hmem (.inr herase.1) hmoved, hafter hmoved⟩
    · rw [if_neg (by simpa using htimeout)]
      have hfd : s ∈ ml.fdSources := by
        refine h.fdLinked s herase.2 ?_
        grind
      exact ⟨h.retire hrunning hfd herase.1, hrunning, .inl (by simp)⟩
  · rw [if_neg herase]
    by_cases hstart : (ml.source s).it = none ∧ 0 ≤ (ml.source s).timeout
    · rw [if_pos hstart]
      have hmem : s ∈ ml.linked := hlinked hstart.2
      have hmoved := hmove
        ((if ret = .continueWithoutCatchup then ml.cur else (ml.source s).expireMs) +
          (ml.source s).timeout.toNat)
      rw [eraseTimer_of_none hstart.1] at hmoved
      exact ⟨h.restart hrunning hmem (.inl hstart.1) hmoved, hafter hmoved⟩
    · rw [if_neg hstart]
      refine ⟨h, hrunning, ?_⟩
      cases hit : (ml.source s).it with
      | none => exact .inl rfl
      | some stamp =>
        right
        rw [hit] at herase
        simpa using herase

theorem Inv.finish (h : Inv ml) (ret : Ret)
    (hmeets : ml.Meets (.finish ret)) : Inv (ml.finish ret) := by
  unfold MainLoop.finish
  split
  · exact h
  · next s hrunning =>
    split
    · exact (h.removeSource s).leave ((removeSource_frame ml s).2.trans hrunning)
        (.inl (h.toLinks.removeSource_source s).1)
    · next hagain =>
      rw [not_or] at hagain
      have hmeets' := ((hmeets s hrunning).resolve_left hagain.1).resolve_left hagain.2
      obtain ⟨hinv, hrunning', hdone⟩ := h.rearm hrunning ret hmeets'.1 hmeets'.2
      exact hinv.leave hrunning' hdone

/-! ## Iterations -/

/-- Step 2 looks at each source in the list. -/
theorem foldl_examine (revents : Nat → Nat) {l : List Nat} (hl : l.Nodup) (ml : MainLoop) :
    l.foldl (fun ml s => ml.examine s revents) ml =
      { ml with
        source := fun t =>
          if t ∈ l ∧ (ml.source t).cancelled = false ∧ (ml.source t).fd = true then
            { ml.source t with events := revents t, timedOut := false }
          else ml.source t
        toBeNotified := ml.toBeNotified ++ l.filter fun t =>
          (ml.source t).cancelled ∨ (ml.source t).fd ∧ revents t ≠ 0 } := by
  induction l generalizing ml with
  | nil => simp
  | cons s l ih =>
    obtain ⟨hs, hl⟩ := nodup_cons.mp hl
    have hne : ∀ t ∈ l, t ≠ s := fun t ht heq => hs (heq ▸ ht)
    rw [foldl_cons, ih hl]
    unfold MainLoop.examine
    cases hcancelled : (ml.source s).cancelled with
    | true =>
      simp only [if_true, MainLoop.mk.injEq, true_and, and_true]
      refine ⟨?_, ?_⟩
      · funext t
        grind
      · rw [filter_cons_of_pos (by simp [hcancelled]), append_assoc]
        rfl
    | false =>
      cases hfd : (ml.source s).fd with
      | false =>
        simp only [Bool.false_eq_true, if_false, MainLoop.mk.injEq, true_and, and_true]
        refine ⟨?_, ?_⟩
        · funext t
          grind
        · rw [filter_cons_of_neg (by simp [hcancelled, hfd])]
      | true =>
        simp only [Bool.false_eq_true, if_false, if_true]
        have hfilter : (l.filter fun t => (((ml.update s
            ({ · with events := revents s, timedOut := false })).source t).cancelled = true ∨
            ((ml.update s ({ · with events := revents s, timedOut := false })).source t).fd = true ∧
              revents t ≠ 0)) =
            l.filter fun t => (ml.source t).cancelled ∨ (ml.source t).fd ∧ revents t ≠ 0 :=
          filter_congr fun t ht => by rw [source_update, if_neg (hne t ht)]
        have hsource : (fun t => if t ∈ l ∧ ((ml.update s
            ({ · with events := revents s, timedOut := false })).source t).cancelled = false ∧
            ((ml.update s ({ · with events := revents s, timedOut := false })).source t).fd = true then
            { (ml.update s ({ · with events := revents s, timedOut := false })).source t with
              events := revents t, timedOut := false }
            else (ml.update s ({ · with events := revents s, timedOut := false })).source t) =
            fun t => if t ∈ s :: l ∧ (ml.source t).cancelled = false ∧ (ml.source t).fd = true then
              { ml.source t with events := revents t, timedOut := false }
            else ml.source t := by
          funext t
          by_cases heq : t = s
          · subst heq
            simp [hs, hcancelled, hfd]
          · simp [heq]
        by_cases hevents : revents s = 0
        · rw [if_neg (not_not.mpr hevents), hsource, hfilter, filter_cons_of_neg
            (by simp [hcancelled, hevents])]
          rfl
        · rw [if_pos hevents]
          rw [hsource, hfilter, filter_cons_of_pos (by simp [hfd, hevents]), append_assoc]
          rfl

theorem foldl_expire {l : List (Entry Nat)} (hl : (l.map value).Nodup) {ml : MainLoop}
    (hquiet : ∀ s ∈ l.map value,
      (ml.source s).events = 0 ∧ (ml.source s).timedOut = false) :
    l.foldl MainLoop.expire ml =
      { ml with
        source := fun t =>
          if t ∈ l.map value then { ml.source t with expired := true, timedOut := true }
          else ml.source t
        toBeNotified := ml.toBeNotified ++ l.map value } := by
  induction l generalizing ml with
  | nil => simp
  | cons e l ih =>
    obtain ⟨he, hl⟩ := nodup_cons.mp hl
    have hfirst := hquiet e.value mem_cons_self
    have hexpire : ml.expire e = { ml with
        source := Function.update ml.source e.value
          { ml.source e.value with expired := true, timedOut := true }
        toBeNotified := ml.toBeNotified ++ [e.value] } := by
      unfold MainLoop.expire
      dsimp only
      rw [if_pos hfirst]
      simp [MainLoop.update]
    have hrest : ∀ s ∈ l.map value, ((ml.expire e).source s).events = 0 ∧
        ((ml.expire e).source s).timedOut = false := by
      intro s hs
      have hne : s ≠ e.value := fun heq => he (heq ▸ hs)
      rw [hexpire]
      dsimp only
      rw [Function.update_of_ne hne]
      exact hquiet s (mem_cons_of_mem _ hs)
    rw [foldl_cons, ih hl hrest, hexpire]
    simp only [MainLoop.mk.injEq, and_true, map_cons, append_assoc,
      singleton_append]
    funext t
    by_cases heq : t = e.value
    · subst heq
      simp [he]
    · simp [heq]

theorem Inv.room (h : Inv ml) :
    ¬ml.nsources < (ml.fdSources.filter fun s =>
      (ml.source s).cancelled = false ∧ (ml.source s).fd).length := by
  have hfilter := length_filter_le (fun s =>
    decide ((ml.source s).cancelled = false ∧ (ml.source s).fd = true)) ml.fdSources
  have hlist : ml.fdSources.length ≤ ml.linked.card := by
    rw [← toFinset_card_of_nodup h.fdNodup]
    exact Finset.card_le_card Finset.subset_union_left
  have := h.count
  omega

/-- Sources are examined: some have an elapsed period, and those with an event are to be notified. -/
theorem Inv.examined (h : Inv ml) (hrunning : ml.running = none)
    (hquiet : ∀ s, (ml.source s).events = 0 ∧ (ml.source s).timedOut = false) {cur : Nat}
    {source : Nat → Source} {due queue : List Nat}
    (hdue : ∀ s, s ∈ due ↔ ∃ e ∈ ml.timerSources, e.key ≤ cur ∧ e.value = s)
    (hsource : ∀ s, (source s).fd = (ml.source s).fd ∧
      (source s).timeout = (ml.source s).timeout ∧
      (source s).cancelled = (ml.source s).cancelled ∧ (source s).it = (ml.source s).it ∧
      (source s).expired = (decide (s ∈ due) || (ml.source s).expired) ∧
      (source s).timedOut = decide (s ∈ due) ∧ ((source s).events ≠ 0 → s ∈ queue))
    (hqueue : ∀ s ∈ queue, s ∈ ml.linked ∧
      (s ∈ due ∨ (ml.source s).cancelled = true ∨ (ml.source s).fd = true))
    (hin : ∀ s ∈ due, s ∈ queue) :
    Inv { ml with source, toBeNotified := queue, cur, seen := ml.nextStamp } := by
  have hentry : ∀ e ∈ ml.timerSources, (source e.value).it = some e.stamp := by
    have := h.entry
    grind
  exact
    { h with
      entry := hentry
      it := by
        have := h.it
        grind
      fdSource := by
        have := h.fdSource
        grind
      seen := Nat.le_refl _
      fdLinked := by
        have := h.fdLinked
        grind
      live := by
        have := h.live
        change ∀ s ∈ ml.linked, _
        grind
      queued := fun s hs => .inl (hqueue s hs).1
      running := by
        rw [hrunning]
        intro s hs
        cases hs
      timedOut := by
        intro s _ hs
        have hmem : s ∈ due := by grind
        obtain ⟨e, he, -, rfl⟩ := (hdue s).mp hmem
        refine ⟨by grind, .inr ⟨e.stamp, hentry e he, fun hold => ?_⟩⟩
        have := (h.reported e he hold).1
        rw [hrunning] at this
        cases this
      overdue := by
        have := h.overdue
        grind
      quiet := by
        grind
      reported := by
        intro e he hold
        have := (h.reported e he hold).1
        rw [hrunning] at this
        cases this
      late := by
        intro e he _ hkey _
        have hmem : e.value ∈ due := (hdue _).mpr ⟨e, he, hkey, rfl⟩
        exact ⟨by grind, .inl (hin _ hmem)⟩ }

theorem Inv.iterate (h : Inv ml) {poll : Option (Nat → Nat)} {cur : Nat}
    (hmeets : ∀ revents, poll = some revents → ∀ entry ∈ ml.timerSources,
      entry.key ≤ cur → (ml.source entry.value).cancelled = false →
        entry.value ∈ ml.fdSources → revents entry.value = 0) :
    ∃ ml', ml.iterate poll cur = .ok ml' ∧ Inv ml' := by
  unfold MainLoop.iterate
  split
  · exact ⟨ml, rfl, h⟩
  · next hidle =>
    rw [not_or, Option.not_isSome_iff_eq_none, not_not] at hidle
    obtain ⟨hrunning, hqueue⟩ := hidle
    rw [if_neg h.room]
    cases poll with
    | none => exact ⟨ml, rfl, h⟩
    | some revents =>
      have hquiet : ∀ s, (ml.source s).events = 0 ∧ (ml.source s).timedOut = false := by
        have := h.quiet
        grind
      have hdue : ∀ s, s ∈ (ml.timerSources.takeWhile (·.key ≤ cur)).map value ↔
          ∃ e ∈ ml.timerSources, e.key ≤ cur ∧ e.value = s := by
        intro s
        simp only [mem_map, h.ordered.mem_takeWhile_iff, and_assoc]
      have hvalues : ((ml.timerSources.takeWhile (·.key ≤ cur)).map value).Nodup := by
        refine List.Nodup.map_on ?_ (List.Nodup.of_map _ (h.stamps.sublist
          ((takeWhile_sublist _).map _)))
        intro e he e' he' heq
        have hmem := (h.ordered.mem_takeWhile_iff.mp he).1
        have hmem' := (h.ordered.mem_takeWhile_iff.mp he').1
        have hit := h.entry e hmem
        rw [heq, h.entry e' hmem'] at hit
        exact eq_of_stamp h.stamps hmem hmem' (Option.some_inj.mp hit.symm)
      refine ⟨_, rfl, ?_⟩
      rw [foldl_examine revents h.fdNodup, foldl_expire hvalues (by
        intro s hs
        grind)]
      generalize (ml.timerSources.takeWhile (·.key ≤ cur)).map value = due at hdue ⊢
      refine h.examined hrunning hquiet hdue ?_ ?_ ?_
      · intro s
        grind
      · intro s hs
        rw [hqueue, nil_append] at hs
        obtain hs | hs := mem_append.mp hs
        · refine ⟨(h.mem_linked_iff s).mpr (.inl (mem_of_mem_filter hs)), .inr (.inr ?_)⟩
          exact h.fdSource s (mem_of_mem_filter hs)
        · refine ⟨?_, .inl hs⟩
          obtain ⟨e, he, -, rfl⟩ := (hdue s).mp hs
          exact (h.mem_linked_iff _).mpr (.inr (by rw [h.entry e he]; rfl))
      · exact fun s hs => mem_append_right _ hs

/-! ## Runs -/

theorem Inv.step (h : Inv ml) {step : Step} (hmeets : ml.Meets step) :
    ∃ ml', ml.step step = .ok ml' ∧ Inv ml' := by
  cases step with
  | add s now => exact h.addSource hmeets.1 hmeets.2.1 hmeets.2.2 now
  | remove s => exact ⟨_, rfl, h.removeSource s⟩
  | cancel s => exact ⟨_, rfl, h.cancel s⟩
  | setTimeout s value now => exact ⟨_, rfl, h.setTimeout s value now⟩
  | iterate poll cur => exact h.iterate hmeets
  | turn => exact ⟨_, rfl, h.turn⟩
  | finish ret => exact ⟨_, rfl, h.finish ret hmeets⟩

theorem MainLoop.Initial.inv (h : ml.Initial) : Inv ml := by
  have hnone : ∀ s, (ml.source s).it = none ∧ (ml.source s).expired = false ∧
      (ml.source s).timedOut = false ∧ (ml.source s).events = 0 := by
    intro s
    obtain ⟨fd, timeout, oneshot, hs⟩ := h.sources s
    rw [hs]
    exact ⟨rfl, rfl, rfl, rfl⟩
  have hlinked : ml.linked = ∅ := by
    rw [h.empty]
    rfl
  rw [h.empty] at hlinked ⊢
  exact
    { entry := by simp
      it := by
        intro s stamp hs
        rw [(hnone s).1] at hs
        cases hs
      stamps := nodup_nil
      ordered := List.Pairwise.nil
      fresh := by simp
      fdNodup := nodup_nil
      fdSource := by simp
      oldArmed := by simp
      oldReported := by simp
      seen := Nat.le_refl _
      count := by
        rfl
      fdLinked := by
        intro s hs
        rw [(hnone s).1] at hs
        cases hs
      live := by
        rw [hlinked]
        simp
      queued := by simp
      started := by simp
      running := by simp
      timedOut := by
        intro s _ hs
        rw [(hnone s).2.2.1] at hs
        cases hs
      overdue := by
        intro s _ hs
        rw [(hnone s).2.1] at hs
        cases hs
      quiet := fun s _ _ => ⟨(hnone s).2.2.2, (hnone s).2.2.1⟩
      once := nodup_nil
      ledger := by simp
      reported := by simp
      late := by simp }

/-- Each step of a run meets its condition in the state before it. -/
def MainLoop.MeetsAll : MainLoop → List Step → Prop
  | _, [] => True
  | ml, step :: steps => ml.Meets step ∧ ∀ ml', ml.step step = .ok ml' → ml'.MeetsAll steps

theorem Inv.run (h : Inv ml) {steps : List Step} (hmeets : ml.MeetsAll steps) :
    ∃ ml', ml.run steps = .ok ml' ∧ Inv ml' := by
  induction steps generalizing ml with
  | nil => exact ⟨ml, rfl, h⟩
  | cons step steps ih =>
    obtain ⟨ml', hstep, h'⟩ := h.step hmeets.1
    unfold MainLoop.run
    rw [hstep]
    exact ih h' (hmeets.2 ml' hstep)

/-- The books are kept: callbacks started for sources of the loop only, each armed period is reported,
withdrawn or still in the timers, none is reported twice, a period that elapsed when an iteration looked
is no longer in the timers after it unless its source is cancelled, each source with an iterator has one
timer and only those have, and the poll table has a place for each source that is in it. -/
structure MainLoop.KeepsBooks (ml : MainLoop) : Prop where
  started : ∀ call ∈ ml.books.started, call.2 = true
  once : ml.books.reported.Nodup
  ledger : ∀ stamp ∈ ml.books.armed, stamp ∈ ml.books.reported ∨
    stamp ∈ ml.books.withdrawn ∨ stamp ∈ ml.timerSources.map Entry.stamp
  reported : ∀ e ∈ ml.timerSources, e.stamp ∈ ml.books.reported → ml.running = some e.value
  elapsed : ml.running = none → ml.toBeNotified = [] → ∀ e ∈ ml.timerSources,
    e.stamp < ml.seen → e.key ≤ ml.cur → (ml.source e.value).cancelled = true
  iterator : ∀ s, (ml.source s).it.isSome ↔ ∃! e, e ∈ ml.timerSources ∧ e.value = s
  stamp : ∀ e ∈ ml.timerSources, (ml.source e.value).it = some e.stamp
  count : ml.nsources = ml.linked.card
  room : (ml.fdSources.filter fun s =>
    (ml.source s).cancelled = false ∧ (ml.source s).fd).length ≤ ml.nsources

theorem Links.isSome_it_iff (h : Links ml) (s : Nat) :
    (ml.source s).it.isSome ↔ ∃! e, e ∈ ml.timerSources ∧ e.value = s := by
  constructor
  · intro hsome
    obtain ⟨stamp, hit⟩ := Option.isSome_iff_exists.mp hsome
    obtain ⟨e, he, hstamp, hvalue⟩ := h.it s stamp hit
    refine ⟨e, ⟨he, hvalue⟩, ?_⟩
    rintro e' ⟨he', hvalue'⟩
    have hit' := h.entry e' he'
    rw [hvalue', hit] at hit'
    exact eq_of_stamp h.stamps he' he ((Option.some_inj.mp hit').symm.trans hstamp.symm)
  · rintro ⟨e, ⟨he, rfl⟩, -⟩
    rw [h.entry e he]
    rfl

theorem Inv.keepsBooks (h : Inv ml) : ml.KeepsBooks where
  started := h.started
  once := h.once
  ledger := h.ledger
  reported e he hold := (h.reported e he hold).1
  elapsed hrunning hqueue e he hseen hkey := by
    cases hcancelled : (ml.source e.value).cancelled with
    | true => rfl
    | false =>
      have := (h.late e he hseen hkey hcancelled).2
      rw [hrunning, hqueue] at this
      simp at this
  iterator := h.toLinks.isSome_it_iff
  stamp := h.entry
  count := h.count
  room := not_lt.mp h.room

/-- Every run whose steps meet their conditions keeps the books. -/
theorem MainLoop.run_keepsBooks {ml : MainLoop} (initial : ml.Initial) {steps : List Step}
    (meets : ml.MeetsAll steps) : ∃ ml', ml.run steps = .ok ml' ∧ ml'.KeepsBooks := by
  obtain ⟨ml', hrun, hinv⟩ := initial.inv.run meets
  exact ⟨ml', hrun, hinv.keepsBooks⟩

/-- A loop with a timer of ten milliseconds as source `0`; the other sources have file descriptors. -/
def timerAndSockets : MainLoop where
  source s := if s = 0 then { fd := false, timeout := 10 } else { fd := true, timeout := -1 }

theorem timerAndSockets_initial : timerAndSockets.Initial where
  sources s := by
    unfold timerAndSockets
    dsimp only
    split
    · exact ⟨_, _, _, rfl⟩
    · exact ⟨_, _, _, rfl⟩
  empty := rfl

/-- The timer elapses, its callback takes a socket out of the loop, and it is started again. -/
theorem MainLoop.run_keepsBooks_elapsed :
    ∃ ml', timerAndSockets.run [.add 0 0, .add 1 0, .iterate (some fun _ => 0) 10, .turn, .remove 1,
      .finish .cont] = .ok ml' ∧ ml'.KeepsBooks := by
  refine MainLoop.run_keepsBooks timerAndSockets_initial ?_
  refine ⟨⟨by decide, .inr (by decide), by simp [timerAndSockets]⟩, ?_⟩
  rintro _ ⟨⟩
  refine ⟨⟨by decide, .inl rfl, fun h => absurd h (by decide)⟩, ?_⟩
  rintro _ ⟨⟩
  refine ⟨?_, ?_⟩
  · rintro _ ⟨⟩ _ _ _ _ _
    rfl
  · rintro _ ⟨⟩
    refine ⟨trivial, ?_⟩
    rintro _ ⟨⟩
    refine ⟨trivial, ?_⟩
    rintro _ ⟨⟩
    refine ⟨?_, fun _ _ => trivial⟩
    rintro _ ⟨⟩
    exact .inr (.inr ⟨fun _ => by decide, fun h => absurd h (by decide)⟩)

/-- A timer whose callback removes it and returns to be called again is put back, uncounted, and the
poll table gets too small for the socket that is in the loop. -/
theorem MainLoop.run_selfRemoval : timerAndSockets.Initial ∧
    (∃ ml', timerAndSockets.run [.add 0 0, .add 1 0, .iterate (some fun _ => 0) 10, .turn,
      .remove 0, .finish .cont] = .ok ml' ∧ ¬ml'.KeepsBooks) ∧
    timerAndSockets.run [.add 0 0, .add 1 0, .iterate (some fun _ => 0) 10, .turn, .remove 0,
      .finish .cont, .iterate (some fun _ => 0) 20, .turn, .iterate (some fun _ => 0) 30] =
        .error .outOfBounds := by
  refine ⟨timerAndSockets_initial, ⟨_, rfl, fun h => ?_⟩, rfl⟩
  exact absurd h.count (by decide)

end GrooveIp.Sip.Loop
