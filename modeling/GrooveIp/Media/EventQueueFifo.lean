import GrooveIp.Media.EventQueue
import Mathlib.Algebra.Order.BigOperators.Group.List

/-!
# The event queue as a first-in first-out queue

While every call finds the room that it takes for granted, the queue sees what a first-in first-out queue
sees. The room that is lost at the end of the buffer when a write wraps around counts as free, so that a
write can run into the events that are not read; and a queue whose next event is at the start of the buffer
is not cleaned there but at the end mark.
-/

namespace GrooveIp.Media

open GrooveIp.Lib List MSEventQueue

/-! ## Sizes -/

variable (event : Event)

theorem Event.length_arg_lt : event.arg.length < 256 := by
  rw [event.arg_length]
  have := @Nat.and_le_right event.evId.toNat 255
  change event.evId.toNat &&& 255 < 256
  omega

theorem Event.size_spec :
    headerSize + event.arg.length ≤ event.size ∧ event.size % 8 = 0 ∧ event.size ≤ 272 := by
  have := event.length_arg_lt
  unfold Event.size roundSize headerSize
  omega

theorem Event.size_pos : 16 ≤ event.size := by
  have := event.size_spec.1
  unfold headerSize at this
  omega

/-! ## Events in the buffer -/

/-- A pending event and where it is. -/
structure Unread where
  offset : Nat
  pending : Pending

/-- The bytes of an event that is not read. -/
def Unread.size (u : Unread) : Nat := u.pending.event.size

/-- The filter that an event has in the buffer. -/
def Unread.filter (u : Unread) : UInt64 := if u.pending.cleaned then 0 else u.pending.event.filter

/-- Two events do not share a byte. -/
def Apart (u v : Unread) : Prop := u.offset + u.size ≤ v.offset ∨ v.offset + v.size ≤ u.offset

/-- The bytes of an event are in the buffer. -/
structure Stored (buffer : Nat → UInt8) (u : Unread) : Prop where
  filter : load buffer u.offset 8 = leBytes 8 u.filter.toNat
  evId : load buffer (u.offset + 8) 4 = leBytes 4 u.pending.event.evId.toNat
  arg : load buffer (u.offset + headerSize) u.pending.event.arg.length = u.pending.event.arg

/-- Events follow each other from an offset to another. -/
def Chain : Nat → List Unread → Nat → Prop
  | start, [], stop => start = stop
  | start, u :: us, stop => u.offset = start ∧ Chain (start + u.size) us stop

/-- The events are behind each other, up to the write position. -/
def Straight (q : MSEventQueue) (unread : List Unread) : Prop := Chain q.rptr unread q.wptr

/-- The older events are up to the end mark, and the newer ones are before them. -/
structure Wrapped (q : MSEventQueue) (upper lower : List Unread) : Prop where
  older : Chain q.rptr upper q.endptr
  newer : Chain 0 lower q.wptr
  below : q.wptr ≤ q.rptr
  nonempty : lower ≠ []

/-- The events that are not read are in the queue. -/
structure Holds (q : MSEventQueue) (unread : List Unread) : Prop where
  lim : q.lim = eventBufSize
  size : q.size = eventBufSize
  endptr : q.endptr ≤ eventBufSize
  wptr : q.wptr ≤ q.endptr
  rptr_aligned : q.rptr % 8 = 0
  wptr_aligned : q.wptr % 8 = 0
  freeroom : q.freeroom + room (unread.map Unread.pending) = eventBufSize
  layout : Straight q unread ∨ ∃ upper lower, unread = upper ++ lower ∧ Wrapped q upper lower
  stored : ∀ u ∈ unread, Stored q.buffer u

theorem room_append (first second : List Pending) :
    room (first ++ second) = room first + room second := by
  simp [room]

theorem room_cons (first : Pending) (rest : List Pending) :
    room (first :: rest) = first.event.size + room rest := by
  simp [room]

variable {start stop : Nat} {us : List Unread}

theorem Chain.stop_eq (h : Chain start us stop) : stop = start + room (us.map Unread.pending) := by
  induction us generalizing start with
  | nil => exact h.symm
  | cons u us ih =>
    rw [ih h.2, map_cons, room_cons, Unread.size]
    omega

theorem Chain.append {middle : Nat} {vs : List Unread} (h : Chain start us middle)
    (h' : Chain middle vs stop) : Chain start (us ++ vs) stop := by
  induction us generalizing start with
  | nil =>
    cases h
    exact h'
  | cons u us ih => exact ⟨h.1, ih h.2⟩

variable {u : Unread}

theorem Chain.mem (h : Chain start us stop) (hu : u ∈ us) :
    start ≤ u.offset ∧ u.offset + u.size ≤ stop := by
  induction us generalizing start with
  | nil => cases hu
  | cons v us ih =>
    have hstop := h.2.stop_eq
    cases hu with
    | head =>
      rw [h.1]
      omega
    | tail _ hu =>
      have := ih h.2 hu
      omega

theorem Chain.aligned (h : Chain start us stop) (hstart : start % 8 = 0) (hu : u ∈ us) :
    u.offset % 8 = 0 := by
  induction us generalizing start with
  | nil => cases hu
  | cons v us ih =>
    have hsize := v.pending.event.size_spec.2.1
    cases hu with
    | head => rw [h.1, hstart]
    | tail _ hu =>
      refine ih h.2 ?_ hu
      unfold Unread.size
      omega

theorem Chain.pairwise (h : Chain start us stop) : us.Pairwise Apart := by
  induction us generalizing start with
  | nil => exact List.Pairwise.nil
  | cons u us ih =>
    refine pairwise_cons.mpr ⟨fun v hv => .inl ?_, ih h.2⟩
    have := h.2.mem hv
    have := h.1
    omega

variable {buffer : Nat → UInt8}

theorem Stored.congr {buffer' : Nat → UInt8} (h : Stored buffer u)
    (hagree : ∀ i, u.offset ≤ i → i < u.offset + u.size → buffer' i = buffer i) :
    Stored buffer' u := by
  have hsize := u.pending.event.size_spec.1
  unfold headerSize at hsize
  unfold Unread.size at hagree
  refine ⟨h.filter ▸ load_congr fun i hl hu => hagree i (by omega) (by omega),
    h.evId ▸ load_congr fun i hl hu => hagree i (by omega) (by omega), ?_⟩
  have harg : load buffer' (u.offset + headerSize) u.pending.event.arg.length =
      load buffer (u.offset + headerSize) u.pending.event.arg.length :=
    load_congr fun i hl hu => by
      unfold headerSize at hl hu
      exact hagree i (by omega) (by omega)
  exact harg.trans h.arg

/-! ## What the layout gives -/

variable {q : MSEventQueue} {unread : List Unread}

theorem Holds.rptr_le (h : Holds q unread) : q.rptr ≤ q.endptr := by
  obtain hstraight | ⟨upper, lower, -, hwrapped⟩ := h.layout
  · have := hstraight.stop_eq
    have := h.wptr
    omega
  · have := hwrapped.older.stop_eq
    omega

theorem Holds.mem (h : Holds q unread) (hu : u ∈ unread) :
    u.offset + u.size ≤ eventBufSize ∧ u.offset % 8 = 0 := by
  have hend := h.endptr
  have hwptr := h.wptr
  obtain hstraight | ⟨upper, lower, rfl, hwrapped⟩ := h.layout
  · have := hstraight.mem hu
    exact ⟨by omega, hstraight.aligned h.rptr_aligned hu⟩
  · obtain hu | hu := mem_append.mp hu
    · have := hwrapped.older.mem hu
      exact ⟨by omega, hwrapped.older.aligned h.rptr_aligned hu⟩
    · have := hwrapped.newer.mem hu
      exact ⟨by omega, hwrapped.newer.aligned rfl hu⟩

theorem Holds.pairwise (h : Holds q unread) : unread.Pairwise Apart := by
  obtain hstraight | ⟨upper, lower, rfl, hwrapped⟩ := h.layout
  · exact Chain.pairwise hstraight
  · refine pairwise_append.mpr
      ⟨hwrapped.older.pairwise, hwrapped.newer.pairwise, fun u hu v hv => .inr ?_⟩
    have := hwrapped.older.mem hu
    have := hwrapped.newer.mem hv
    have := hwrapped.below
    omega

theorem Holds.first {u : Unread} {us : List Unread} (h : Holds q (u :: us)) :
    u.offset = backToStart q.endptr q.rptr := by
  have hpos := u.pending.event.size_pos
  unfold backToStart
  obtain hstraight | ⟨upper, lower, hsplit, hwrapped⟩ := h.layout
  · have hstop := hstraight.2.stop_eq
    have hwptr := h.wptr
    unfold Unread.size at hstop
    rw [if_neg (by omega)]
    exact hstraight.1
  · cases upper with
    | nil =>
      have hend : q.rptr = q.endptr := hwrapped.older
      have hlower := hwrapped.newer
      rw [nil_append] at hsplit
      rw [← hsplit] at hlower
      rw [if_pos (by omega)]
      exact hlower.1
    | cons v upper =>
      cases hsplit
      have hstop := hwrapped.older.2.stop_eq
      unfold Unread.size at hstop
      rw [if_neg (by omega)]
      exact hwrapped.older.1

/-! ## Parsing and filling -/

theorem ofNat_leNat_filter (filter : UInt64) :
    UInt64.ofNat (leNat (leBytes 8 filter.toNat)) = filter := by
  rw [leNat_leBytes filter.toNat_lt, UInt64.ofNat_toNat]

theorem get_of_le (q : MSEventQueue) {off n : Nat} (h : off + n ≤ eventBufSize) :
    q.get off n = .ok (load q.buffer off n) := if_pos h

theorem put_of_le (q : MSEventQueue) {off : Nat} {bytes : List UInt8}
    (h : off + bytes.length ≤ eventBufSize) :
    q.put off bytes = .ok { q with buffer := store q.buffer off bytes } := if_pos h

theorem aligned_of_eight {ptr : Nat} (h : ptr % 8 = 0) : aligned ptr = .ok () :=
  if_neg (by omega)

/-- What is parsed where an event is. -/
def Unread.parsed (u : Unread) : Parsed where
  filter := u.filter
  evId := u.pending.event.evId
  data := u.offset + headerSize
  argsize := u.pending.event.arg.length

theorem Unread.evsize_parsed (u : Unread) : u.parsed.evsize = u.size := rfl

theorem parseEvent_of_stored {q : MSEventQueue} (h : Stored q.buffer u)
    (hend : u.offset + u.size ≤ eventBufSize) (haligned : u.offset % 8 = 0) :
    q.parseEvent u.offset = .ok u.parsed := by
  have hsize := u.pending.event.size_pos
  unfold Unread.size at hend
  have hid : UInt32.ofNat (leNat (leBytes 4 u.pending.event.evId.toNat)) = u.pending.event.evId := by
    rw [leNat_leBytes u.pending.event.evId.toNat_lt, UInt32.ofNat_toNat]
  unfold parseEvent
  rw [aligned_of_eight haligned, get_of_le q (by omega), get_of_le q (by omega), h.filter, h.evId]
  simp only [bind, Except.bind, ofNat_leNat_filter, hid]
  rw [← u.pending.event.arg_length]
  rfl

theorem fill_eq (q : MSEventQueue) (event : Event) (haligned : q.wptr % 8 = 0)
    (hend : q.wptr + event.size ≤ eventBufSize) : ∃ buffer, q.fill event = .ok { q with buffer } ∧
      (∀ i, i < q.wptr ∨ q.wptr + event.size ≤ i → buffer i = q.buffer i) ∧
      Stored buffer ⟨q.wptr, ⟨event, false⟩⟩ := by
  obtain ⟨hsize, -, -⟩ := event.size_spec
  unfold headerSize at hsize
  have hhead : ∀ buffer : Nat → UInt8, load (store (store buffer q.wptr
      (leBytes 8 event.filter.toNat)) (q.wptr + 8) (leBytes 4 event.evId.toNat)) q.wptr 8 =
        leBytes 8 event.filter.toNat := by
    intro buffer
    rw [load_store_of_disjoint _ (.inl (by omega))]
    have := load_store_self buffer q.wptr (leBytes 8 event.filter.toNat)
    rwa [length_leBytes] at this
  have hid : ∀ buffer : Nat → UInt8, load (store buffer (q.wptr + 8)
      (leBytes 4 event.evId.toNat)) (q.wptr + 8) 4 = leBytes 4 event.evId.toNat := by
    intro buffer
    have := load_store_self buffer (q.wptr + 8) (leBytes 4 event.evId.toNat)
    rwa [length_leBytes] at this
  unfold fill
  rw [aligned_of_eight haligned]
  simp only [bind, Except.bind]
  rw [put_of_le q (by simp only [length_leBytes]; omega)]
  dsimp only
  rw [put_of_le _ (by simp only [length_leBytes]; omega)]
  dsimp only
  rw [← event.arg_length, take_length]
  by_cases hsome : event.arg.length > 0
  · rw [if_pos hsome, put_of_le _ (by unfold headerSize; omega)]
    refine ⟨_, rfl, fun i hi => ?_, ⟨?_, ?_, ?_⟩⟩
    · dsimp only
      rw [store_of_outside _ (by unfold headerSize; omega),
        store_of_outside _ (by simp only [length_leBytes]; omega),
        store_of_outside _ (by simp only [length_leBytes]; omega)]
    · dsimp only
      rw [load_store_of_disjoint _ (.inl (by unfold headerSize; omega))]
      exact hhead q.buffer
    · dsimp only
      rw [load_store_of_disjoint _ (.inl (by unfold headerSize; omega))]
      exact hid _
    · exact load_store_self _ _ _
  · have hnil : event.arg = [] := length_eq_zero_iff.mp (by omega)
    rw [if_neg hsome]
    refine ⟨_, rfl, fun i hi => ?_, ⟨hhead q.buffer, hid _, ?_⟩⟩
    · rw [store_of_outside _ (by simp only [length_leBytes]; omega),
        store_of_outside _ (by simp only [length_leBytes]; omega)]
    · simp [hnil, load]

/-! ## Writing -/

/-- The room that the calls take for granted: what is written after a wrap does not reach an event that is
not read, and the queue is not cleaned at the end mark. -/
def MSEventQueue.Admits (q : MSEventQueue) : Call → Prop
  | .write event => q.freeroom < event.size ∨
    if q.wptr + event.size > q.lim then event.size ≤ q.rptr
    else q.freeroom < q.size ∧ q.wptr ≤ q.rptr → q.wptr + event.size ≤ q.rptr
  | .read => True
  | .clean _ => q.freeroom = q.size ∨ q.rptr < q.endptr

/-- What a call does to the bytes of a queue and where it parses: a write keeps the bytes of the events that
are not read and the bytes behind the buffer, and events are parsed where they start. -/
structure CallSound (q : MSEventQueue) (unread : List Unread) (call : Call) (q' : MSEventQueue)
    (parsed : List Nat) : Prop where
  parsed : ∀ start ∈ parsed, ∃ u ∈ unread, u.offset = start
  kept : ∀ event, call = .write event → ∀ u ∈ unread, ∀ i, u.offset ≤ i → i < u.offset + u.size →
    q'.buffer i = q.buffer i
  inside : ∀ i, eventBufSize ≤ i → q'.buffer i = q.buffer i

theorem Holds.nil_iff (h : Holds q unread) : unread = [] ↔ q.freeroom = q.size := by
  have hroom := h.freeroom
  rw [h.size]
  cases unread with
  | nil => exact iff_of_true rfl (by simpa [room] using hroom)
  | cons u us =>
    have := u.pending.event.size_pos
    rw [map_cons, room_cons] at hroom
    exact iff_of_false (by simp) (by omega)

theorem Holds.wrap (h : Holds q unread) (event : Event) (hadmits : q.Admits (.write event))
    (hroom : ¬ q.freeroom < event.size) :
    let u : Unread := ⟨(q.wrap event.size).wptr, ⟨event, false⟩⟩
    let q' := (q.wrap event.size).advance event.size
    u.offset % 8 = 0 ∧ u.offset + event.size ≤ eventBufSize ∧
      q'.endptr ≤ eventBufSize ∧ q'.wptr ≤ q'.endptr ∧ (Straight q' (unread ++ [u]) ∨
        ∃ upper lower, unread ++ [u] = upper ++ lower ∧ Wrapped q' upper lower) := by
  obtain ⟨-, hsize, hlong⟩ := event.size_spec
  have hend := h.endptr
  have hwptr := h.wptr
  have hfree := h.freeroom
  have hlim := h.lim
  have hadmits := hadmits.resolve_left hroom
  unfold MSEventQueue.wrap
  split at hadmits
  · next hlong =>
    -- the events are behind each other: with others before them the room would not suffice
    rw [if_pos hlong]
    unfold advance
    dsimp only
    have hstraight : Straight q unread := by
      obtain hstraight | ⟨upper, lower, rfl, hwrapped⟩ := h.layout
      · exact hstraight
      · have := hwrapped.older.stop_eq
        have := hwrapped.newer.stop_eq
        rw [map_append, room_append] at hfree
        omega
    have hmark : ¬ 0 + event.size > q.wptr := by
      unfold eventBufSize at *
      omega
    rw [if_neg hmark]
    refine ⟨rfl, by unfold eventBufSize; omega, by omega, by omega,
      .inr ⟨unread, [_], rfl, hstraight, ⟨rfl, rfl⟩, ?_, by simp⟩⟩
    simpa using hadmits
  · next hshort =>
    rw [if_neg hshort]
    unfold advance
    dsimp only
    refine ⟨h.wptr_aligned, by omega, ?_, ?_, ?_⟩
    · split <;> omega
    · split <;> omega
    · obtain hstraight | ⟨upper, lower, rfl, hwrapped⟩ := h.layout
      · exact .inl (Chain.append hstraight ⟨rfl, rfl⟩)
      · have hsome : q.freeroom < q.size := by
          have hne : ¬ upper ++ lower = [] := by simp [hwrapped.nonempty]
          rw [h.nil_iff] at hne
          have := h.size
          omega
        have hbelow : q.wptr + event.size ≤ q.rptr := hadmits ⟨hsome, hwrapped.below⟩
        have hrptr := h.rptr_le
        rw [if_neg (by omega)]
        exact .inr ⟨upper, lower ++ [_], append_assoc _ _ _, hwrapped.older,
          hwrapped.newer.append ⟨rfl, rfl⟩, hbelow, by simp⟩

/-- A write puts its event behind the others, or is refused for want of room. -/
theorem Holds.writeEvent (h : Holds q unread) (event : Event) (hadmits : q.Admits (.write event)) :
    ∃ q' unread' accepted, q.writeEvent event = .ok (q', accepted) ∧ Holds q' unread' ∧
      (unread'.map Unread.pending, if accepted then Seen.accepted else Seen.refused) =
        fifoStep (unread.map Unread.pending) (.write event) ∧
      CallSound q unread (.write event) q' [] := by
  have hfree := h.freeroom
  have hsize : roundSize (event.evId &&& 0xff).toNat + headerSize = event.size := by
    rw [← event.arg_length]
    rfl
  unfold MSEventQueue.writeEvent fifoStep
  dsimp only
  rw [hsize]
  by_cases hroom : q.freeroom < event.size
  · rw [if_pos hroom, if_neg (by omega)]
    exact ⟨q, unread, false, rfl, h, rfl, by simp, fun _ _ _ _ _ _ _ => rfl, fun _ _ => rfl⟩
  · rw [if_neg hroom, if_pos (by omega)]
    obtain ⟨haligned, hinside, hend, hwptr, hlayout⟩ := h.wrap event hadmits hroom
    obtain ⟨buffer, hfill, hkeeps, hstored⟩ := fill_eq (q.wrap event.size) event haligned hinside
    have hwrap : (q.wrap event.size).buffer = q.buffer ∧ (q.wrap event.size).lim = q.lim ∧
        (q.wrap event.size).size = q.size ∧ (q.wrap event.size).rptr = q.rptr ∧
        (q.wrap event.size).freeroom = q.freeroom := by
      unfold MSEventQueue.wrap
      split <;> simp
    obtain ⟨hbuffer, hlim, hqsize, hrptr, hfreeroom⟩ := hwrap
    rw [hbuffer] at hkeeps
    simp only [bind, Except.bind, hfill]
    generalize hnew : (⟨(q.wrap event.size).wptr, ⟨event, false⟩⟩ : Unread) = new at *
    have hoffset : new.offset = (q.wrap event.size).wptr := by rw [← hnew]
    have hnewSize : new.size = event.size := by
      rw [← hnew]
      rfl
    have hnewPending : new.pending = ⟨event, false⟩ := by rw [← hnew]
    have hapart : ∀ u ∈ unread, Apart u new := by
      have hchains : (unread ++ [new]).Pairwise Apart := by
        obtain hstraight | ⟨upper, lower, hsplit, hwrapped⟩ := hlayout
        · exact Chain.pairwise hstraight
        · rw [hsplit]
          refine pairwise_append.mpr
            ⟨hwrapped.older.pairwise, hwrapped.newer.pairwise, fun u hu v hv => .inr ?_⟩
          have := hwrapped.older.mem hu
          have := hwrapped.newer.mem hv
          have := hwrapped.below
          omega
      intro u hu
      exact (pairwise_append.mp hchains).2.2 u hu new mem_cons_self
    have hkept : ∀ u ∈ unread, ∀ i, u.offset ≤ i → i < u.offset + u.size →
        buffer i = q.buffer i := by
      intro u hu i hl hu'
      refine hkeeps i ?_
      have := hapart u hu
      unfold Apart at this
      omega
    refine ⟨_, unread ++ [new], true, rfl, ⟨?_, ?_, hend, hwptr, ?_, ?_, ?_,
      hlayout.imp id fun ⟨upper, lower, hsplit, hwrapped⟩ => ⟨upper, lower, hsplit,
        ⟨hwrapped.older, hwrapped.newer, hwrapped.below, hwrapped.nonempty⟩⟩, ?_⟩, ?_,
      by simp, ?_, ?_⟩
    · exact hlim.trans h.lim
    · exact hqsize.trans h.size
    · exact (congrArg (· % 8) hrptr).trans h.rptr_aligned
    · have := event.size_spec.2.1
      change ((q.wrap event.size).wptr + event.size) % 8 = 0
      omega
    · change (q.wrap event.size).freeroom - event.size +
        room ((unread ++ [new]).map Unread.pending) = eventBufSize
      rw [map_append, room_append, hfreeroom, map_singleton, hnewPending]
      simp only [room, map_cons, map_nil, sum_cons, sum_nil] at hfree ⊢
      omega
    · intro u hu
      obtain hu | hu := mem_append.mp hu
      · exact (h.stored u hu).congr (hkept u hu)
      · rw [mem_singleton.mp hu]
        exact hstored
    · simp [hnewPending]
    · intro _ _ u hu i hl hu'
      exact hkept u hu i hl hu'
    · intro i hi
      refine hkeeps i (.inr ?_)
      omega

/-! ## Reading -/

theorem Holds.rest (h : Holds q (u :: us)) {q' : MSEventQueue}
    (hrptr : q'.rptr = u.offset + u.size) (hwptr : q'.wptr = q.wptr) (hend : q'.endptr = q.endptr) :
    Straight q' us ∨ ∃ upper lower, us = upper ++ lower ∧ Wrapped q' upper lower := by
  unfold Straight
  rw [hrptr, hwptr]
  obtain hstraight | ⟨upper, lower, hsplit, hwrapped⟩ := h.layout
  · obtain ⟨hoffset, hchain⟩ := hstraight
    rw [hoffset]
    exact .inl hchain
  · cases upper with
    | nil =>
      rw [nil_append] at hsplit
      obtain ⟨hoffset, hchain⟩ := hsplit ▸ hwrapped.newer
      rw [hoffset]
      exact .inl hchain
    | cons v upper =>
      cases hsplit
      obtain ⟨hoffset, hchain⟩ := hwrapped.older
      refine .inr ⟨upper, lower, rfl, ?_, ?_, ?_, hwrapped.nonempty⟩
      · rw [hrptr, hend, hoffset]
        exact hchain
      · rw [hwptr]
        exact hwrapped.newer
      · have := hwrapped.below
        omega

theorem Holds.readEvent (h : Holds q unread) :
    ∃ q' unread' seen parsed, q.readEvent = .ok (q', seen, parsed) ∧ Holds q' unread' ∧
      (unread'.map Unread.pending, seen) = fifoStep (unread.map Unread.pending) .read ∧
      CallSound q unread .read q' parsed := by
  have hfree := h.freeroom
  have hsize := h.size
  unfold MSEventQueue.readEvent
  cases unread with
  | nil =>
    rw [if_neg (by simp only [room, map_nil, sum_nil] at hfree; omega)]
    exact ⟨q, [], .nothing, [], rfl, h, rfl, by simp, nofun, fun _ _ => rfl⟩
  | cons u us =>
    have hpos := u.pending.event.size_pos
    rw [map_cons, room_cons] at hfree
    rw [if_pos (by omega)]
    obtain ⟨hinside, haligned⟩ := h.mem mem_cons_self
    have hstored := h.stored u mem_cons_self
    have hparse : parseEvent { q with rptr := u.offset } u.offset = .ok u.parsed :=
      parseEvent_of_stored hstored hinside haligned
    have harg : MSEventQueue.get { q with rptr := u.offset } u.parsed.data u.parsed.argsize =
        .ok u.pending.event.arg := by
      have hlong := u.pending.event.size_spec.1
      unfold Unread.size at hinside
      rw [get_of_le]
      · exact congrArg Except.ok hstored.arg
      · change u.offset + headerSize + u.pending.event.arg.length ≤ eventBufSize
        omega
    rw [← h.first]
    simp only [bind, Except.bind, hparse, harg, u.evsize_parsed]
    have hfilter : u.parsed.filter = if u.pending.cleaned then 0 else u.pending.event.filter := rfl
    have hholds : ∀ notifier, Holds { q with
        rptr := u.offset + u.size, freeroom := q.freeroom + u.size,
        currentNotifier := notifier } us := by
      intro notifier
      refine ⟨h.lim, h.size, h.endptr, h.wptr, ?_, h.wptr_aligned, ?_, h.rest rfl rfl rfl,
        fun v hv => h.stored v (mem_cons_of_mem _ hv)⟩
      · have := u.pending.event.size_spec.2.1
        dsimp only
        unfold Unread.size
        omega
      · dsimp only
        unfold Unread.size
        omega
    have hsound : ∀ notifier, CallSound q (u :: us) .read { q with
        rptr := u.offset + u.size, freeroom := q.freeroom + u.size,
        currentNotifier := notifier } [u.offset] :=
      fun _ => ⟨by simp, nofun, fun _ _ => rfl⟩
    cases hcleaned : u.pending.cleaned with
    | true =>
      have hnull : u.parsed.filter = 0 := by simp [hfilter, hcleaned]
      simp only [hnull, ne_eq, not_true_eq_false, if_false]
      refine ⟨_, us, _, _, rfl, hholds _, ?_, hsound _⟩
      simp [fifoStep, hcleaned]
    | false =>
      have hsome : u.parsed.filter = u.pending.event.filter := by simp [hfilter, hcleaned]
      have hne := u.pending.event.filter_ne
      simp only [hsome, ne_eq, hne, not_false_eq_true, if_true]
      refine ⟨_, us, _, _, rfl, hholds _, ?_, hsound _⟩
      simp only [fifoStep, map_cons, hcleaned]
      rfl

/-! ## Cleaning -/

/-- The events are where the cleaning loop looks for them. -/
def Path (endptr : Nat) : Nat → List Unread → Prop
  | _, [] => True
  | start, u :: us => u.offset = start ∧
    Path endptr (backToStart endptr (start + u.size)) us

theorem Chain.path {endptr : Nat} {vs : List Unread} (h : Chain start us endptr)
    (hsome : us ≠ []) (h' : Path endptr 0 vs) : Path endptr start (us ++ vs) := by
  induction us generalizing start with
  | nil => exact absurd rfl hsome
  | cons u us ih =>
    refine ⟨h.1, ?_⟩
    unfold backToStart
    have hstop := h.2.stop_eq
    cases us with
    | nil =>
      rw [if_pos (by simp only [room, map_nil, sum_nil] at hstop; omega)]
      exact h'
    | cons v us =>
      have hpos := v.pending.event.size_pos
      rw [map_cons, room_cons] at hstop
      rw [if_neg (by omega)]
      exact ih h.2 (by simp)

theorem Chain.path_of_le {endptr : Nat} (h : Chain start us stop) (hstop : stop ≤ endptr) :
    Path endptr start us := by
  induction us generalizing start with
  | nil => trivial
  | cons u us ih =>
    refine ⟨h.1, ?_⟩
    unfold backToStart
    cases us with
    | nil => trivial
    | cons v us =>
      have hnext := h.2.stop_eq
      have hpos := v.pending.event.size_pos
      rw [map_cons, room_cons] at hnext
      rw [if_neg (by omega)]
      exact ih h.2

theorem Holds.path (h : Holds q unread) (hadmits : q.freeroom = q.size ∨ q.rptr < q.endptr) :
    Path q.endptr q.rptr unread := by
  obtain hnil | hbefore := hadmits
  · rw [h.nil_iff.mpr hnil]
    trivial
  · obtain hstraight | ⟨upper, lower, rfl, hwrapped⟩ := h.layout
    · exact Chain.path_of_le hstraight h.wptr
    · refine hwrapped.older.path ?_ (hwrapped.newer.path_of_le h.wptr)
      rintro rfl
      have : q.rptr = q.endptr := hwrapped.older
      omega

/-- An event whose filter is destroyed. -/
def Unread.clean (destroyed : UInt64) (u : Unread) : Unread :=
  { u with pending := { u.pending with
    cleaned := u.pending.cleaned || u.pending.event.filter = destroyed } }

/-- The filter of an event is overwritten when it is destroyed. -/
def wipe (destroyed : UInt64) (buffer : Nat → UInt8) (u : Unread) : Nat → UInt8 :=
  if u.filter = destroyed then store buffer u.offset (leBytes 8 0) else buffer

variable {destroyed : UInt64}

theorem wipe_of_outside (buffer : Nat → UInt8) {i : Nat}
    (h : i < u.offset ∨ u.offset + u.size ≤ i) : wipe destroyed buffer u i = buffer i := by
  have := u.pending.event.size_pos
  unfold Unread.size at h
  unfold wipe
  split
  · exact store_of_outside _ (by simp only [length_leBytes]; omega)
  · rfl

theorem Stored.wipe (h : Stored buffer u) (destroyed : UInt64) :
    Stored (wipe destroyed buffer u) (u.clean destroyed) := by
  unfold Media.wipe
  split
  · next heq =>
    have hnull : (u.clean destroyed).filter = 0 := by
      unfold Unread.filter at heq ⊢
      unfold Unread.clean
      cases hcleaned : u.pending.cleaned <;> simp_all
    refine ⟨?_, ?_, ?_⟩
    · have := load_store_self buffer u.offset (leBytes 8 0)
      rw [hnull]
      exact this
    · exact (load_store_of_disjoint _ (.inr (by simp [Unread.clean]))).trans h.evId
    · refine (load_store_of_disjoint _ (.inr ?_)).trans h.arg
      simp only [length_leBytes, Unread.clean, headerSize]
      omega
  · next hother =>
    refine ⟨?_, h.evId, h.arg⟩
    have hsame : (u.clean destroyed).filter = u.filter := by
      unfold Unread.filter at hother ⊢
      unfold Unread.clean
      cases hcleaned : u.pending.cleaned <;> simp_all
    rw [hsame]
    exact h.filter

theorem foldl_wipe_of_apart (buffer : Nat → UInt8) {i : Nat}
    (h : ∀ u ∈ us, i < u.offset ∨ u.offset + u.size ≤ i) :
    us.foldl (wipe destroyed) buffer i = buffer i := by
  induction us generalizing buffer with
  | nil => rfl
  | cons u us ih =>
    refine (ih _ fun v hv => h v (mem_cons_of_mem _ hv)).trans ?_
    exact wipe_of_outside buffer (h u mem_cons_self)

theorem stored_foldl_wipe (hapart : us.Pairwise Apart) (h : ∀ u ∈ us, Stored buffer u) :
    ∀ u ∈ us, Stored (us.foldl (wipe destroyed) buffer) (u.clean destroyed) := by
  induction us generalizing buffer with
  | nil => nofun
  | cons u us ih =>
    obtain ⟨hfirst, hrest⟩ := pairwise_cons.mp hapart
    intro v hv
    cases hv with
    | head =>
      refine ((h u mem_cons_self).wipe destroyed).congr fun i hl hu => ?_
      refine foldl_wipe_of_apart (wipe destroyed buffer u) fun v hv => ?_
      have := hfirst v hv
      unfold Apart at this
      change u.offset ≤ i at hl
      change i < u.offset + u.size at hu
      omega
    | tail _ hv =>
      refine ih hrest (fun w hw => ?_) v hv
      refine (h w (mem_cons_of_mem _ hw)).congr fun i hl hu => wipe_of_outside buffer ?_
      have := hfirst w hw
      unfold Apart at this
      omega

theorem cleanLoop_eq (destroyed : UInt64) (q : MSEventQueue) (fuel freeroom : Nat)
    (hpath : Path q.endptr start us) (hapart : us.Pairwise Apart)
    (hmem : ∀ u ∈ us, u.offset + u.size ≤ eventBufSize ∧ u.offset % 8 = 0)
    (hstored : ∀ u ∈ us, Stored q.buffer u)
    (hfree : freeroom + room (us.map Unread.pending) = q.size) (hfuel : us.length < fuel) :
    cleanLoop destroyed fuel q start freeroom =
      .ok ({ q with buffer := us.foldl (wipe destroyed) q.buffer }, us.map Unread.offset) := by
  induction us generalizing start q fuel freeroom with
  | nil =>
    obtain _ | fuel := fuel
    · cases hfuel
    · simp only [room, map_nil, sum_nil] at hfree
      rw [cleanLoop, if_neg (by omega)]
      rfl
  | cons u us ih =>
    obtain _ | fuel := fuel
    · cases hfuel
    obtain ⟨rfl, hnext⟩ := hpath
    obtain ⟨hfirst, hrest⟩ := pairwise_cons.mp hapart
    obtain ⟨hinside, haligned⟩ := hmem u mem_cons_self
    have hpos := u.pending.event.size_pos
    rw [map_cons, room_cons] at hfree
    have hparse : q.parseEvent u.offset = .ok u.parsed :=
      parseEvent_of_stored (hstored u mem_cons_self) hinside haligned
    have hput : q.forget destroyed u.offset u.parsed =
        .ok { q with buffer := wipe destroyed q.buffer u } := by
      unfold forget wipe Unread.parsed
      split
      · refine put_of_le q ?_
        unfold Unread.size at hinside
        simp only [length_leBytes]
        omega
      · rfl
    rw [cleanLoop, if_pos (by omega)]
    simp only [bind, Except.bind, hparse, hput, u.evsize_parsed]
    rw [ih { q with buffer := wipe destroyed q.buffer u } fuel (freeroom + u.size) hnext hrest
      (fun v hv => hmem v (mem_cons_of_mem _ hv)) (fun v hv => ?_)
      (by change freeroom + u.size + _ = q.size; unfold Unread.size; omega) (by simpa using hfuel)]
    · rfl
    · refine (hstored v (mem_cons_of_mem _ hv)).congr fun i hl hu => wipe_of_outside _ ?_
      have := hfirst v hv
      unfold Apart at this
      omega

theorem Chain.clean (h : Chain start us stop) (destroyed : UInt64) :
    Chain start (us.map (Unread.clean destroyed)) stop := by
  induction us generalizing start with
  | nil => exact h
  | cons u us ih => exact ⟨h.1, ih h.2⟩

theorem room_clean (destroyed : UInt64) (us : List Unread) :
    room ((us.map (Unread.clean destroyed)).map Unread.pending) = room (us.map Unread.pending) := by
  simp [room, Unread.clean, Function.comp_def]

theorem length_le_room (us : List Unread) : us.length ≤ room (us.map Unread.pending) := by
  induction us with
  | nil => exact Nat.zero_le _
  | cons u us ih =>
    have := u.pending.event.size_pos
    rw [map_cons, room_cons, length_cons]
    omega

theorem Holds.clean (h : Holds q unread) (hadmits : q.Admits (.clean destroyed)) :
    ∃ q' parsed, q.clean destroyed = .ok (q', parsed) ∧
      Holds q' (unread.map (Unread.clean destroyed)) ∧
      CallSound q unread (.clean destroyed) q' parsed := by
  have hfree := h.freeroom
  have hloop := cleanLoop_eq destroyed q (q.size + 1) q.freeroom (h.path hadmits) h.pairwise
    (fun u hu => h.mem hu) h.stored (hfree.trans h.size.symm) (by
      have := length_le_room unread
      have := h.size
      omega)
  unfold MSEventQueue.clean
  simp only [bind, Except.bind, hloop]
  refine ⟨_, _, rfl, ⟨h.lim, h.size, h.endptr, h.wptr, h.rptr_aligned, h.wptr_aligned, ?_, ?_, ?_⟩,
    ?_, nofun, fun i hi => ?_⟩
  · rw [room_clean]
    exact hfree
  · obtain hstraight | ⟨upper, lower, rfl, hwrapped⟩ := h.layout
    · exact .inl (Chain.clean hstraight destroyed)
    · exact .inr ⟨_, _, map_append, hwrapped.older.clean destroyed,
        hwrapped.newer.clean destroyed, hwrapped.below, by simp [hwrapped.nonempty]⟩
  · intro u hu
    obtain ⟨v, hv, rfl⟩ := mem_map.mp hu
    exact stored_foldl_wipe h.pairwise h.stored v hv
  · intro start hstart
    obtain ⟨u, hu, rfl⟩ := mem_map.mp hstart
    exact ⟨u, hu, rfl⟩
  · refine foldl_wipe_of_apart _ fun u hu => .inr ?_
    have := (h.mem hu).1
    omega

/-! ## Runs -/

theorem Holds.step (h : Holds q unread) {call : Call} (hadmits : q.Admits call) :
    ∃ q' unread' seen parsed, q.step call = .ok (q', seen, parsed) ∧ Holds q' unread' ∧
      (unread'.map Unread.pending, seen) = fifoStep (unread.map Unread.pending) call ∧
      CallSound q unread call q' parsed := by
  cases call with
  | write event =>
    obtain ⟨q', unread', accepted, hwrite, hholds, hfifo, hsound⟩ := h.writeEvent event hadmits
    refine ⟨q', unread', _, [], ?_, hholds, hfifo, hsound⟩
    simp only [MSEventQueue.step, bind, Except.bind, hwrite]
  | read => exact h.readEvent
  | clean destroyed =>
    obtain ⟨q', parsed, hclean, hholds, hsound⟩ := h.clean hadmits
    refine ⟨q', _, .cleaned, parsed, ?_, hholds, ?_, hsound⟩
    · simp only [MSEventQueue.step, bind, Except.bind, hclean]
    · simp only [fifoStep, map_map]
      rfl

/-- Every call of a run finds the room that it takes for granted. -/
def MSEventQueue.Admitted (q : MSEventQueue) : List Call → Prop
  | [] => True
  | call :: calls => q.Admits call ∧
    ∀ q' seen parsed, q.step call = .ok (q', seen, parsed) → q'.Admitted calls

theorem Holds.run (h : Holds q unread) {calls : List Call} (hadmitted : q.Admitted calls) :
    ∃ q' unread', q.run calls = .ok (q', (fifoRun (unread.map Unread.pending) calls).2) ∧
      Holds q' unread' ∧
      unread'.map Unread.pending = (fifoRun (unread.map Unread.pending) calls).1 := by
  induction calls generalizing q unread with
  | nil => exact ⟨q, unread, rfl, h, rfl⟩
  | cons call calls ih =>
    obtain ⟨hadmits, hrest⟩ := hadmitted
    obtain ⟨q', unread', seen, parsed, hstep, hholds, hfifo, -⟩ := h.step hadmits
    obtain ⟨q'', unread'', hrun, hholds', hpending⟩ := ih hholds (hrest q' seen parsed hstep)
    have hseen : seen = (fifoStep (unread.map Unread.pending) call).2 := congrArg Prod.snd hfifo
    have hnext : unread'.map Unread.pending = (fifoStep (unread.map Unread.pending) call).1 :=
      congrArg Prod.fst hfifo
    rw [hnext] at hrun hpending
    refine ⟨q'', unread'', ?_, hholds', hpending⟩
    rw [run, hstep]
    simp only [bind, Except.bind, hrun, fifoRun, hseen]

theorem holds_new : Holds .new [] :=
  ⟨rfl, rfl, Nat.le_refl _, Nat.zero_le _, rfl, rfl, rfl, .inl rfl, nofun⟩

/-- While every call finds its room, a queue sees what a first-in first-out queue sees, keeps the bytes of
its events and parses events where they start. -/
theorem MSEventQueue.run_fifo (calls : List Call) (h : new.Admitted calls) :
    ∃ q unread, new.run calls = .ok (q, (fifoRun [] calls).2) ∧ Holds q unread ∧
      unread.map Unread.pending = (fifoRun [] calls).1 ∧
      ∀ call, q.Admits call → ∃ q' seen parsed, q.step call = .ok (q', seen, parsed) ∧
        seen = (fifoStep (fifoRun [] calls).1 call).2 ∧ CallSound q unread call q' parsed := by
  obtain ⟨q, unread, hrun, hholds, hpending⟩ := holds_new.run h
  refine ⟨q, unread, hrun, hholds, hpending, fun call hadmits => ?_⟩
  obtain ⟨q', unread', seen, parsed, hstep, -, hfifo, hsound⟩ := hholds.step hadmits
  refine ⟨q', seen, parsed, hstep, ?_, hsound⟩
  rw [hpending] at hfifo
  exact congrArg Prod.snd hfifo

/-- An event of a filter whose argument is zero. -/
def zeroEvent (evId : UInt32) : Event where
  filter := 4096
  evId := evId
  arg := List.replicate (evId &&& 0xff).toNat 0
  filter_ne := by decide
  arg_length := length_replicate

/-- An event is written and read. -/
theorem MSEventQueue.run_fifo_writeRead : new.Admitted [.write (zeroEvent 8), .read] ∧
      ∃ q, new.run [.write (zeroEvent 8), .read] =
        .ok (q, [.accepted, .dispatched 4096 8 (List.replicate 8 0)]) := by
  have hadmitted : new.Admitted [.write (zeroEvent 8), .read] :=
    ⟨.inr (by decide), fun _ _ _ _ => ⟨trivial, fun _ _ _ _ => trivial⟩⟩
  obtain ⟨q, -, hrun, -⟩ := run_fifo [.write (zeroEvent 8), .read] hadmitted
  exact ⟨hadmitted, q, hrun⟩

/-- Writes up to the end of the buffer, a read, and a write that wraps around. -/
def wrappingCalls : List Call :=
  .write (zeroEvent 0) :: (List.replicate 30 (.write (zeroEvent 255)) ++
    [.read, .write (zeroEvent 16), .read])

/-- A write that wraps around is accepted and overwrites the next event, which is then skipped. -/
theorem run_overwritesUnread :
    ((new.run wrappingCalls).toOption.bind fun r => r.2.getLast?) = some .skipped ∧
      (fifoRun [] wrappingCalls).2.getLast? =
        some (.dispatched 4096 255 (List.replicate 255 0)) := by
  constructor <;> decide +kernel

end GrooveIp.Media
