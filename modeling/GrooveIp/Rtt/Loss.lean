import GrooveIp.Rtt.Redundancy
import Mathlib.Data.List.GetD
import Mathlib.Data.List.ReduceOption

/-!
# Real-time text over a lossy network

Packets are lost, come twice or come late. As long as the characters are below `0x10000` and the sequence
numbers say how many packets are missing, the sink notifies the text that was typed, with one mark for each
gap of more than two packets.
-/

namespace GrooveIp.Rtt

open GrooveIp.Lib List RealTimeTextSinkData
open UInt16 (ofNat)

/-! ## Runs -/

/-- A source runs: the packets that it sends. -/
def RealTimeTextSourceData.run (stream : RealTimeTextSourceData) :
    List SourceEvent → Except Fault (RealTimeTextSourceData × List TextPacket)
  | [] => .ok (stream, [])
  | event :: events => do
    let (stream, packet) ← stream.step event
    let (stream, packets) ← stream.run events
    .ok (stream, packet.toList ++ packets)

/-- A sink runs: the characters that it notifies for each packet. -/
def RealTimeTextSinkData.run (sink : RealTimeTextSinkData) :
    List Received → Except Fault (RealTimeTextSinkData × List (List Nat))
  | [] => .ok (sink, [])
  | packet :: packets => do
    let (sink, characters) ← sink.process packet
    let (sink, later) ← sink.run packets
    .ok (sink, characters :: later)

/-- The text that is typed between two packets of a source, for each packet. -/
def texts (stream : RealTimeTextSourceData) (typed : List Nat) : List SourceEvent → List (List Nat)
  | [] => []
  | .put c :: events => texts (stream.putchar32 c) (typed ++ [c]) events
  | .tick time :: events =>
    match stream.step (.tick time) with
    | .ok (stream, some _) => typed :: texts stream [] events
    | .ok (stream, none) => texts stream typed events
    | .error _ => []

/-- The bytes of a character in UTF-8. -/
def utf8Size (c : Nat) : Nat := if c < 0x80 then 1 else if c < 0x800 then 2 else if c < 0x10000 then 3 else 4

/-- No more than 300 bytes of text are typed between two packets. -/
def Paced (stream : RealTimeTextSourceData) (typed : List Nat) : List SourceEvent → Prop
  | [] => True
  | .put c :: events => ((typed ++ [c]).map utf8Size).sum ≤ 300 ∧
    Paced (stream.putchar32 c) (typed ++ [c]) events
  | .tick time :: events =>
    match stream.step (.tick time) with
    | .ok (stream, some _) => Paced stream [] events
    | .ok (stream, none) => Paced stream typed events
    | .error _ => True

/-- The packets that arrive, named by the order in which they were sent. -/
def arrivals (start : Nat) (packets : List TextPacket) (deliveries : List Nat) : List Received :=
  deliveries.filterMap fun n => packets[n]?.map fun packet => ⟨ofNat (start + n), packet.payload⟩

/-! ## What a sink should notify -/

/-- The text of some packets in a row. -/
def textOf (texts : List (List Nat)) (first count : Nat) : List Nat :=
  (List.range' first count).flatMap fun n => texts.getD n []

/-- What a packet should bring to a sink that has the packets up to another: nothing when it is late, the
text that is missing up to it when at most two packets are lost, and else a mark and the text it carries. -/
def arrival (texts : List (List Nat)) (last n : Nat) : List (Option Nat) :=
  if n ≤ last then []
  else if n - last ≤ 3 then (textOf texts (last + 1) (n - last)).map some
  else none :: (textOf texts (n - 2) 3).map some

/-- What packets should bring one after the other. -/
def expected (texts : List (List Nat)) (last : Nat) : List Nat → List (List (Option Nat))
  | [] => []
  | n :: deliveries => arrival texts last n :: expected texts (max last n) deliveries

/-- How a mark or a character is notified. -/
def shown (item : Option Nat) : Nat := item.getD 0xFFFD

theorem flatten_drop (texts : List (List Nat)) (first count : Nat) :
    (texts.drop first).flatten = textOf texts first count ++ (texts.drop (first + count)).flatten := by
  unfold textOf
  induction count generalizing first with
  | zero => simp
  | succ count ih =>
    rw [range'_succ, flatMap_cons, append_assoc]
    have hrest := ih (first + 1)
    rw [show first + 1 + count = first + (count + 1) by omega] at hrest
    rw [← hrest]
    by_cases hin : first < texts.length
    · rw [drop_eq_getElem_cons hin, flatten_cons, getD_eq_getElem _ _ hin]
    · rw [drop_eq_nil_of_le (by omega), drop_eq_nil_of_le (by omega),
        getD_eq_default _ _ (by omega)]
      rfl

theorem expected_sublist (texts : List (List Nat)) (last : Nat) (deliveries : List Nat) :
    (expected texts last deliveries).flatten.reduceOption.Sublist (texts.drop (last + 1)).flatten := by
  induction deliveries generalizing last with
  | nil => exact nil_sublist _
  | cons n deliveries ih =>
    have hrest := ih (max last n)
    rw [expected, flatten_cons, reduceOption_append]
    unfold arrival
    split
    · next hlate =>
      rw [Nat.max_eq_left hlate] at hrest ⊢
      exact hrest
    · next hnew =>
      rw [Nat.max_eq_right (by omega)] at hrest ⊢
      have hmap : ∀ cs : List Nat, (cs.map some).reduceOption = cs := by
        intro cs
        simp [List.reduceOption]
      split
      · rw [hmap, flatten_drop texts (last + 1) (n - last),
          show last + 1 + (n - last) = n + 1 by omega]
        exact hrest.append_left _
      · rw [reduceOption_cons_of_none, hmap, flatten_drop texts (last + 1) (n - 2 - (last + 1)),
          show last + 1 + (n - 2 - (last + 1)) = n - 2 by omega, flatten_drop texts (n - 2) 3,
          show n - 2 + 3 = n + 1 by omega]
        exact (hrest.append_left _).trans (sublist_append_right _ _)

/-! ## What the packets of a source carry -/

theorem length_encode {cs : List Nat} (h : ∀ c ∈ cs, Plain c) :
    (encode cs).length = (cs.map utf8Size).sum := by
  induction cs with
  | nil => rfl
  | cons c cs ih =>
    have hlt := (h c mem_cons_self).2
    have hsize : (encodeChar c).length = utf8Size c := by
      unfold utf8Size
      obtain ⟨hone, heq⟩ | ⟨hlow, htwo, heq⟩ | ⟨hthree, heq⟩ :=
        encodeChar_of_plain (h c mem_cons_self)
      · rw [heq, if_pos hone]
        rfl
      · rw [heq, if_neg (by omega), if_pos htwo]
        rfl
      · rw [heq, if_neg (by omega), if_neg (by omega), if_pos hlt]
        rfl
    rw [encode, flatMap_cons, length_append, map_cons, sum_cons, hsize,
      ← ih fun c hc => h c (mem_cons_of_mem _ hc)]
    rfl

/-- The text of a block: its characters without the byte order marks. -/
def spoken (block : List Nat) : List Nat := block.filter (· ≠ 0xFEFF)

/-- The packets carry the blocks that follow two others, each with the two before it. -/
def CarryAll (pt : Int) (packets : List TextPacket) (blocks : List (List Nat)) : Prop :=
  packets.length + 2 = blocks.length ∧ ∀ n packet, packets[n]? = some packet →
    Carries pt packet.payload (blocks.getD n []) (blocks.getD (n + 1) []) (blocks.getD (n + 2) [])

variable {pt : Int} {older old typed : List Nat} {stream : RealTimeTextSourceData}

/-- A run of the source sends what is typed, each text with the two before it. -/
theorem Buffered.run (h : Buffered pt older old typed stream) {events : List SourceEvent}
    (hpaced : Paced stream typed events) (htyped : ∀ c ∈ typed, c ≠ 0xFEFF)
    (hchars : ∀ c, SourceEvent.put c ∈ events → Plain c ∧ c ≠ 0xFEFF) :
    ∃ stream' packets blocks, stream.run events = .ok (stream', packets) ∧
      blocks.map spoken = texts stream typed events ∧ (∀ block ∈ blocks, Short block) ∧
      CarryAll pt packets (older :: old :: blocks) := by
  induction events generalizing stream older old typed with
  | nil => exact ⟨stream, [], [], rfl, rfl, nofun, rfl, nofun⟩
  | cons event events ih =>
    have hlater : ∀ c, SourceEvent.put c ∈ events → Plain c ∧ c ≠ 0xFEFF :=
      fun c hc => hchars c (mem_cons_of_mem _ hc)
    cases event with
    | put c =>
      obtain ⟨hc, hmark⟩ := hchars c mem_cons_self
      obtain ⟨hsize, hpaced⟩ := hpaced
      have hplain : ∀ d ∈ typed ++ [c], Plain d := by
        intro d hd
        obtain hd | hd := mem_append.mp hd
        · exact h.typed.plain d hd
        · rw [mem_singleton.mp hd]
          exact hc
      rw [← length_encode hplain] at hsize
      have htyped' : ∀ d ∈ typed ++ [c], d ≠ 0xFEFF := by
        intro d hd
        obtain hd | hd := mem_append.mp hd
        · exact htyped d hd
        · rw [mem_singleton.mp hd]
          exact hmark
      obtain ⟨stream', packets, blocks, hrun, hrest⟩ :=
        ih (h.put hc hsize) hpaced htyped' hlater
      refine ⟨stream', packets, blocks, ?_, hrest⟩
      rw [RealTimeTextSourceData.run]
      simp only [RealTimeTextSourceData.step, bind, Except.bind, hrun]
      rfl
    | tick time =>
      unfold Paced at hpaced
      unfold texts
      rw [RealTimeTextSourceData.run]
      obtain ⟨next, packet, text, hstep, htext, hshort, hcarries, hbuffered⟩ | hstep := h.tick time
      · rw [hstep] at hpaced ⊢
        obtain ⟨stream', packets, blocks, hrun, hmap, hblocks, hlength, hall⟩ :=
          ih hbuffered hpaced nofun hlater
        refine ⟨stream', packet :: packets, text :: blocks, ?_, ?_, ?_, ?_, ?_⟩
        · simp only [bind, Except.bind, hrun]
          rfl
        · rw [map_cons, hmap]
          have htyped' : typed.filter (· ≠ 0xFEFF) = typed :=
            filter_eq_self.mpr fun c hc => by simpa using htyped c hc
          unfold spoken
          rw [htext, htyped']
        · exact forall_mem_cons.mpr ⟨hshort, hblocks⟩
        · simp only [length_cons] at hlength ⊢
          omega
        · intro n sent hsent
          cases n with
          | zero =>
            cases hsent
            exact hcarries
          | succ n => exact hall n sent hsent
      · rw [hstep] at hpaced ⊢
        obtain ⟨stream', packets, blocks, hrun, hrest⟩ := ih h hpaced htyped hlater
        refine ⟨stream', packets, blocks, ?_, hrest⟩
        simp only [bind, Except.bind, hrun]
        rfl

/-! ## Sequence numbers -/

/-- The sequence number of a packet. -/
def seqOf (start n : Nat) : Nat := (start + n) % 65536

/-- Packets are displaced by fewer than 100 positions. -/
def Displaced (last : Nat) : List Nat → Prop
  | [] => True
  | n :: deliveries => last < n + 100 ∧ Displaced (max last n) deliveries

/-- The sequence number of a packet says how many are missing before it: those of late packets are not
behind a wrap, and those of newer ones are less than a full turn ahead. -/
def Counts (start last n : Nat) : Prop :=
  if n ≤ last then seqOf start n ≤ seqOf start last
  else n < last + 65536 ∧ (seqOf start n < seqOf start last →
    seqOf start n + 100 < seqOf start last)

/-- The sequence numbers of all packets say how many are missing. -/
def Counted (start last : Nat) : List Nat → Prop
  | [] => True
  | n :: deliveries => Counts start last n ∧ Counted start (max last n) deliveries

theorem redNeeded_late {start last n : Nat} (hlate : n ≤ last) (hdisplaced : last < n + 100)
    (hcounts : Counts start last n) : redNeeded (seqOf start n) (seqOf start last) = -1 := by
  unfold Counts at hcounts
  rw [if_pos hlate] at hcounts
  unfold seqOf at *
  unfold redNeeded
  rw [if_neg (by omega), if_neg (by omega)]

theorem redNeeded_new {start last n : Nat} (hnew : last < n) (hcounts : Counts start last n) :
    redNeeded (seqOf start n) (seqOf start last) = n - last - 1 := by
  unfold Counts at hcounts
  rw [if_neg (by omega)] at hcounts
  unfold seqOf at *
  unfold redNeeded
  dsimp only
  split
  · omega
  · rw [if_pos (by omega)]
    omega

/-! ## What a sink notifies -/

theorem getD_blocks (blocks : List (List Nat)) (n : Nat) :
    spoken (([] :: [] :: blocks).getD (n + 2) []) = (blocks.map spoken).getD n [] := by
  rw [getD_cons_succ, getD_cons_succ]
  by_cases hin : n < blocks.length
  · rw [getD_eq_getElem _ _ hin, getD_eq_getElem _ _ (by simpa using hin), getElem_map]
  · rw [getD_eq_default _ _ (by omega), getD_eq_default _ _ (by simpa using hin)]
    rfl

theorem spoken_append (first second : List Nat) :
    spoken (first ++ second) = spoken first ++ spoken second := filter_append ..

theorem heard_zero (older old new : List Nat) : heard 0 older old new = spoken new := rfl

theorem heard_one (older old new : List Nat) :
    heard 1 older old new = spoken old ++ spoken new := spoken_append old new

theorem heard_more {lost : Int} (h : 2 ≤ lost) (older old new : List Nat) :
    heard lost older old new = (if lost > 2 then [0xFFFD] else []) ++
      (spoken older ++ (spoken old ++ spoken new)) := by
  have htaken : taken lost older old new = older ++ (old ++ new) := by
    unfold taken
    rw [if_neg (by omega), if_neg (by omega)]
  rw [← spoken_append, ← spoken_append, ← htaken]
  rfl

theorem heard_eq (blocks : List (List Nat)) {last n : Nat} (h : last < n) :
    heard (n - last - 1) (([] :: [] :: blocks).getD n []) (([] :: [] :: blocks).getD (n + 1) [])
        (([] :: [] :: blocks).getD (n + 2) []) =
      (arrival (blocks.map spoken) last n).map shown := by
  have hshown : ∀ cs : List Nat, (cs.map some).map shown = cs := by
    intro cs
    rw [map_map]
    exact map_id cs
  have hblock := getD_blocks blocks
  unfold arrival textOf
  rw [if_neg (by omega)]
  obtain ⟨k, rfl⟩ : ∃ k, n = last + 1 + k := ⟨n - last - 1, by omega⟩
  by_cases hshort : k < 3
  · rw [if_pos (by omega), hshown, show last + 1 + k - last = k + 1 by omega]
    match k with
    | 0 =>
      rw [show (((last + 1 + 0 : Nat) : Int) - last - 1) = 0 by omega, heard_zero,
        hblock (last + 1 + 0)]
      simp [List.range']
    | 1 =>
      rw [show (((last + 1 + 1 : Nat) : Int) - last - 1) = 1 by omega, heard_one,
        show last + 1 + 1 + 1 = last + 1 + 2 by omega, hblock (last + 1), hblock (last + 1 + 1)]
      simp [List.range']
    | 2 =>
      rw [heard_more (by omega), if_neg (by omega),
        show last + 1 + 2 + 1 = last + 1 + 1 + 2 by omega, hblock (last + 1),
        hblock (last + 1 + 1), hblock (last + 1 + 2)]
      simp [List.range']
    | k + 3 => omega
  · rw [if_neg (by omega), map_cons, hshown, heard_more (by omega), if_pos (by omega),
      show last + 1 + k = last + k - 1 + 2 by omega,
      show last + k - 1 + 2 + 1 = last + k - 1 + 1 + 2 by omega, hblock (last + k - 1),
      hblock (last + k - 1 + 1), hblock (last + k - 1 + 2)]
    simp [List.range', shown]

/-- A sink that has a packet is ready for the next. -/
structure Ready (pt : Int) (start last : Nat) (sink : RealTimeTextSinkData) : Prop where
  ptT140 : sink.ptT140 = pt
  ptRed : sink.ptRed > 0
  notFirst : sink.notFirst = true
  prevseqno : sink.prevseqno = seqOf start last

theorem toNat_seqno (start n : Nat) : (ofNat (start + n)).toNat = seqOf start n :=
  UInt16.toNat_ofNat'

theorem short_getD {blocks : List (List Nat)} (h : ∀ block ∈ blocks, Short block) (n : Nat) :
    Short (([] :: [] :: blocks).getD n []) := by
  have hnil : Short [] := ⟨nofun, Nat.zero_le _⟩
  by_cases hin : n < ([] :: [] :: blocks).length
  · rw [getD_eq_getElem _ _ hin]
    have hmem := getElem_mem hin
    simp only [mem_cons] at hmem
    obtain hnone | hnone | hmem := hmem
    · rw [hnone]
      exact hnil
    · rw [hnone]
      exact hnil
    · exact h _ hmem
  · rw [getD_eq_default _ _ (by omega)]
    exact hnil

variable {start last : Nat} {packets : List TextPacket} {blocks : List (List Nat)}

theorem Ready.process {sink : RealTimeTextSinkData} (h : Ready pt start last sink)
    (hpt : 0 ≤ pt ∧ pt < 128) (hcarry : CarryAll pt packets ([] :: [] :: blocks))
    (hshort : ∀ block ∈ blocks, Short block) {n : Nat} {packet : TextPacket}
    (hpacket : packets[n]? = some packet) (hdisplaced : last < n + 100)
    (hcounts : Counts start last n) :
    ∃ sink', sink.process ⟨ofNat (start + n), packet.payload⟩ =
        .ok (sink', (arrival (blocks.map spoken) last n).map shown) ∧
      Ready pt start (max last n) sink' := by
  have hcarries := hcarry.2 n packet hpacket
  have hneeded : sink.needed (ofNat (start + n)).toNat =
      redNeeded (seqOf start n) (seqOf start last) := by
    unfold needed
    rw [if_pos h.notFirst, h.prevseqno, toNat_seqno]
  by_cases hlate : n ≤ last
  · rw [redNeeded_late hlate hdisplaced hcounts] at hneeded
    have hprocess := hcarries.process_late hpt h.ptT140 h.ptRed (ofNat (start + n))
      (by rw [hneeded]; decide)
    have hnothing : (arrival (blocks.map spoken) last n).map shown = [] := by
      unfold arrival
      rw [if_pos hlate]
      rfl
    rw [hnothing, Nat.max_eq_left hlate]
    exact ⟨_, hprocess, h.ptT140, h.ptRed, rfl, h.prevseqno⟩
  · have hnew : last < n := by omega
    rw [redNeeded_new hnew hcounts] at hneeded
    have hprocess := hcarries.process hpt h.ptT140 h.ptRed (short_getD hshort n)
      (short_getD hshort (n + 1)) (short_getD hshort (n + 2)) (ofNat (start + n))
      (by rw [hneeded]; omega)
    rw [hneeded, heard_eq blocks hnew] at hprocess
    refine ⟨_, hprocess, ?_⟩
    rw [Nat.max_eq_right (Nat.le_of_lt hnew)]
    refine ⟨h.ptT140, h.ptRed, rfl, ?_⟩
    rw [toNat_seqno]

theorem Ready.run {sink : RealTimeTextSinkData} (h : Ready pt start last sink)
    (hpt : 0 ≤ pt ∧ pt < 128) (hcarry : CarryAll pt packets ([] :: [] :: blocks))
    (hshort : ∀ block ∈ blocks, Short block) {deliveries : List Nat}
    (hsent : ∀ n ∈ deliveries, n < packets.length) (hdisplaced : Displaced last deliveries)
    (hcounted : Counted start last deliveries) :
    ∃ sink', sink.run (arrivals start packets deliveries) =
      .ok (sink', (expected (blocks.map spoken) last deliveries).map (List.map shown)) := by
  induction deliveries generalizing last sink with
  | nil => exact ⟨sink, rfl⟩
  | cons n deliveries ih =>
    have hn := hsent n mem_cons_self
    have hpacket := List.getElem?_eq_getElem hn
    obtain ⟨next, hprocess, hready⟩ :=
      h.process hpt hcarry hshort hpacket hdisplaced.1 hcounted.1
    obtain ⟨sink', hrun⟩ := ih hready (fun m hm => hsent m (mem_cons_of_mem _ hm))
      hdisplaced.2 hcounted.2
    refine ⟨sink', ?_⟩
    have harrivals : arrivals start packets (n :: deliveries) =
        ⟨ofNat (start + n), packets[n].payload⟩ :: arrivals start packets deliveries := by
      unfold arrivals
      rw [filterMap_cons, hpacket]
      rfl
    rw [harrivals, run, hprocess]
    simp only [bind, Except.bind, hrun]
    rfl

/-- The text that is typed survives the network: after the first packet each packet brings what it should,
which is the text in its order, but for one mark for each gap of more than two packets. -/
theorem text_survives (pt ptRed : Int) (hpt : 0 ≤ pt ∧ pt < 128) (hred : 0 < ptRed)
    (events : List SourceEvent) (hpaced : Paced (.new pt ptRed) [] events)
    (hchars : ∀ c, SourceEvent.put c ∈ events → 0 < c ∧ c < 0x10000 ∧ c ≠ 0xFEFF)
    (start first : Nat) (deliveries : List Nat)
    (hsent : ∀ n ∈ first :: deliveries, n < (texts (.new pt ptRed) [] events).length)
    (hdisplaced : Displaced first deliveries) (hcounted : Counted start first deliveries) :
    ∃ stream packets sink,
      (RealTimeTextSourceData.new pt ptRed).run events = .ok (stream, packets) ∧
      (new pt ptRed).run (arrivals start packets (first :: deliveries)) =
        .ok (sink, (texts (.new pt ptRed) [] events).getD first [] ::
          (expected (texts (.new pt ptRed) [] events) first deliveries).map (List.map shown)) ∧
      (expected (texts (.new pt ptRed) [] events) first deliveries).flatten.reduceOption.Sublist
        ((texts (.new pt ptRed) [] events).drop (first + 1)).flatten := by
  have hnil : Short [] := ⟨nofun, Nat.zero_le _⟩
  have hnew : Buffered pt [] [] [] (.new pt ptRed) :=
    ⟨rfl, hred, rfl, rfl, rfl, hnil, hnil, hnil⟩
  obtain ⟨stream, packets, blocks, hrun, hmap, hshort, hcarry⟩ := hnew.run hpaced nofun
    fun c hc => ⟨⟨(hchars c hc).1, (hchars c hc).2.1⟩, (hchars c hc).2.2⟩
  rw [← hmap] at hsent ⊢
  have hlength : packets.length = (blocks.map spoken).length := by
    have := hcarry.1
    simp only [length_cons, length_map] at this ⊢
    omega
  rw [← hlength] at hsent
  have hfirst := hsent first mem_cons_self
  have hpacket := List.getElem?_eq_getElem hfirst
  have hcarries := hcarry.2 first packets[first] hpacket
  have hprocess : (new pt ptRed).process _ = _ :=
    hcarries.process hpt rfl hred (short_getD hshort first) (short_getD hshort (first + 1))
      (short_getD hshort (first + 2)) (ofNat (start + first)) (Int.le_refl _)
  have hready : Ready pt start first { new pt ptRed with
      notFirst := true, prevseqno := (ofNat (start + first)).toNat,
      inbuf := [], unread := [] } := by
    refine ⟨rfl, hred, rfl, ?_⟩
    rw [toNat_seqno]
  obtain ⟨sink, hlater⟩ := hready.run hpt hcarry hshort
    (fun n hn => hsent n (mem_cons_of_mem _ hn)) hdisplaced hcounted
  have harrivals : arrivals start packets (first :: deliveries) =
      ⟨ofNat (start + first), packets[first].payload⟩ ::
        arrivals start packets deliveries := by
    unfold arrivals
    rw [filterMap_cons, hpacket]
    rfl
  have hcharacters : heard ((new pt ptRed).needed
      (ofNat (start + first)).toNat) (([] :: [] :: blocks).getD first [])
        (([] :: [] :: blocks).getD (first + 1) []) (([] :: [] :: blocks).getD (first + 2) []) =
      (blocks.map spoken).getD first [] :=
    (heard_zero _ _ _).trans (getD_blocks blocks first)
  rw [hcharacters] at hprocess
  refine ⟨stream, packets, sink, hrun, ?_, expected_sublist _ _ _⟩
  rw [harrivals, run, hprocess]
  simp only [bind, Except.bind, hlater]

/-- Two characters are typed and sent one after the other, and both packets arrive. -/
theorem text_survives_two : Counted 65535 0 [1] ∧ ∃ stream packets sink,
      (RealTimeTextSourceData.new 98 99).run [.put 0x68, .tick 300, .put 0x20AC, .tick 600] =
        .ok (stream, packets) ∧
      (new 98 99).run (arrivals 65535 packets [0, 1]) =
        .ok (sink, [[0x68], [0x20AC]]) := by
  have hcounted : Counted 65535 0 [1] := And.intro (by unfold Counts; decide) trivial
  have hpaced : Paced (.new 98 99) [] [.put 0x68, .tick 300, .put 0x20AC, .tick 600] :=
    And.intro (by decide) (And.intro (by decide) trivial)
  refine ⟨hcounted, ?_⟩
  obtain ⟨stream, packets, sink, hrun, hsink, -⟩ := text_survives 98 99 (by decide) (by decide)
    [.put 0x68, .tick 300, .put 0x20AC, .tick 600] hpaced (by simp) 65535 0 [1] (by decide)
    (And.intro (by decide) trivial) hcounted
  exact ⟨stream, packets, sink, hrun, hsink⟩

/-- A character above `0xFFFF` is notified as another one. -/
theorem text_changed : ∃ stream packets sink,
      (RealTimeTextSourceData.new 98 99).run [.put 0x68, .tick 300, .put 0x1F600, .tick 600] =
        .ok (stream, packets) ∧
      texts (.new 98 99) [] [.put 0x68, .tick 300, .put 0x1F600, .tick 600] = [[0x68], [0x1F600]] ∧
      (new 98 99).run (arrivals 0 packets [0, 1]) =
        .ok (sink, [[0x68], [0xF600]]) :=
  ⟨_, _, _, rfl, rfl, rfl⟩

end GrooveIp.Rtt
