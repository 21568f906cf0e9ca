import GrooveIp.Media.AudioMixer
import Mathlib.Algebra.BigOperators.Ring.Finset
import Mathlib.Data.Finset.Card

/-!
# The bypass of the audio mixer

What an output should be given, whichever way a tick takes: from every active input other than
its own in conference mode what the tick hands on of it. What ticks hand on or skip of an input
is what arrived, in order and once. Both hold in runs whose bypass is only taken for an active
input with an empty bufferizer.
-/

namespace GrooveIp.Media

open List List Channel

/-! ### What a tick should put out -/

/-- What an output is to be given of an input: nothing of an inactive one, nor of its own in
conference mode. -/
def TickReport.contribution (r : TickReport) (s : MixerState) (o i : Pin) : List UInt8 :=
  if (s.channels i).active && !(s.confMode && i == o) then r.took i else []

/-- The sum of samples, a missing one being silence. -/
def mixed (n : Nat) (c : Pin → List Int) : List Int :=
  (range n).map fun k => ∑ i, (c i).getD k 0

/-- Every enabled output is given the contributions of the tick, and no other anything: a tick
that sums puts out one block of their saturated sum, and any other hands on the contribution of
the one input it took from. -/
structure MixerState.Faithful (s : MixerState) (r : TickReport) : Prop where
  summed : r.summed = true → ∀ o, s.enabled o = true →
    r.outputs o = [bytesOf ((mixed (s.bytesPerTick / 2) fun i =>
      samplesOf (r.contribution s o i)).map saturate)]
  passed : r.summed = false → ∃ i, (∀ j, j ≠ i → r.took j = []) ∧
    ∀ o, s.enabled o = true → (r.outputs o).flatten = r.contribution s o i
  disabled : ∀ o, s.enabled o = false → r.outputs o = []

open MixerState

/-- A run of a mixer: its state, what arrived on each input, what was handed on or skipped of it,
and the ticks with the states they came in. -/
structure MixRun where
  state : MixerState
  arrived : Pin → List UInt8 := fun _ => []
  taken : Pin → List UInt8 := fun _ => []
  reports : List (MixerState × TickReport) := []

open MixRun

/-- One event of a run. -/
def MixRun.step (run : MixRun) (e : MixerEvent) : MixRun :=
  match e with
  | .tick time queues =>
    let done := run.state.process queues time
    { state := done.1
      arrived := fun i => run.arrived i ++ if run.state.inputs i then (queues i).flatten else []
      taken := fun i => run.taken i ++ (done.2.took i ++ done.2.skipped i)
      reports := run.reports ++ [(run.state, done.2)] }
  | .setActive pin active => { run with state := run.state.setActive pin active }
  | .enableOutput pin enabled => { run with state := run.state.enableOutput pin enabled }
  | .setConferenceMode conf => { run with state := run.state.setConferenceMode conf }

/-- A run of events. -/
def MixRun.run (run : MixRun) (events : List MixerEvent) : MixRun := events.foldl step run

/-- No listener can tell the bypass: every tick was faithful, and of every input what was handed
on or skipped and what is still held is what arrived. -/
structure MixRun.Transparent (run : MixRun) : Prop where
  faithful : ∀ p ∈ run.reports, p.1.Faithful p.2
  inOrder : ∀ i, run.taken i ++ (run.state.channels i).bufferizer = run.arrived i

/-- A tick does not take the bypass with an inactive input that some output would be given, nor
with one of which earlier bytes are still held. -/
def MixerEvent.CarefulAt (e : MixerEvent) (s : MixerState) : Prop :=
  match e with
  | .tick time queues => ∀ i, s.contributing queues time = [i] → (queues i).flatten ≠ [] →
      (s.channels i).bufferizer = [] ∧ ((s.channels i).active = true ∨ ∀ o, s.eligible i o = false)
  | _ => True

/-- Every event of a run is careful where it happens. -/
def CarefulEvents : List MixerEvent → MixRun → Prop
  | [], _ => True
  | e :: events, run => e.CarefulAt run.state ∧ CarefulEvents events (run.step e)

/-! ### Sums -/

theorem accumulate_range {n : Nat} (v : Nat → Int) {x : List Int} (hx : x.length = n) :
    accumulate ((range n).map v) x = (range n).map fun k => v k + x.getD k 0 := by
  apply ext_getElem
  · simp [accumulate, hx]
  · intro k h₁ h₂
    have hk : k < n := by simpa using h₂
    simp [accumulate, getElem_zipWith, hx, hk]

theorem zipWith_sub_range {n : Nat} (v : Nat → Int) {x : List Int} (hx : x.length = n) :
    zipWith (fun s own => saturate (s - own)) ((range n).map v) x =
      ((range n).map fun k => v k - x.getD k 0).map saturate := by
  apply ext_getElem
  · simp [hx]
  · intro k h₁ h₂
    have hk : k < n := by simpa using h₂
    simp [getElem_zipWith, hx, hk]

theorem foldl_accumulate {n : Nat} {step : List Int → Pin → List Int} {c : Pin → List Int}
    (hstep : ∀ v i, step ((range n).map v) i =
      (range n).map fun k => v k + (c i).getD k 0) :
    (finRange 20).foldl step (replicate n 0) = mixed n c := by
  have hfold : ∀ (l : List Pin) (v : Nat → Int), l.foldl step ((range n).map v) =
      (range n).map fun k => v k + (l.map fun i => (c i).getD k 0).sum := by
    intro l
    induction l with
    | nil => simp
    | cons i l ih =>
      intro v
      rw [foldl_cons, hstep, ih]
      simp [Int.add_assoc]
  have hzero : replicate n (0 : Int) = (range n).map fun _ => 0 := by simp
  rw [hzero, hfold, mixed]
  simp [Fin.sum_univ_def]

theorem length_samplesOf (bytes : List UInt8) : (samplesOf bytes).length = bytes.length / 2 := by
  induction bytes using samplesOf.induct with
  | case1 lo hi rest ih =>
    simp only [samplesOf, length_cons, ih]
    omega
  | case2 bytes h =>
    cases bytes with
    | nil => rfl
    | cons b bytes =>
      cases bytes with
      | nil => simp [samplesOf]
      | cons b' bytes => exact absurd rfl (h b b' bytes)

/-! ### Channels -/

theorem bufferizerRead_append {held read left : List UInt8} {len : Nat}
    (h : bufferizerRead held len = some (read, left)) :
    read ++ left = held ∧ read.length = len ∧ 0 < len := by
  unfold bufferizerRead at h
  split at h
  · next hlen =>
    cases h
    refine ⟨take_append_drop _ _, ?_, hlen.2⟩
    rw [length_take]
    omega
  · cases h

theorem skipBytes_append (held : List UInt8) (bytes : Nat) :
    (skipBytes held bytes).1 ++ (skipBytes held bytes).2 = held := by
  unfold skipBytes
  cases h : bufferizerRead held bytes with
  | none => rfl
  | some r => exact (bufferizerRead_append h).1

variable (chan : Channel) (q : List Packet)

/-- What reading does to a channel: the bytes read and those still held are those held and those
arrived, and the own contribution is what was read, or silence. -/
theorem Channel.fetch_spec (n : Nat) :
    (chan.fetch q n).2 ++ (chan.fetch q n).1.bufferizer = chan.bufferizer ++ q.flatten ∧
      (chan.fetch q n).1.active = chan.active ∧
      (chan.fetch q n).1.outputEnabled = chan.outputEnabled ∧ (chan.fetch q n).1.input.length = n ∧
      ∀ k, (chan.fetch q n).1.input.getD k 0 = (samplesOf (chan.fetch q n).2).getD k 0 := by
  unfold fetch
  dsimp only
  cases h : bufferizerRead (chan.bufferizer ++ q.flatten) (n * 2) with
  | some r =>
    obtain ⟨happend, hlen, -⟩ := bufferizerRead_append h
    refine ⟨happend, rfl, rfl, ?_, fun _ => rfl⟩
    rw [length_samplesOf, hlen]
    omega
  | none =>
    refine ⟨rfl, rfl, rfl, length_replicate .., ?_⟩
    intro k
    by_cases hk : k < n
    · simp [samplesOf, hk]
    · simp [samplesOf, hk]

theorem Channel.processIn_sum (n : Nat) (v : Nat → Int) :
    (chan.processIn q ((range n).map v) n).2 = (range n).map fun k =>
      v k + (samplesOf (if chan.active then (chan.fetch q n).2 else [])).getD k 0 := by
  obtain ⟨-, -, -, hlen, hinput⟩ := chan.fetch_spec q n
  unfold processIn
  by_cases hactive : chan.active = true
  · by_cases hread : (chan.fetch q n).2 = []
    · simp [hread, hactive, samplesOf]
    · simp only [hread, hactive, ne_eq, not_false_eq_true, and_self, if_true]
      rw [accumulate_range v hlen]
      simp only [hinput]
  · simp [hactive, samplesOf]

theorem Channel.flowControl_spec (threshold : Nat) (time : BitVec 64) :
    (chan.flowControl threshold time).2 ++ (chan.flowControl threshold time).1.bufferizer =
        chan.bufferizer ∧ (chan.flowControl threshold time).1.active = chan.active ∧
      (chan.flowControl threshold time).1.outputEnabled = chan.outputEnabled ∧
      (chan.flowControl threshold time).1.input = chan.input := by
  unfold flowControl
  split
  · exact ⟨rfl, rfl, rfl, rfl⟩
  · dsimp only
    split
    · exact ⟨skipBytes_append _ _, rfl, rfl, rfl⟩
    · exact ⟨rfl, rfl, rfl, rfl⟩

theorem Channel.checkActivity_spec (time : BitVec 64) :
    (chan.checkActivity q time).1.bufferizer = chan.bufferizer ∧
      (chan.checkActivity q time).1.active = chan.active ∧
      (chan.checkActivity q time).1.outputEnabled = chan.outputEnabled ∧
      ((chan.checkActivity q time).2 = false → q = []) := by
  unfold checkActivity
  split
  · exact ⟨rfl, rfl, rfl, fun h => by cases h⟩
  · next hq =>
    have hempty : q = [] := by simpa using hq
    split
    · exact ⟨rfl, rfl, rfl, fun _ => hempty⟩
    · exact ⟨rfl, rfl, rfl, fun _ => hempty⟩

/-! ### The summing tick -/

/-- What holds of a mixer between ticks: the flag for a single output is right, and a channel
without an input is silent. -/
structure MixerState.Prepared (s : MixerState) : Prop where
  single : s.singleOutput = s.hasSingleOutput
  silent : ∀ i, s.inputs i = false → (s.channels i).input = replicate (s.bytesPerTick / 2) 0

variable {s : MixerState}

theorem MixerState.Prepared.channels_sumInputs (h : s.Prepared)
    (queues : Pin → List Packet) (time : BitVec 64) (o : Pin) :
    ((s.sumInputs queues time).1.channels o).active = (s.channels o).active ∧
      ((s.sumInputs queues time).1.channels o).input.length = s.bytesPerTick / 2 ∧
      ∀ k, ((s.sumInputs queues time).1.channels o).input.getD k 0 =
        (samplesOf ((s.sumInputs queues time).2.took o)).getD k 0 := by
  by_cases ho : s.inputs o = true
  · obtain ⟨-, hactive, -, hlen, hinput⟩ :=
      (s.channels o).fetch_spec (queues o) (s.bytesPerTick / 2)
    obtain ⟨-, hactive', -, hinput'⟩ :=
      ((s.channels o).fetch (queues o) (s.bytesPerTick / 2)).1.flowControl_spec s.skipThreshold time
    simp only [MixerState.sumInputs, ho, if_true]
    refine ⟨hactive'.trans hactive, ?_, ?_⟩
    · rw [hinput']
      exact hlen
    · rw [hinput']
      exact hinput
  · have hsilent := h.silent o (by simpa using ho)
    simp only [MixerState.sumInputs, ho, Bool.false_eq_true, if_false]
    refine ⟨trivial, by simp [hsilent], ?_⟩
    intro k
    rw [hsilent]
    by_cases hk : k < s.bytesPerTick / 2
    · simp [samplesOf, hk]
    · simp [samplesOf, hk]

theorem sum_without {f g : Pin → Int} (o : Pin) (ho : f o = 0) (hf : ∀ i, i ≠ o → f i = g i) :
    ∑ i, f i = ∑ i, g i - g o := by
  have hsplit : ∀ i, g i = f i + if i = o then g o else 0 := by
    intro i
    by_cases hi : i = o
    · rw [hi, ho]
      simp
    · simp [hi, hf i hi]
  have hsum : ∑ i, g i = ∑ i, f i + g o := by
    rw [Finset.sum_congr rfl fun i _ => hsplit i, Finset.sum_add_distrib]
    simp
  omega

/-- A tick that sums is faithful. -/
theorem MixerState.Prepared.faithful_sumInputs (h : s.Prepared) (queues : Pin → List Packet)
    (time : BitVec 64) : s.Faithful (s.sumInputs queues time).2 := by
  let n := s.bytesPerTick / 2
  let r := (s.sumInputs queues time).2
  -- what each input adds to the sum
  let c : Pin → List Int := fun i =>
    samplesOf (if (s.channels i).active then r.took i else [])
  have hsum : (finRange 20).foldl (fun sum i =>
      if s.inputs i then ((s.channels i).processIn (queues i) sum n).2 else sum)
        (replicate n 0) = mixed n c := by
    apply foldl_accumulate
    intro v i
    by_cases hi : s.inputs i = true
    · simp only [hi, if_true]
      rw [processIn_sum]
      simp [c, r, MixerState.sumInputs, hi, n]
    · simp [c, r, MixerState.sumInputs, hi, samplesOf]
  have hout : ∀ o, r.outputs o = if s.enabled o then
      if s.confMode then [((s.sumInputs queues time).1.channels o).processOut (mixed n c)]
      else [makeOutput (mixed n c)] else [] := by
    intro o
    rw [← hsum]
    rfl
  constructor
  · intro _ o ho
    show r.outputs o = [bytesOf ((mixed n fun i => samplesOf (r.contribution s o i)).map saturate)]
    rw [hout, if_pos ho]
    by_cases hconf : s.confMode = true
    · obtain ⟨hactive, hlen, hinput⟩ := h.channels_sumInputs queues time o
      have hrest : ∀ i, i ≠ o → samplesOf (r.contribution s o i) = c i := by
        intro i hi
        simp [TickReport.contribution, c, hconf, hi]
      have hown : samplesOf (r.contribution s o o) = [] := by
        simp [TickReport.contribution, hconf, samplesOf]
      rw [if_pos hconf, processOut, hactive]
      by_cases ha : (s.channels o).active = true
      · -- the own contribution is part of the sum, and removed again
        rw [if_pos ha, mixed, zipWith_sub_range _ hlen]
        congr 3
        apply map_congr_left
        intro k _
        have hwithout : ∑ i, (samplesOf (r.contribution s o i)).getD k 0 =
            ∑ i, (c i).getD k 0 - (c o).getD k 0 := by
          apply sum_without o
          · simp [hown]
          · intro i hi
            rw [hrest i hi]
        have hco : c o = samplesOf (r.took o) := by simp [c, ha]
        rw [hinput k, hwithout, hco]
      · rw [if_neg ha]
        congr 4
        funext i
        by_cases hi : i = o
        · rw [hi, hown]
          simp [c, ha, samplesOf]
        · rw [hrest i hi]
    · rw [if_neg hconf, makeOutput]
      congr 4
      funext i
      simp [TickReport.contribution, c, hconf]
  · intro hs
    cases hs
  · intro o ho
    rw [hout, ho]
    rfl

/-- What a tick should do: put out what it is to put out, leave the mixer prepared, and take
from every input what is first in line. -/
structure MixerState.Served (s : MixerState) (queues : Pin → List Packet)
    (done : MixerState × TickReport) : Prop where
  faithful : s.Faithful done.2
  prepared : done.1.Prepared
  inOrder : ∀ i, done.2.took i ++ done.2.skipped i ++ (done.1.channels i).bufferizer =
    (s.channels i).bufferizer ++ if s.inputs i then (queues i).flatten else []

theorem MixerState.Prepared.sumInputs (h : s.Prepared) (queues : Pin → List Packet)
    (time : BitVec 64) : s.Served queues (s.sumInputs queues time) := by
  refine ⟨h.faithful_sumInputs queues time, ?_, ?_⟩
  · constructor
    · have henabled : (s.sumInputs queues time).1.enabled = s.enabled := by
        funext i
        by_cases hi : s.inputs i = true
        · obtain ⟨-, -, ho, -⟩ := (s.channels i).fetch_spec (queues i) (s.bytesPerTick / 2)
          obtain ⟨-, -, ho', -⟩ := ((s.channels i).fetch (queues i)
            (s.bytesPerTick / 2)).1.flowControl_spec s.skipThreshold time
          simp only [MixerState.enabled, MixerState.sumInputs, hi, if_true]
          rw [ho', ho]
        · simp [MixerState.enabled, MixerState.sumInputs, hi]
      show s.singleOutput = _
      rw [h.single, MixerState.hasSingleOutput, MixerState.hasSingleOutput, henabled]
    · intro i hi
      have hi' : s.inputs i = false := hi
      simpa [MixerState.sumInputs, hi'] using h.silent i hi'
  · intro i
    by_cases hi : s.inputs i = true
    · obtain ⟨hfetch, -⟩ := (s.channels i).fetch_spec (queues i) (s.bytesPerTick / 2)
      obtain ⟨hskip, -⟩ := ((s.channels i).fetch (queues i)
        (s.bytesPerTick / 2)).1.flowControl_spec s.skipThreshold time
      simp only [MixerState.sumInputs, hi, if_true]
      rw [append_assoc, hskip, hfetch]
    · simp [MixerState.sumInputs, hi]

/-! ### The bypass -/

theorem MixerState.checkInputs_channels (s : MixerState) (queues : Pin → List Packet)
    (time : BitVec 64) (i : Pin) :
    ((s.checkInputs queues time).channels i).bufferizer = (s.channels i).bufferizer ∧
      ((s.checkInputs queues time).channels i).active = (s.channels i).active ∧
      ((s.checkInputs queues time).channels i).outputEnabled = (s.channels i).outputEnabled := by
  by_cases hi : s.inputs i = true
  · obtain ⟨hb, ha, ho, -⟩ := (s.channels i).checkActivity_spec (queues i) time
    simp only [MixerState.checkInputs, hi, if_true]
    exact ⟨hb, ha, ho⟩
  · simp [MixerState.checkInputs, hi]

theorem MixerState.enabled_checkInputs (s : MixerState) (queues : Pin → List Packet)
    (time : BitVec 64) : (s.checkInputs queues time).enabled = s.enabled := by
  funext i
  unfold MixerState.enabled
  rw [(s.checkInputs_channels queues time i).2.2]
  rfl

theorem MixerState.Prepared.checkInputs (h : s.Prepared) (queues : Pin → List Packet)
    (time : BitVec 64) : (s.checkInputs queues time).Prepared := by
  constructor
  · show s.singleOutput = _
    rw [h.single, MixerState.hasSingleOutput, MixerState.hasSingleOutput, s.enabled_checkInputs]
  · intro i hi
    have hi' : s.inputs i = false := hi
    simpa [MixerState.checkInputs, hi'] using h.silent i hi'

variable {queues : Pin → List Packet} {time : BitVec 64}

theorem MixerState.Faithful.of_checkInputs {r : TickReport}
    (h : (s.checkInputs queues time).Faithful r) : s.Faithful r := by
  have hcontribution : ∀ o i, r.contribution (s.checkInputs queues time) o i =
      r.contribution s o i := by
    intro o i
    unfold TickReport.contribution
    rw [(s.checkInputs_channels queues time i).2.1]
    rfl
  constructor
  · intro hs o ho
    rw [h.summed hs o (by rwa [s.enabled_checkInputs])]
    simp only [hcontribution]
    rfl
  · intro hs
    obtain ⟨i, hi, hout⟩ := h.passed hs
    refine ⟨i, hi, ?_⟩
    intro o ho
    rw [hout o (by rwa [s.enabled_checkInputs]), hcontribution]
  · intro o ho
    exact h.disabled o (by rwa [s.enabled_checkInputs])

theorem MixerState.queue_of_not_contributing {i : Pin} (hi : s.inputs i = true)
    (h : i ∉ s.contributing queues time) : queues i = [] := by
  apply ((s.channels i).checkActivity_spec (queues i) time).2.2.2
  simpa [contributing, hi] using h

theorem MixerState.Prepared.dispatchOutput (h : s.Prepared) (inq : List Packet)
    (activeInput o : Pin) :
    s.dispatchOutput inq activeInput o = if s.eligible activeInput o then inq else [] := by
  unfold MixerState.dispatchOutput
  by_cases hsingle : s.singleOutput = true
  · rw [if_pos hsingle]
    have hone : ((finRange 20).filter s.enabled).length = 1 := by
      simpa [h.single, MixerState.hasSingleOutput] using hsingle
    obtain ⟨only, honly⟩ := length_eq_one_iff.mp hone
    have heq : ∀ i, s.eligible activeInput i = true → i = only := by
      intro i hi
      have hm : i ∈ (finRange 20).filter s.enabled := by
        simp only [eligible, Bool.and_eq_true] at hi
        simp [hi.1]
      rw [honly] at hm
      exact mem_singleton.mp hm
    by_cases ho : s.eligible activeInput o = true
    · rw [if_pos ho]
      apply if_pos
      cases hfind : (finRange 20).find? (s.eligible activeInput) with
      | none => exact absurd ho (List.find?_eq_none.mp hfind o (mem_finRange o))
      | some i => rw [heq i (List.find?_some hfind), heq o ho]
    · rw [if_neg ho]
      apply if_neg
      intro hfind
      exact ho (List.find?_some hfind)
  · rw [if_neg hsingle]

theorem MixerState.arrived_of_not_contributing {i : Pin} (h : i ∉ s.contributing queues time) :
    (if s.inputs i then (queues i).flatten else []) = [] := by
  split
  · next hin =>
    rw [queue_of_not_contributing hin h]
    rfl
  · rfl

theorem MixerState.Prepared.idle (h : s.Prepared) (hc : s.contributing queues time = []) :
    s.Served queues (s.checkInputs queues time, .idle) where
  faithful := by
    constructor
    · intro hs
      cases hs
    · intro _
      refine ⟨0, fun _ _ => rfl, ?_⟩
      intro o _
      simp [TickReport.idle, TickReport.contribution]
    · intro o _
      rfl
  prepared := h.checkInputs queues time
  inOrder i := by
    have hnot : i ∉ s.contributing queues time := by simp [hc]
    rw [MixerState.arrived_of_not_contributing hnot]
    simp [TickReport.idle, (s.checkInputs_channels queues time i).1]

/-- So does a tick in bypass mode, if it is careful. -/
theorem MixerState.Prepared.bypass (h : s.Prepared) {i : Pin}
    (hc : s.contributing queues time = [i]) (hcareful : (MixerEvent.tick time queues).CarefulAt s) :
    s.Served queues ((s.checkInputs queues time).bypass queues i) where
  faithful := by
    have hout := (h.checkInputs queues time).dispatchOutput (queues i) i
    have heligible : (s.checkInputs queues time).eligible i = s.eligible i := by
      funext o
      unfold eligible
      rw [s.enabled_checkInputs]
      rfl
    rw [heligible] at hout
    constructor
    · intro hs
      cases hs
    · intro _
      refine ⟨i, fun j hj => if_neg hj, ?_⟩
      intro o ho
      show ((s.checkInputs queues time).dispatchOutput (queues i) i o).flatten = _
      rw [hout o]
      by_cases hflat : (queues i).flatten = []
      · have hnothing : (if s.eligible i o then queues i else []).flatten = [] := by
          split
          · exact hflat
          · rfl
        rw [hnothing]
        simp [TickReport.contribution, MixerState.bypass, hflat]
      · obtain ⟨-, hactive⟩ := hcareful i hc hflat
        by_cases he : s.eligible i o = true
        · have ha : (s.channels i).active = true := by
            rcases hactive with ha | hnone
            · exact ha
            · rw [hnone o] at he
              cases he
          have hnot : (s.confMode && i == o) = false := by
            simp only [eligible, ho, Bool.true_and] at he
            cases hconf : s.confMode with
            | false => rfl
            | true => simpa [hconf] using he
          simp [he, TickReport.contribution, ha, hnot, MixerState.bypass]
        · have hown : (s.confMode && i == o) = true := by
            simp only [eligible, ho, Bool.true_and] at he
            cases hconf : s.confMode with
            | false => simp [hconf] at he
            | true => simpa [hconf] using he
          simp [he, TickReport.contribution, hown]
    · intro o ho
      show (s.checkInputs queues time).dispatchOutput (queues i) i o = []
      rw [hout o]
      simp [eligible, ho]
  prepared := by
    obtain ⟨hsingle, hsilent⟩ := h.checkInputs queues time
    exact ⟨hsingle, hsilent⟩
  inOrder j := by
    have hbuffer := (s.checkInputs_channels queues time j).1
    by_cases hj : j = i
    · subst hj
      have hin : s.inputs j = true := by
        have hm : j ∈ s.contributing queues time := by simp [hc]
        simp only [contributing, mem_filter, Bool.and_eq_true] at hm
        exact hm.2.1
      by_cases hflat : (queues j).flatten = []
      · simp [MixerState.bypass, hin, hflat, hbuffer]
      · have hempty := (hcareful j hc hflat).1
        simp [MixerState.bypass, hin, hbuffer, hempty]
    · have hnot : j ∉ s.contributing queues time := by simp [hc, hj]
      rw [MixerState.arrived_of_not_contributing hnot]
      simp [MixerState.bypass, hj, hbuffer]

theorem MixerState.Prepared.process (h : s.Prepared)
    (hcareful : (MixerEvent.tick time queues).CarefulAt s) :
    s.Served queues (s.process queues time) := by
  unfold MixerState.process
  split
  · next hc => exact h.idle hc
  · next i hc => exact h.bypass hc hcareful
  · have hchecked := h.checkInputs queues time
    obtain ⟨hfaithful, hprepared, horder⟩ := Prepared.sumInputs
      (s := { s.checkInputs queues time with bypassMode := false })
      ⟨hchecked.single, hchecked.silent⟩ queues time
    refine ⟨?_, hprepared, ?_⟩
    · have hchecked' : (s.checkInputs queues time).Faithful
          ({ s.checkInputs queues time with bypassMode := false }.sumInputs queues time).2 :=
        ⟨hfaithful.summed, hfaithful.passed, hfaithful.disabled⟩
      exact hchecked'.of_checkInputs
    · intro i
      rw [horder i]
      rw [(s.checkInputs_channels queues time i).1]
      rfl

/-! ### Runs -/

theorem MixerState.updateChannel_congr {β : Type} (s : MixerState) (pin : Pin)
    {f : Channel → Channel} {g : Channel → β} (hf : ∀ c, g (f c) = g c) (i : Pin) :
    g ((s.updateChannel pin f).channels i) = g (s.channels i) := by
  by_cases hp : i = pin
  · subst hp
    simp [updateChannel, hf]
  · simp [updateChannel, hp]

theorem MixRun.prepared_step {run : MixRun} {e : MixerEvent} (h : run.state.Prepared)
    (he : e.CarefulAt run.state) : (run.step e).state.Prepared := by
  cases e with
  | tick time queues => exact (h.process he).prepared
  | setActive pin active =>
    let f : Channel → Channel := fun c => { c with active }
    constructor
    · have henabled : (run.state.updateChannel pin f).enabled = run.state.enabled := by
        funext i
        show (run.state.outputs i && ((run.state.updateChannel pin f).channels i).outputEnabled) = _
        rw [updateChannel_congr (f := f) (g := outputEnabled) _ _ fun _ => rfl]
        rfl
      show run.state.singleOutput = (run.state.updateChannel pin f).hasSingleOutput
      rw [h.single, MixerState.hasSingleOutput, MixerState.hasSingleOutput, henabled]
    · intro i hi
      exact (updateChannel_congr (f := f) (g := input) _ pin (fun _ => rfl)
        i).trans (h.silent i hi)
  | enableOutput pin enabled =>
    refine ⟨rfl, ?_⟩
    intro i hi
    exact (updateChannel_congr (f := fun c => { c with outputEnabled := enabled })
      (g := input) _ pin (fun _ => rfl) i).trans (h.silent i hi)
  | setConferenceMode conf => exact ⟨h.single, h.silent⟩

theorem MixRun.transparent_step {run : MixRun} {e : MixerEvent} (h : run.state.Prepared)
    (he : e.CarefulAt run.state) (ht : run.Transparent) : (run.step e).Transparent := by
  cases e with
  | tick time queues =>
    have hserved := h.process he
    constructor
    · intro p hp
      rcases mem_append.mp hp with hp | hp
      · exact ht.faithful p hp
      · rw [mem_singleton.mp hp]
        exact hserved.faithful
    · intro i
      have horder := hserved.inOrder i
      have hbefore := ht.inOrder i
      calc run.taken i ++ ((run.state.process queues time).2.took i ++
              (run.state.process queues time).2.skipped i) ++
            ((run.state.process queues time).1.channels i).bufferizer
          = run.taken i ++ ((run.state.channels i).bufferizer ++
              if run.state.inputs i then (queues i).flatten else []) := by
            rw [append_assoc, horder]
        _ = run.arrived i ++ if run.state.inputs i then (queues i).flatten else [] := by
            rw [← append_assoc, hbefore]
  | setActive pin active =>
    refine ⟨ht.faithful, ?_⟩
    intro i
    show run.taken i ++ _ = run.arrived i
    rw [← ht.inOrder i]
    exact congrArg _ (updateChannel_congr (f := fun c => { c with active })
      (g := bufferizer) _ pin (fun _ => rfl) i)
  | enableOutput pin enabled =>
    refine ⟨ht.faithful, ?_⟩
    intro i
    show run.taken i ++ _ = run.arrived i
    rw [← ht.inOrder i]
    exact congrArg _ (updateChannel_congr
      (f := fun c => { c with outputEnabled := enabled }) (g := bufferizer) _ pin
      (fun _ => rfl) i)
  | setConferenceMode conf => exact ⟨ht.faithful, ht.inOrder⟩

theorem MixRun.transparent_run (events : List MixerEvent) (run : MixRun)
    (h : run.state.Prepared) (hcareful : CarefulEvents events run) (ht : run.Transparent) :
    (run.run events).Transparent := by
  induction events generalizing run with
  | nil => exact ht
  | cons e events ih =>
    obtain ⟨he, hrest⟩ := hcareful
    exact ih (run.step e) (prepared_step h he) hrest (transparent_step h he ht)

/-- A mixer that starts to run, however it was set up. -/
def MixRun.start (inputs outputs active outputEnabled : Pin → Bool) (confMode : Bool)
    (bytesPerTick : Nat) : MixRun :=
  { state := preprocess inputs outputs active outputEnabled confMode bytesPerTick }

/-- No listener can tell the bypass in a run that only takes it for an active input with an empty
bufferizer. -/
theorem MixRun.transparent (inputs outputs active outputEnabled : Pin → Bool) (confMode : Bool)
    (bytesPerTick : Nat) (events : List MixerEvent) (hcareful : CarefulEvents events
      (start inputs outputs active outputEnabled confMode bytesPerTick)) :
    ((start inputs outputs active outputEnabled confMode bytesPerTick).run
      events).Transparent := by
  apply transparent_run events _ _ hcareful
  · constructor
    · simp [start]
    · simp [start, preprocess]
  · exact ⟨rfl, fun _ _ => rfl⟩

/-- Packets on two inputs. -/
def twoQueues (first second : List Packet) : Pin → List Packet := fun i =>
  if i = 0 then first else if i = 1 then second else []

/-- Two inputs and two outputs, one sample a tick. -/
def smallMixer (active : Pin → Bool) : MixRun :=
  start (· < 2) (· < 2) active (fun _ => true) false 2

/-- A tick that sums, and the bypass for the input that goes on. -/
theorem MixRun.transparent_sample :
    ((smallMixer fun _ => true).run [.tick 0 (twoQueues [[1, 0]] [[2, 0]]),
      .tick 1000 (twoQueues [[3, 0]] [])]).Transparent := by
  apply transparent
  refine ⟨?_, ?_, trivial⟩
  · intro i _ _
    exact ⟨rfl, .inl rfl⟩
  · intro i _ _
    revert i
    decide +kernel

/-- Two runs that can be told: an inactive input is heard in bypass mode, and bytes that a summing
tick left behind are passed by those that arrive in bypass mode. -/
theorem MixRun.not_transparent :
    ¬ ((smallMixer fun _ => false).run [.tick 0 (twoQueues [[1, 0]] [])]).Transparent ∧
      ¬ ((smallMixer fun _ => true).run [.tick 0 (twoQueues [[1, 0, 2, 0]] [[5, 0]]),
        .tick 1000 (twoQueues [[3, 0]] [])]).Transparent := by
  constructor
  · intro h
    have hone := h.faithful ((smallMixer fun _ => false).state,
      ((smallMixer fun _ => false).state.process (twoQueues [[1, 0]] []) 0).2) (by
        simp [run, step])
    obtain ⟨i, -, hout⟩ := hone.passed (by decide +kernel)
    have hbytes := hout 1 (by decide +kernel)
    have hsilent : ∀ j, TickReport.contribution
        ((smallMixer fun _ => false).state.process (twoQueues [[1, 0]] []) 0).2
        (smallMixer fun _ => false).state 1 j = [] := by
      intro j
      simp [TickReport.contribution, smallMixer, start, preprocess]
    rw [hsilent] at hbytes
    exact absurd hbytes (by decide +kernel)
  · intro h
    exact absurd (h.inOrder 0) (by decide +kernel)

end GrooveIp.Media
