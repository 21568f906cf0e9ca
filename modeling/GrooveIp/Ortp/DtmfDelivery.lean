import GrooveIp.Ortp.TelephoneEvents
import Mathlib.Data.List.Nodup

/-!
# Delivery of digits

Whatever is lost of the packets of a sequence of digits, the receiver notifies in sending order
each digit one of whose end packets arrives, once, and no other.
-/

namespace GrooveIp.Ortp

open List

/-! ## The packets of a digit -/

/-- A packet that holds one event which has not ended. -/
structure TevPacket.IsOpen (ts : UInt32) (p : TevPacket) : Prop where
  timestamp_eq : p.timestamp = ts
  events_eq : ∃ e, p.events = [e] ∧ e.E = false

open TevPacket

/-- A packet that holds one event which has ended, and does not begin it. -/
structure TevPacket.IsEnd (ts : UInt32) (code : UInt8) (p : TevPacket) : Prop where
  timestamp_eq : p.timestamp = ts
  markbit_eq : p.markbit = false
  events_eq : ∃ e, p.events = [e] ∧ e.E = true ∧ e.event = code

/-- The packets of one digit. -/
structure DigitPackets (ts : UInt32) (code : UInt8) (opens ends : List TevPacket) : Prop where
  isOpen : ∀ p ∈ opens, p.IsOpen ts
  isEnd : ∀ p ∈ ends, p.IsEnd ts code

namespace TevSender

variable (session : TevSender)

@[simp] theorem sendTsOffset_sendmWithTs (packet : TevPacket) (ts : UInt32) :
    (session.sendmWithTs packet ts).1.sendTsOffset = session.sendTsOffset := rfl

@[simp] theorem sendTsOffset_takeBackSeq :
    session.takeBackSeq.sendTsOffset = session.sendTsOffset := rfl

variable {session : TevSender}

theorem mem_sendmWithTs {packet : TevPacket} {ts offset : UInt32}
    (hoffset : session.sendTsOffset = offset) {p : TevPacket}
    (h : p ∈ (session.sendmWithTs packet ts).2) :
    p.timestamp = ts + offset ∧ p.markbit = packet.markbit ∧ p.events = packet.events := by
  obtain rfl := eq_of_mem_replicate h
  subst hoffset
  split <;> exact ⟨rfl, rfl, rfl⟩

theorem createTelephoneEventPacket_spec {start : Bool} {m : TevPacket}
    (h : session.createTelephoneEventPacket start = some m) :
    m.markbit = start ∧ m.events = [] := by
  obtain ⟨tevPt, -, h⟩ := Option.bind_eq_some_iff.mp h
  cases h
  exact ⟨rfl, rfl⟩

theorem dtmfPackets_spec {tevType : UInt8} {duration : Int} {m1 m2 m3 : TevPacket}
    (h : session.dtmfPackets tevType duration = some (m1, m2, m3)) :
    (∃ e, m1.events = [e] ∧ e.E = false) ∧ (∃ e, m2.events = [e] ∧ e.E = false) ∧
      m3.markbit = false ∧ ∃ e, m3.events = [e] ∧ e.E = true ∧ e.event = tevType := by
  obtain ⟨p1, h1, h⟩ := Option.bind_eq_some_iff.mp h
  obtain ⟨p2, h2, h⟩ := Option.bind_eq_some_iff.mp h
  obtain ⟨p3, h3, h⟩ := Option.bind_eq_some_iff.mp h
  cases h
  obtain ⟨-, he1⟩ := createTelephoneEventPacket_spec h1
  obtain ⟨-, he2⟩ := createTelephoneEventPacket_spec h2
  obtain ⟨hm3, he3⟩ := createTelephoneEventPacket_spec h3
  simp only [addTelephoneEvent, he1, he2, he3, nil_append]
  exact ⟨⟨_, rfl, rfl⟩, ⟨_, rfl, rfl⟩, hm3, _, rfl, rfl, rfl⟩

theorem sendDtmf2_spec (d : Dtmf) : (session.sendDtmf2 d).1.sendTsOffset = session.sendTsOffset ∧
      ((session.sendDtmf2 d).2 = [] ∨ ∃ code opens ends, dtmfEvent d.dtmf = some code ∧
        DigitPackets (d.userts + session.sendTsOffset) code opens ends ∧
        (session.sendDtmf2 d).2 = opens ++ ends) := by
  unfold sendDtmf2
  cases hp : (dtmfEvent d.dtmf).bind fun tevType => session.dtmfPackets tevType d.duration with
  | none => exact ⟨rfl, .inl rfl⟩
  | some ms =>
    obtain ⟨m1, m2, m3⟩ := ms
    obtain ⟨code, hcode, hms⟩ := Option.bind_eq_some_iff.mp hp
    obtain ⟨h1, h2, hmark, h3⟩ := dtmfPackets_spec hms
    refine ⟨by simp, .inr ⟨code, _, _, hcode, ⟨?_, ?_⟩, (append_assoc _ _ _).symm⟩⟩
    · intro p hp
      rcases mem_append.mp hp with hp | hp
      · obtain ⟨hts, -, hev⟩ := mem_sendmWithTs rfl hp
        exact ⟨hts, hev ▸ h1⟩
      · obtain ⟨hts, -, hev⟩ :=
          mem_sendmWithTs (session.sendTsOffset_sendmWithTs m1 d.userts) hp
        exact ⟨hts, hev ▸ h2⟩
    · intro p hp
      obtain ⟨hts, hmk, hev⟩ : p.timestamp = d.userts + session.sendTsOffset ∧
          p.markbit = m3.markbit ∧ p.events = m3.events := by
        rcases mem_append.mp hp with hp | hp
        · exact mem_sendmWithTs (by simp) hp
        · rcases mem_append.mp hp with hp | hp
          · exact mem_sendmWithTs (by simp) hp
          · exact mem_sendmWithTs (by simp) hp
      exact ⟨hts, hmk.trans hmark, hev ▸ h3⟩

end TevSender

/-! ## The receiver over the packets of a digit -/

/-- The pending event is of another time stamp, if there is one. -/
def TevReceiver.Fresh (ts : UInt32) (r : TevReceiver) : Prop :=
  ∀ q, r.currentTev = some q → q.timestamp ≠ ts

/-- The event of a time stamp is pending, and has ended or not. -/
def TevReceiver.Holds (ts : UInt32) (ended : Bool) (r : TevReceiver) : Prop :=
  ∃ q, r.currentTev = some q ∧ q.timestamp = ts ∧ ∃ e, q.events = [e] ∧ e.E = ended

section Steps

variable {ts : UInt32} {code : UInt8} {p : TevPacket} {r : TevReceiver}

theorem TevReceiver.check_of_fresh (hmark : p.markbit = false) (hr : r.Fresh p.timestamp) :
    r.checkTelephoneEvents p = r.restart p := by
  unfold checkTelephoneEvents
  simp only [hmark, Bool.false_eq_true, if_false]
  split
  · next q hq => rw [if_neg (hr q hq)]
  · rfl

theorem TevReceiver.check_of_pending (hmark : p.markbit = false) {q : TevPacket}
    (hq : r.currentTev = some q) (hts : q.timestamp = p.timestamp) : r.checkTelephoneEvents p = {
      currentTev := some { q with events := (updateEnded p.events q.events).1 }
      notified := r.notified ++ (updateEnded p.events q.events).2 } := by
  unfold checkTelephoneEvents
  simp [hmark, hq, hts]

theorem TevReceiver.restart_single (hts : p.timestamp = ts) {e : TelephoneEvent}
    (hev : p.events = [e]) : (r.restart p).Holds ts e.E ∧
      (r.restart p).notified = r.notified ++ if e.E then [e.event] else [] := by
  refine ⟨⟨p, rfl, hts, e, hev, rfl⟩, ?_⟩
  unfold restart notifyEventsEnded
  rw [hev]
  cases he : e.E <;> simp [he]

theorem TevReceiver.check_isOpen (hp : p.IsOpen ts) (hr : r.Fresh ts ∨ r.Holds ts false) :
    (r.checkTelephoneEvents p).Holds ts false ∧
      (r.checkTelephoneEvents p).notified = r.notified := by
  obtain ⟨hts, e, hev, he⟩ := hp
  have hrestart := restart_single (r := r) hts hev
  rw [he] at hrestart
  cases hmark : p.markbit with
  | true =>
    -- the pending events are those of the packet itself when they are compared
    have hcheck : r.checkTelephoneEvents p = r.restart p := by
      unfold checkTelephoneEvents
      rw [if_pos hmark]
      simp [restart, notifyEventsEnded, hev, updateEnded, he]
      rw [← hev]
    rw [hcheck]
    simpa using hrestart
  | false =>
    rcases hr with hr | ⟨q, hq, hqts, b, hb, hbe⟩
    · rw [check_of_fresh hmark (hts ▸ hr)]
      simpa using hrestart
    · rw [check_of_pending hmark hq (hqts.trans hts.symm), hev, hb]
      simp only [updateEnded, he, Bool.false_and, Bool.false_eq_true, if_false, append_nil]
      exact ⟨⟨_, rfl, hqts, b, rfl, hbe⟩, trivial⟩

theorem TevReceiver.check_isEnd (hp : p.IsEnd ts code) (hr : r.Fresh ts ∨ r.Holds ts false) :
    (r.checkTelephoneEvents p).Holds ts true ∧
      (r.checkTelephoneEvents p).notified = r.notified ++ [code] := by
  obtain ⟨hts, hmark, e, hev, he, rfl⟩ := hp
  rcases hr with hr | ⟨q, hq, hqts, b, hb, hbe⟩
  · rw [check_of_fresh hmark (hts ▸ hr)]
    simpa [he] using restart_single (r := r) hts hev
  · rw [check_of_pending hmark hq (hqts.trans hts.symm), hev, hb]
    simp only [updateEnded, he, hbe, Bool.not_false, Bool.and_self, if_true]
    exact ⟨⟨_, rfl, hqts, _, rfl, rfl⟩, trivial⟩

theorem TevReceiver.check_isEnd_again (hp : p.IsEnd ts code) (hr : r.Holds ts true) :
    (r.checkTelephoneEvents p).Holds ts true ∧
      (r.checkTelephoneEvents p).notified = r.notified := by
  obtain ⟨hts, hmark, e, hev, he, -⟩ := hp
  obtain ⟨q, hq, hqts, b, hb, hbe⟩ := hr
  rw [check_of_pending hmark hq (hqts.trans hts.symm), hev, hb]
  simp only [updateEnded, hbe, Bool.not_true, Bool.and_false, Bool.false_eq_true, if_false,
    append_nil]
  exact ⟨⟨_, rfl, hqts, b, rfl, hbe⟩, trivial⟩

end Steps

/-! ## The receiver over a run -/

section Runs

variable {ts : UInt32} {code : UInt8} {r : TevReceiver}

theorem TevReceiver.run_opens {ps : List TevPacket} (hps : ∀ p ∈ ps, p.IsOpen ts)
    (hr : r.Fresh ts ∨ r.Holds ts false) : ((ps.foldl checkTelephoneEvents r).Holds ts false ∨
        ps = [] ∧ ps.foldl checkTelephoneEvents r = r) ∧
      (ps.foldl checkTelephoneEvents r).notified = r.notified := by
  induction ps generalizing r with
  | nil => exact ⟨.inr ⟨rfl, rfl⟩, rfl⟩
  | cons p ps ih =>
    obtain ⟨hp, hps⟩ := forall_mem_cons.mp hps
    obtain ⟨hholds, hnot⟩ := check_isOpen hp hr
    obtain ⟨hholds', hnot'⟩ := ih hps (.inr hholds)
    refine ⟨.inl ?_, hnot'.trans hnot⟩
    rcases hholds' with h | ⟨-, h⟩
    · exact h
    · rw [foldl_cons, h]
      exact hholds

theorem TevReceiver.run_ends {ps : List TevPacket} (hps : ∀ p ∈ ps, p.IsEnd ts code)
    (hr : r.Holds ts true) : (ps.foldl checkTelephoneEvents r).Holds ts true ∧
      (ps.foldl checkTelephoneEvents r).notified = r.notified := by
  induction ps generalizing r with
  | nil => exact ⟨hr, rfl⟩
  | cons p ps ih =>
    obtain ⟨hp, hps⟩ := forall_mem_cons.mp hps
    obtain ⟨hholds, hnot⟩ := check_isEnd_again hp hr
    obtain ⟨hholds', hnot'⟩ := ih hps hholds
    exact ⟨hholds', hnot'.trans hnot⟩

theorem TevReceiver.run_digit {opens ends : List TevPacket} (h : DigitPackets ts code opens ends)
    (hr : r.Fresh ts) : ((opens ++ ends).foldl checkTelephoneEvents r).notified =
        r.notified ++ (if ends = [] then [] else [code]) ∧
      ∀ ts', ts' ≠ ts → r.Fresh ts' → ((opens ++ ends).foldl checkTelephoneEvents r).Fresh ts' := by
  have hholds {ended : Bool} {r' : TevReceiver} (hr' : r'.Holds ts ended) {ts' : UInt32}
      (hne : ts' ≠ ts) : r'.Fresh ts' := by
    obtain ⟨q, hq, hqts, -⟩ := hr'
    intro q' hq'
    obtain rfl := Option.some.inj (hq.symm.trans hq')
    exact hqts ▸ hne.symm
  obtain ⟨hopen, hnot⟩ := run_opens h.isOpen (.inl hr)
  have hopen' : (opens.foldl checkTelephoneEvents r).Fresh ts ∨
      (opens.foldl checkTelephoneEvents r).Holds ts false := by
    rcases hopen with ho | ⟨-, ho⟩
    · exact .inr ho
    · exact .inl (ho.symm ▸ hr)
  rw [foldl_append]
  cases ends with
  | nil =>
    refine ⟨by simpa using hnot, fun ts' hne hr' => ?_⟩
    rcases hopen with ho | ⟨-, ho⟩
    · exact hholds ho hne
    · exact ho.symm ▸ hr'
  | cons p ends =>
    obtain ⟨hp, hends⟩ := forall_mem_cons.mp h.isEnd
    obtain ⟨hfirst, hnotfirst⟩ := check_isEnd hp hopen'
    obtain ⟨hrest, hnotrest⟩ := run_ends hends hfirst
    refine ⟨?_, fun ts' hne _ => hholds hrest hne⟩
    rw [foldl_cons, hnotrest, hnotfirst, hnot, if_neg (cons_ne_nil p ends)]

end Runs

theorem DigitPackets.sublist {ts : UInt32} {code : UInt8} {opens ends opens' ends' : List TevPacket}
    (h : DigitPackets ts code opens ends) (hopens : opens'.Sublist opens)
    (hends : ends'.Sublist ends) : DigitPackets ts code opens' ends' where
  isOpen p hp := h.isOpen p (hopens.subset hp)
  isEnd p hp := h.isEnd p (hends.subset hp)

/-- Whether a packet ends the event of a time stamp. -/
def TevPacket.endsEvent (ts : UInt32) (p : TevPacket) : Bool :=
  p.timestamp == ts && p.events.any TelephoneEvent.E

section Digits

variable {ts : UInt32} {code : UInt8} {opens ends : List TevPacket}

theorem DigitPackets.any_endsEvent (h : DigitPackets ts code opens ends) :
    (opens ++ ends).any (endsEvent ts) = !ends.isEmpty := by
  have hopens : opens.any (endsEvent ts) = false := by
    rw [any_eq_false]
    intro p hp
    obtain ⟨-, e, hev, he⟩ := h.isOpen p hp
    simp [endsEvent, hev, he]
  rw [any_append, hopens, Bool.false_or]
  cases ends with
  | nil => rfl
  | cons p ends =>
    obtain ⟨hts, -, e, hev, he, -⟩ := h.isEnd p mem_cons_self
    simp [endsEvent, hts, hev, he]

theorem DigitPackets.timestamp_eq (h : DigitPackets ts code opens ends) :
    ∀ p ∈ opens ++ ends, p.timestamp = ts := by
  intro p hp
  rcases mem_append.mp hp with hp | hp
  · exact (h.isOpen p hp).timestamp_eq
  · exact (h.isEnd p hp).timestamp_eq

theorem any_endsEvent_of_ne {ps : List TevPacket} (h : ∀ p ∈ ps, p.timestamp ≠ ts) :
    ps.any (endsEvent ts) = false := by
  rw [any_eq_false]
  intro p hp
  simp [endsEvent, h p hp]

theorem TevSender.mem_sendDigits {session : TevSender} {digits : List Dtmf} {p : TevPacket}
    (hp : p ∈ session.sendDigits digits) :
    ∃ d ∈ digits, p.timestamp = d.userts + session.sendTsOffset := by
  induction digits generalizing session with
  | nil => cases hp
  | cons d digits ih =>
    obtain ⟨hoffset, hsent⟩ := session.sendDtmf2_spec d
    rcases mem_append.mp hp with hp | hp
    · rcases hsent with h | ⟨code, opens, ends, -, hdigit, h⟩
      · rw [h] at hp
        cases hp
      · exact ⟨d, mem_cons_self, hdigit.timestamp_eq p (h ▸ hp)⟩
    · obtain ⟨d', hd', hts⟩ := ih hp
      exact ⟨d', mem_cons_of_mem _ hd', hoffset ▸ hts⟩

theorem run_digits {digits : List Dtmf} (hnodup : (digits.map Dtmf.userts).Nodup)
    {session : TevSender} {delivered : List TevPacket}
    (hsub : delivered.Sublist (session.sendDigits digits)) {r : TevReceiver}
    (hfresh : ∀ d ∈ digits, r.Fresh (d.userts + session.sendTsOffset)) :
    (delivered.foldl TevReceiver.checkTelephoneEvents r).notified = r.notified ++
      (digits.filter fun d => delivered.any (endsEvent
        (d.userts + session.sendTsOffset))).filterMap fun d => dtmfEvent d.dtmf := by
  induction digits generalizing session delivered r with
  | nil =>
    obtain rfl := sublist_nil.mp hsub
    simp
  | cons d digits ih =>
    obtain ⟨hd, hnodup⟩ := nodup_cons.mp hnodup
    obtain ⟨hoffset, hsent⟩ := session.sendDtmf2_spec d
    obtain ⟨mine, others, rfl, hmine, hothers⟩ := sublist_append_iff.mp hsub
    have hne : ∀ d' ∈ digits,
        d'.userts + session.sendTsOffset ≠ d.userts + session.sendTsOffset := by
      intro d' hd' he
      exact hd ((UInt32.add_left_inj _).mp he ▸ mem_map_of_mem hd')
    have hfresh_d := hfresh d mem_cons_self
    have hfresh_rest := fun d' hd' => hfresh d' (mem_cons_of_mem _ hd')
    -- what the packets of this digit do
    obtain ⟨hts, hnot, hleft⟩ : (∀ p ∈ mine, p.timestamp = d.userts + session.sendTsOffset) ∧
        (mine.foldl TevReceiver.checkTelephoneEvents r).notified = r.notified ++
          (if mine.any (endsEvent (d.userts + session.sendTsOffset)) then
            (dtmfEvent d.dtmf).toList else []) ∧
        ∀ d' ∈ digits, (mine.foldl TevReceiver.checkTelephoneEvents r).Fresh
          (d'.userts + session.sendTsOffset) := by
      rcases hsent with h | ⟨code, opens, ends, hcode, hdigit, h⟩
      · obtain rfl := sublist_nil.mp (h ▸ hmine)
        exact ⟨fun _ hp => (nomatch hp), by simp, hfresh_rest⟩
      · obtain ⟨opens', ends', rfl, hopens, hends⟩ := sublist_append_iff.mp (h ▸ hmine)
        have hdigit' := hdigit.sublist hopens hends
        obtain ⟨hnot, hleft⟩ := TevReceiver.run_digit hdigit' hfresh_d
        refine ⟨hdigit'.timestamp_eq, ?_, fun d' hd' => hleft _ (hne d' hd') (hfresh_rest d' hd')⟩
        rw [hnot, hdigit'.any_endsEvent, hcode]
        cases ends' <;> rfl
    have hothers_ts : ∀ p ∈ others, p.timestamp ≠ d.userts + session.sendTsOffset := by
      intro p hp
      obtain ⟨d', hd', he⟩ := TevSender.mem_sendDigits (hothers.subset hp)
      rw [he, hoffset]
      exact hne d' hd'
    have hrest : (digits.filter fun d' => (mine ++ others).any (endsEvent
        (d'.userts + session.sendTsOffset))) = digits.filter fun d' => others.any
          (endsEvent (d'.userts + session.sendTsOffset)) := by
      refine filter_congr fun d' hd' => ?_
      have hmine_ne : ∀ p ∈ mine, p.timestamp ≠ d'.userts + session.sendTsOffset :=
        fun p hp => hts p hp ▸ (hne d' hd').symm
      rw [any_append, any_endsEvent_of_ne hmine_ne, Bool.false_or]
    have hrun := ih hnodup hothers (fun d' hd' => hoffset.symm ▸ hleft d' hd')
    rw [hoffset] at hrun
    rw [foldl_append, hrun, hnot, filter_cons, hrest, any_append,
      any_endsEvent_of_ne hothers_ts, Bool.or_false, append_assoc]
    split
    · cases hcode : dtmfEvent d.dtmf <;> simp [hcode]
    · simp

/-- Of a sequence of digits with distinct time stamps, in any delivery that keeps the order, each
digit one of whose end packets arrives is notified once, in sending order, and no other one is. -/
theorem notified_digits (session : TevSender) {digits : List Dtmf}
    (hnodup : (digits.map Dtmf.userts).Nodup) {delivered : List TevPacket}
    (hsub : delivered.Sublist (session.sendDigits digits)) :
    (delivered.foldl TevReceiver.checkTelephoneEvents {}).notified =
      (digits.filter fun d => delivered.any (endsEvent
        (d.userts + session.sendTsOffset))).filterMap fun d => dtmfEvent d.dtmf := by
  have hnone (ts : UInt32) : TevReceiver.Fresh ts {} := by
    intro q hq
    cases hq
  rw [run_digits hnodup hsub fun d _ => hnone _]
  rfl

end Digits

/-- A session that sends telephone events as payload type 101. -/
def tevSession : TevSender where
  profile i := if i = 101 then some ⟨"telephone-event", 8000, 1⟩ else none
  pt := 0
  tevSendPt := 101
  ssrc := 7
  sndSeq := 65535
  sendTsOffset := 0
  duplicates _ := 0
  staleSeq := 0

/-- The packets of two digits. -/
def twoDigits : List TevPacket := tevSession.sendDigits [⟨'5', 160, 480⟩, ⟨'#', 1600, 480⟩]

/-- Of the first digit the last packet arrives, of the second one the first two. -/
theorem notified_twoDigits :
    (((twoDigits.drop 4).take 3).foldl TevReceiver.checkTelephoneEvents {}).notified = [5] := by
  have hsub : ((twoDigits.drop 4).take 3).Sublist twoDigits :=
    (take_sublist _ _).trans (drop_sublist _ _)
  rw [notified_digits tevSession (by decide) hsub]
  decide +kernel

end GrooveIp.Ortp
