import GrooveIp.Sal.OfferAnswer

/-!
# Payload and key matching

What `matchPayloads` returns over codecs without a provider of their own, for the answerer and
for the offerer, and which lines `matchCryptoAlgo` pairs.
-/

namespace GrooveIp.Sal

open List

/-- Every payload of the list is matched by the generic search. -/
def GenericCodecs (factory : MSFactory) (l : List PayloadType) : Prop :=
  ∀ p ∈ l, factory.getOfferAnswerProvider p.mimeType = none

/-- No two payloads of the list name one codec or one number. -/
def DistinctPayloads (l : List PayloadType) : Prop :=
  l.Pairwise fun p q => sameCodec p q = false ∧ p.number ≠ q.number

/-- Case-insensitive equality is an equivalence. -/
theorem strcaseEq_iff {a b : CString} :
    strcaseEq a b = true ↔ a.map Char.toLower = b.map Char.toLower := by
  simp [strcaseEq]

theorem strcaseEq_comm (a b : CString) : strcaseEq a b = strcaseEq b a := by
  rw [Bool.eq_iff_iff, strcaseEq_iff, strcaseEq_iff]
  exact eq_comm

variable {p : PayloadType}

/-- Two payloads match when their three compared fields agree. -/
theorem sameCodec_iff {q : PayloadType} :
    sameCodec p q = true ↔ strcaseEq p.mimeType q.mimeType = true ∧ p.clockRate = q.clockRate ∧
      p.channels = q.channels := by
  simp [sameCodec, and_assoc]

theorem sameCodec_comm (p q : PayloadType) : sameCodec p q = sameCodec q p := by
  rw [Bool.eq_iff_iff, sameCodec_iff, sameCodec_iff, strcaseEq_comm]
  constructor <;> exact fun ⟨h, hr, hc⟩ => ⟨h, hr.symm, hc.symm⟩

theorem sameCodec_trans {q r : PayloadType} (hpq : sameCodec p q = true)
    (hqr : sameCodec q r = true) : sameCodec p r = true := by
  rw [sameCodec_iff, strcaseEq_iff] at *
  exact ⟨hpq.1.trans hqr.1, hpq.2.1.trans hqr.2.1, hpq.2.2.trans hqr.2.2⟩

variable {l : List PayloadType}

theorem DistinctPayloads.eq_of_sameCodec (hl : DistinctPayloads l) {q : PayloadType}
    (hp : p ∈ l) (hq : q ∈ l) (h : sameCodec p q = true) : p = q := by
  induction l with
  | nil => cases hp
  | cons r l ih =>
    have hr := pairwise_cons.mp hl
    rcases mem_cons.mp hp with hpr | hp
    · rcases mem_cons.mp hq with hqr | hq
      · exact hpr.trans hqr.symm
      · rw [hpr, (hr.1 q hq).1] at h
        cases h
    · rcases mem_cons.mp hq with hqr | hq
      · rw [hqr, sameCodec_comm, (hr.1 p hp).1] at h
        cases h
      · exact ih hr.2 hp hq

theorem genericMatch_eq_some (hl : DistinctPayloads l) {refpt : PayloadType} (hp : p ∈ l)
    (h : sameCodec p refpt = true) : genericMatch l refpt = some p := by
  unfold genericMatch
  cases hf : l.find? fun pt => sameCodec pt refpt with
  | none => exact absurd h (by simpa using List.find?_eq_none.mp hf p hp)
  | some q =>
    have hq : sameCodec q refpt = true := List.find?_some (p := fun pt => sameCodec pt refpt) hf
    rw [sameCodec_comm] at h
    rw [hl.eq_of_sameCodec (mem_of_find?_eq_some hf) hp (sameCodec_trans hq h)]

section

variable (matched p2 : PayloadType)

theorem negotiateAvpf_frame : (negotiateAvpf matched p2).mimeType = matched.mimeType ∧
      (negotiateAvpf matched p2).clockRate = matched.clockRate ∧
      (negotiateAvpf matched p2).channels = matched.channels ∧
      (negotiateAvpf matched p2).canRecv = matched.canRecv ∧
      (negotiateAvpf matched p2).canSend = matched.canSend := by
  unfold negotiateAvpf
  split <;> simp

@[simp] theorem negotiate_mimeType : (negotiate matched p2).mimeType = matched.mimeType := by
  unfold negotiate
  cases p2.sendFmtp <;> simp [negotiateAvpf_frame, PayloadType.appendSendFmtp]

@[simp] theorem negotiate_clockRate : (negotiate matched p2).clockRate = matched.clockRate := by
  unfold negotiate
  cases p2.sendFmtp <;> simp [negotiateAvpf_frame, PayloadType.appendSendFmtp]

@[simp] theorem negotiate_channels : (negotiate matched p2).channels = matched.channels := by
  unfold negotiate
  cases p2.sendFmtp <;> simp [negotiateAvpf_frame, PayloadType.appendSendFmtp]

@[simp] theorem negotiate_canRecv : (negotiate matched p2).canRecv = true := by
  unfold negotiate
  simp [negotiateAvpf_frame]

@[simp] theorem negotiate_canSend : (negotiate matched p2).canSend = true := by
  unfold negotiate
  simp [negotiateAvpf_frame]

@[simp] theorem negotiate_number : (negotiate matched p2).number = p2.number := rfl

/-- A negotiated payload is of the codec of the payload it was matched from. -/
theorem sameCodec_negotiate (p : PayloadType) :
    sameCodec (negotiate matched p2) p = sameCodec matched p := by
  simp [sameCodec]

end

section

variable {factory : MSFactory} {remotes : List PayloadType} {reading one : Bool}

/-- How one step of the matching loop goes on when the codec has no provider: nothing is
matched or the codec is skipped, or the negotiated payload is appended, with its copy under
the local number. -/
theorem matchStep_cases (factory : MSFactory) (remotes : List PayloadType) (reading one : Bool)
    (st : MatchState) {p2 : PayloadType} (hp : factory.getOfferAnswerProvider p2.mimeType = none) :
    (matchStep factory remotes reading one st p2).locals = st.locals ∧
    ((matchStep factory remotes reading one st p2).res = st.res ∧
        (one = false → genericMatch st.locals p2 = none) ∨ ∃ m, genericMatch st.locals p2 = some m ∧
        (matchStep factory remotes reading one st p2).res =
          st.res ++ negotiate m p2 :: ownNumber reading m p2) := by
  unfold matchStep findPayloadTypeBestMatch
  rw [hp]
  cases hm : genericMatch st.locals p2 with
  | none => simp
  | some m =>
    by_cases hs : skipsCodec st m one = true
    · have hone : one ≠ false := by
        intro h
        simp [skipsCodec, h] at hs
      simp only [hs, if_true]
      exact ⟨trivial, .inl ⟨trivial, fun h => absurd h hone⟩⟩
    · simp only [hs, Bool.false_eq_true, if_false]
      exact ⟨trivial, .inr ⟨m, rfl, rfl⟩⟩

variable {l : List PayloadType}

theorem matchFold_locals (hl : GenericCodecs factory l) (st : MatchState) :
    (l.foldl (matchStep factory remotes reading one) st).locals = st.locals := by
  induction l generalizing st with
  | nil => rfl
  | cons p2 l ih =>
    rw [foldl_cons, ih fun p hp => hl p (mem_cons_of_mem _ hp)]
    exact (matchStep_cases _ _ _ _ _ (hl p2 mem_cons_self)).1

variable {st : MatchState}

theorem matchFold_mono (hl : GenericCodecs factory l) {a : PayloadType}
    (ha : a ∈ st.res) : a ∈ (l.foldl (matchStep factory remotes reading one) st).res := by
  induction l generalizing st with
  | nil => exact ha
  | cons p2 l ih =>
    apply ih fun p hp => hl p (mem_cons_of_mem _ hp)
    rcases (matchStep_cases factory remotes reading one st (hl p2 mem_cons_self)).2 with
      ⟨h, -⟩ | ⟨m, -, h⟩
    · rw [h]
      exact ha
    · rw [h]
      exact mem_append_left _ ha

theorem matchFold_mem (hl : GenericCodecs factory l) {a : PayloadType}
    (ha : a ∈ (l.foldl (matchStep factory remotes reading one) st).res) :
    a ∈ st.res ∨ ∃ p2 ∈ l, ∃ m, genericMatch st.locals p2 = some m ∧
      (a = negotiate m p2 ∨ a ∈ ownNumber reading m p2) := by
  induction l generalizing st with
  | nil => exact .inl ha
  | cons p2 l ih =>
    have hstep := matchStep_cases factory remotes reading one st (hl p2 mem_cons_self)
    rcases ih (fun p hp => hl p (mem_cons_of_mem _ hp)) ha with h | ⟨q, hq, m, hm, h⟩
    · rcases hstep.2 with ⟨hres, -⟩ | ⟨m, hm, hres⟩
      · exact .inl (hres ▸ h)
      · rw [hres, mem_append, mem_cons] at h
        rcases h with h | h
        · exact .inl h
        · exact .inr ⟨p2, mem_cons_self, m, hm, h⟩
    · rw [hstep.1] at hm
      exact .inr ⟨q, mem_cons_of_mem _ hq, m, hm, h⟩

theorem mem_matchFold (hl : GenericCodecs factory l)
    {p2 m : PayloadType} (hp2 : p2 ∈ l) (hm : genericMatch st.locals p2 = some m) :
    negotiate m p2 ∈ (l.foldl (matchStep factory remotes reading false) st).res := by
  induction l generalizing st with
  | nil => cases hp2
  | cons q l ih =>
    have hl' : GenericCodecs factory l := fun p hp => hl p (mem_cons_of_mem _ hp)
    have hstep := matchStep_cases factory remotes reading false st (hl q mem_cons_self)
    rcases mem_cons.mp hp2 with rfl | hp2
    · apply matchFold_mono hl'
      rcases hstep.2 with ⟨-, hnone⟩ | ⟨m', hm', hres⟩
      · rw [hnone rfl] at hm
        cases hm
      · obtain rfl : m' = m := Option.some.inj (hm'.symm.trans hm)
        rw [hres]
        exact mem_append_right _ mem_cons_self
    · apply ih hl' hp2
      rw [hstep.1]
      exact hm

end

variable {a : PayloadType}

theorem mem_addRemaining {res : List PayloadType} (ha : a ∈ res) : a ∈ addRemaining res l := by
  induction l generalizing res with
  | nil => exact ha
  | cons p1 l ih =>
    rw [addRemaining]
    split
    · exact ih ha
    · exact ih (mem_append_left _ ha)

theorem addRemaining_mem {res : List PayloadType} (ha : a ∈ addRemaining res l) :
    a ∈ res ∨ ∃ p1 ∈ l, a = { p1 with canRecv := true, frozenNumber := true } := by
  induction l generalizing res with
  | nil => exact .inl ha
  | cons p1 l ih =>
    rw [addRemaining] at ha
    split at ha
    · rcases ih ha with h | ⟨q, hq, h⟩
      · exact .inl h
      · exact .inr ⟨q, mem_cons_of_mem _ hq, h⟩
    · rcases ih ha with h | ⟨q, hq, h⟩
      · rcases mem_append.mp h with h | h
        · exact .inl h
        · exact .inr ⟨p1, mem_cons_self, mem_singleton.mp h⟩
      · exact .inr ⟨q, mem_cons_of_mem _ hq, h⟩

/-- A payload of an answer is a capability, under the number the offer gave its codec. -/
theorem matchPayloads_answer_mem {factory : MSFactory} {caps offer : List PayloadType} {one : Bool}
    (ho : GenericCodecs factory offer) (ha : a ∈ matchPayloads factory caps offer false one) :
    ∃ p2 ∈ offer, ∃ m ∈ caps, sameCodec m p2 = true ∧ a = negotiate m p2 := by
  rw [matchPayloads] at ha
  rcases matchFold_mem ho (by simpa using ha) with h | ⟨p2, hp2, m, hm, h⟩
  · cases h
  · refine ⟨p2, hp2, m, mem_of_find?_eq_some hm, ?_, ?_⟩
    · exact List.find?_some (p := fun pt => sameCodec pt p2) hm
    · simpa [ownNumber] using h

section

variable {factory : MSFactory} {offer answer : List PayloadType}
  (hd : DistinctPayloads offer) (ha : GenericCodecs factory answer)
  (hm : ∀ a ∈ answer, ∃ p ∈ offer, sameCodec p a = true ∧ p.number = a.number)

include hd ha hm

/-- The offerer keeps every answered payload, under the answered number. -/
theorem mem_matchPayloads_outgoing {a : PayloadType} (hmem : a ∈ answer) :
    ∃ p ∈ offer, sameCodec p a = true ∧
      negotiate p a ∈ matchPayloads factory offer answer true false := by
  obtain ⟨p, hp, hpa, -⟩ := hm a hmem
  refine ⟨p, hp, hpa, ?_⟩
  apply mem_addRemaining
  exact mem_matchFold ha hmem (genericMatch_eq_some hd hp hpa)

/-- What the offerer ends with is an answered payload, or one of its own kept for reception. -/
theorem matchPayloads_outgoing_mem {f : PayloadType}
    (hf : f ∈ matchPayloads factory offer answer true false) :
    (∃ a ∈ answer, ∃ p ∈ offer, sameCodec p a = true ∧ f = negotiate p a) ∨
      ∃ p ∈ offer, f = { p with canRecv := true, frozenNumber := true } := by
  rcases addRemaining_mem hf with h | ⟨p, hp, h⟩
  · rcases matchFold_mem ha h with h | ⟨a, hmem, m, hgen, h⟩
    · cases h
    · left
      obtain ⟨p, hp, hpa, hnum⟩ := hm a hmem
      obtain rfl : p = m := Option.some.inj ((genericMatch_eq_some hd hp hpa).symm.trans hgen)
      refine ⟨a, hmem, p, hp, hpa, ?_⟩
      simpa [ownNumber, hnum] using h
  · rw [matchFold_locals ha] at hp
    exact .inr ⟨p, hp, h⟩

end

theorem findSome_line {α : Type} {F : SalSrtpCryptoAlgo → SalSrtpCryptoAlgo → α}
    {locals remotes : List SalSrtpCryptoAlgo} {x : α}
    (h : ((remotes.takeWhile fun r => r.algo != .invalid).findSome? fun r =>
      (locals.find? fun l => r.algo == l.algo).map (F r)) = some x) : ∃ r l, r.algo ≠ .invalid ∧
      (remotes.find? fun o => (locals.find? fun l => o.algo == l.algo).isSome) = some r ∧
      (remotes.find? fun o => r.algo == o.algo) = some r ∧
      (locals.find? fun l => r.algo == l.algo) = some l ∧ x = F r l := by
  induction remotes with
  | nil => cases h
  | cons r0 rest ih =>
    rw [takeWhile_cons] at h
    split at h
    · next hvalid =>
      rw [List.findSome?_cons] at h
      cases hl : locals.find? fun l => r0.algo == l.algo with
      | some l =>
        rw [hl] at h
        refine ⟨r0, l, by simpa using hvalid, ?_, ?_, hl, (Option.some.inj h).symm⟩
        · simp [hl]
        · simp
      | none =>
        rw [hl] at h
        obtain ⟨r, l, hr, hfirst, hsuite, hl', hx⟩ := ih h
        refine ⟨r, l, hr, ?_, ?_, hl', hx⟩
        · rw [List.find?_cons, hl]
          exact hfirst
        · have hne : (r.algo == r0.algo) = false := by
            -- equal suites would have been found alike
            rw [beq_eq_false_iff_ne]
            intro he
            rw [he, hl] at hl'
            cases hl'
          rw [List.find?_cons, hne]
          exact hsuite
    · cases h

/-- The answerer's line: the first offered one it has a line for, with its own key. -/
theorem matchCryptoAlgo_answer {caps offer : Fin salCryptoAlgoMax → SalSrtpCryptoAlgo}
    {line : SalSrtpCryptoAlgo} {tag : UInt32}
    (h : matchCryptoAlgo caps offer true = some (line, tag)) : ∃ r l, r.algo ≠ .invalid ∧
      ((List.ofFn offer).find? fun o =>
        ((List.ofFn caps).find? fun c => o.algo == c.algo).isSome) = some r ∧
      ((List.ofFn offer).find? fun o => r.algo == o.algo) = some r ∧
      ((List.ofFn caps).find? fun c => r.algo == c.algo) = some l ∧
      line = { tag := r.tag, algo := r.algo, masterKey := l.masterKey } ∧ tag = l.tag := by
  obtain ⟨r, l, hr, hfirst, hsuite, hl, hx⟩ := findSome_line h
  simp only [if_true, Prod.mk.injEq] at hx
  exact ⟨r, l, hr, hfirst, hsuite, hl, hx.1, hx.2⟩

/-- The offerer's line for an answer with one crypto line. -/
theorem matchCryptoAlgo_offerer {offer : Fin salCryptoAlgoMax → SalSrtpCryptoAlgo}
    {line r : SalSrtpCryptoAlgo} (hline : line.algo ≠ .invalid)
    (hr : ((List.ofFn offer).find? fun o => line.algo == o.algo) = some r) :
    matchCryptoAlgo offer (fun i => if i = 0 then line else {}) false =
      some ({ tag := r.tag, algo := line.algo, masterKey := line.masterKey }, r.tag) := by
  have hlines : List.ofFn (fun i : Fin salCryptoAlgoMax => if i = 0 then line else {}) =
      [line, {}, {}, {}] := rfl
  have hvalid : (line.algo != .invalid) = true := by simpa using hline
  unfold matchCryptoAlgo
  rw [hlines, takeWhile_cons, hvalid, if_pos rfl, List.findSome?_cons, hr]
  simp

end GrooveIp.Sal
