import GrooveIp.Sal.Matching
import Mathlib.Data.List.Nodup

/-!
# The payload numbers of an answer

Which numbers `match_payloads` returns, and with which directions, when it reads an answer
(`offeranswer.c:180–263`). A codec the peer renumbered is entered twice, and the copy under the
local number inherits the flag to send with it.
-/

namespace GrooveIp.Sal

open List PayloadType

/-- The providers `linphone_core_register_offer_answer_providers` registers. -/
def offerAnswerProviders : MSFactory := registerOfferAnswerProviders []

/-- A payload up to the format parameters `red_match` rewrites. -/
def PayloadType.bare (pt : PayloadType) : PayloadType := { pt with recvFmtp := none }

/-! ## Matching reads the bare payloads -/

section Bare

variable (locals : List PayloadType) (refpt : PayloadType)

theorem genericMatch_bare : (genericMatch (locals.map bare) refpt) =
      (genericMatch locals refpt).map bare := by
  rw [genericMatch, List.find?_map]
  rfl

theorem opusLoop_bare (legacy : Option PayloadType) :
    opusLoop refpt (legacy.map bare) (locals.map bare) =
      (opusLoop refpt legacy locals).map bare := by
  induction locals generalizing legacy with
  | nil => cases legacy <;> rfl
  | cons pt rest ih =>
    rw [map_cons, opusLoop, opusLoop, show pt.bare.mimeType = pt.mimeType from rfl]
    split
    · split
      · exact ih (some pt)
      · split
        · rfl
        · exact ih legacy
    · exact ih legacy

theorem g729AMatch_bare (remotes : List PayloadType) (reading : Bool) :
    (g729AMatch (locals.map bare) refpt remotes reading).1 =
      (g729AMatch locals refpt remotes reading).1.map bare := by
  rw [g729AMatch, ← map_reverse, List.find?_map]
  rfl

theorem redLoop_bare (t140 : Option PayloadType) :
    (redLoop t140 (locals.map bare)).1.map bare =
        (redLoop t140 locals).1.map bare ∧
      (redLoop t140 locals).2.map bare = locals.map bare := by
  induction locals with
  | nil => exact ⟨rfl, rfl⟩
  | cons pt rest ih =>
    simp only [map_cons, redLoop, show pt.bare.mimeType = pt.mimeType from rfl]
    split
    · cases t140 <;> exact ⟨rfl, rfl⟩
    · exact ⟨ih.1, congrArg _ ih.2⟩

end Bare

theorem getOfferAnswerProvider_cases {mimeType : CString} {prov : MSOfferAnswerProvider}
    (h : offerAnswerProviders.getOfferAnswerProvider mimeType = some prov) :
    prov.matchPayload = opusMatch ∨ prov.matchPayload = g729AMatch ∨
      prov.matchPayload = redMatch := by
  have hmem := mem_of_find?_eq_some h
  simp only [offerAnswerProviders, registerOfferAnswerProviders, mem_cons,
    not_mem_nil, or_false] at hmem
  rcases hmem with rfl | rfl | rfl
  · exact .inl rfl
  · exact .inr (.inl rfl)
  · exact .inr (.inr rfl)

section BestMatch

variable (locals : List PayloadType) (refpt : PayloadType) (remotes : List PayloadType)
  (reading : Bool)

theorem findPayloadTypeBestMatch_bare :
    (findPayloadTypeBestMatch offerAnswerProviders (locals.map bare) refpt remotes
        reading).1.map bare =
      (findPayloadTypeBestMatch offerAnswerProviders locals refpt remotes reading).1.map
        bare := by
  have hidem : ∀ m : Option PayloadType,
      (m.map bare).map bare = m.map bare := by
    rintro (_ | m) <;> rfl
  unfold findPayloadTypeBestMatch
  cases hprov : offerAnswerProviders.getOfferAnswerProvider refpt.mimeType with
  | none =>
    rw [genericMatch_bare, hidem]
  | some prov =>
    dsimp only
    rcases getOfferAnswerProvider_cases hprov with h | h | h <;> rw [h]
    · show (opusLoop refpt (Option.map bare none) _).map _ = (opusLoop _ _ _).map _
      rw [opusLoop_bare, hidem]
    · rw [g729AMatch_bare, hidem]
    · exact (redLoop_bare locals _).1

theorem findPayloadTypeBestMatch_locals :
    (findPayloadTypeBestMatch offerAnswerProviders locals refpt remotes reading).2.map
      bare = locals.map bare := by
  unfold findPayloadTypeBestMatch
  cases hprov : offerAnswerProviders.getOfferAnswerProvider refpt.mimeType with
  | none => rfl
  | some prov =>
    dsimp only
    rcases getOfferAnswerProvider_cases hprov with h | h | h <;> rw [h]
    · rfl
    · rfl
    · exact (redLoop_bare locals _).2

end BestMatch

theorem bestMatch_congr {locals locals' : List PayloadType}
    (h : locals.map bare = locals'.map bare) (refpt : PayloadType)
    (remotes : List PayloadType) (reading : Bool) :
    (findPayloadTypeBestMatch offerAnswerProviders locals refpt remotes reading).1.map
        bare =
      (findPayloadTypeBestMatch offerAnswerProviders locals' refpt remotes reading).1.map
        bare := by
  rw [← findPayloadTypeBestMatch_bare, h, findPayloadTypeBestMatch_bare]

/-! ## What the first loop enters -/

/-- The answers `match_payloads` takes, each with the number proposed for its codec: with
`one_matching_codec` every one behind the first is dropped but a telephone event. -/
def acceptedNumbers (locals remotes : List PayloadType) (one : Bool) :
    Bool → List PayloadType → List (Int × Int)
  | _, [] => []
  | found, p2 :: rest =>
    match (findPayloadTypeBestMatch offerAnswerProviders locals p2 remotes true).1 with
    | none => acceptedNumbers locals remotes one found rest
    | some matched =>
      let codec := one && !strcaseEq matched.mimeType telephoneEvent
      if codec && found then acceptedNumbers locals remotes one found rest
      else (p2.number, matched.number) :: acceptedNumbers locals remotes one (found || codec) rest

/-- The numbers an answer is entered under: its own, and the proposed one where it differs. -/
def enteredNumbers (accepted : Int × Int) : List Int :=
  if accepted.1 = accepted.2 then [accepted.1] else [accepted.1, accepted.2]

/-- The number of a payload with the directions it is entered for. -/
def PayloadType.entry (pt : PayloadType) : Int × Bool × Bool := (pt.number, pt.canSend, pt.canRecv)

theorem entry_negotiate (matched p2 : PayloadType) :
    (negotiate matched p2 :: ownNumber true matched p2).map entry =
      (enteredNumbers (p2.number, matched.number)).map fun n => (n, true, true) := by
  unfold ownNumber enteredNumbers
  by_cases h : p2.number = matched.number
  · simp [h, entry]
  · simp [h, entry]

section Fold

variable {locals : List PayloadType} (remotes : List PayloadType) (one : Bool)

theorem matchStep_entries {st : MatchState}
    (hst : st.locals.map bare = locals.map bare) (p2 : PayloadType)
    (rest : List PayloadType) :
    (matchStep offerAnswerProviders remotes true one st p2).locals.map bare =
        locals.map bare ∧
      ∃ accepted, acceptedNumbers locals remotes one st.foundCodec (p2 :: rest) =
          accepted ++ acceptedNumbers locals remotes one
            (matchStep offerAnswerProviders remotes true one st p2).foundCodec rest ∧
        (matchStep offerAnswerProviders remotes true one st p2).res.map entry =
          st.res.map entry ++
            (accepted.flatMap enteredNumbers).map fun n => (n, true, true) := by
  have hmatch := bestMatch_congr hst p2 remotes true
  have hlocals := findPayloadTypeBestMatch_locals st.locals p2 remotes true
  unfold matchStep
  cases hf : findPayloadTypeBestMatch offerAnswerProviders st.locals p2 remotes true with
  | mk m locals' =>
    rw [hf] at hmatch hlocals
    have hlocals' := hlocals.trans hst
    cases m with
    | none =>
      have hg := Option.map_eq_none_iff.mp hmatch.symm
      exact ⟨hlocals', [], by simp only [acceptedNumbers, hg, nil_append], by simp⟩
    | some matched =>
      obtain ⟨m', hg, hbare⟩ := Option.map_eq_some_iff.mp hmatch.symm
      have hnumber : m'.number = matched.number :=
        show m'.bare.number = matched.bare.number by rw [hbare]
      have hmime : m'.mimeType = matched.mimeType :=
        show m'.bare.mimeType = matched.bare.mimeType by rw [hbare]
      by_cases hskip : skipsCodec st matched one = true
      · have hskip' := hskip
        unfold skipsCodec at hskip'
        simp only [hskip, if_true]
        refine ⟨hlocals', [], ?_, by simp⟩
        simp [acceptedNumbers, hg, hmime, hskip']
      · have hskip' := hskip
        unfold skipsCodec at hskip'
        simp only [hskip, if_false, Bool.false_eq_true]
        refine ⟨hlocals', [(p2.number, matched.number)], ?_, ?_⟩
        · simp [acceptedNumbers, hg, hmime, hskip', hnumber]
        · rw [map_append, entry_negotiate, flatMap_singleton]

theorem matchFold_entries {st : MatchState} (l : List PayloadType)
    (hst : st.locals.map bare = locals.map bare) :
    let st' := l.foldl (matchStep offerAnswerProviders remotes true one) st
    st'.locals.map bare = locals.map bare ∧
      st'.res.map entry = st.res.map entry ++
        ((acceptedNumbers locals remotes one st.foundCodec l).flatMap enteredNumbers).map
          fun n => (n, true, true) := by
  induction l generalizing st with
  | nil => exact ⟨hst, by simp [acceptedNumbers]⟩
  | cons p2 rest ih =>
    obtain ⟨hlocals, accepted, hsplit, hres⟩ :=
      matchStep_entries remotes one hst p2 rest
    obtain ⟨hlocals', hres'⟩ := ih hlocals
    refine ⟨hlocals', ?_⟩
    rw [foldl_cons, hres', hres, hsplit, flatMap_append, map_append, append_assoc]

end Fold

/-! ## What the second loop enters -/

theorem addRemaining_eq {l : List PayloadType} (hl : (l.map number).Nodup)
    (res : List PayloadType) : addRemaining res l = res ++
      (l.filter fun p1 => decide (p1.number ∉ res.map number)).map
        fun p1 => { p1 with canRecv := true, frozenNumber := true } := by
  induction l generalizing res with
  | nil => simp [addRemaining]
  | cons p1 rest ih =>
    obtain ⟨hp1, hrest⟩ := nodup_cons.mp hl
    have hany : (res.any fun p2 => p2.number == p1.number) =
        decide (p1.number ∈ res.map number) := by
      rw [Bool.eq_iff_iff]
      simp
    rw [addRemaining, hany]
    by_cases hmem : p1.number ∈ res.map number
    · rw [if_pos (by simpa using hmem), ih hrest, filter_cons_of_neg (by simpa using hmem)]
    · rw [if_neg (by simpa using hmem), ih hrest, filter_cons_of_pos (by simpa using hmem),
        append_assoc, map_cons, singleton_append]
      congr 3
      refine filter_congr fun q hq => ?_
      have hne : q.number ≠ p1.number := fun h => hp1 (h ▸ mem_map_of_mem hq)
      simp [hne]

/-! ## The numbers that are returned -/

section Claim

variable {locals remotes : List PayloadType} {one : Bool}

/-- The numbers the first loop enters. -/
def matchedNumbers (locals remotes : List PayloadType) (one : Bool) : List Int :=
  (acceptedNumbers locals remotes one false remotes).flatMap enteredNumbers

variable {l : List PayloadType}

theorem map_number_of_bare (h : l.map bare = locals.map bare) :
    l.map number = locals.map number := by
  have hnumber : number = number ∘ bare := rfl
  rw [hnumber, ← map_map, h, map_map]

theorem canSend_of_bare (h : l.map bare = locals.map bare)
    (hflags : ∀ pt ∈ locals, pt.canSend = false ∧ pt.canRecv = false) :
    ∀ pt ∈ l, pt.canSend = false := by
  intro pt hpt
  have hbare : pt.bare ∈ locals.map bare := h ▸ mem_map_of_mem hpt
  obtain ⟨p1, hp1, he⟩ := mem_map.mp hbare
  calc pt.canSend = pt.bare.canSend := rfl
    _ = p1.bare.canSend := by rw [he]
    _ = false := (hflags p1 hp1).1

theorem entries_matchPayloads (remotes : List PayloadType) (one : Bool)
    (hnodup : (locals.map number).Nodup)
    (hflags : ∀ pt ∈ locals, pt.canSend = false ∧ pt.canRecv = false) :
    (matchPayloads offerAnswerProviders locals remotes true one).map entry =
      ((matchedNumbers locals remotes one).map fun n => (n, true, true)) ++
        ((locals.map number).filter fun n =>
          decide (n ∉ matchedNumbers locals remotes one)).map fun n => (n, false, true) := by
  have hinit : ({ locals } : MatchState).locals.map bare =
    locals.map bare := rfl
  obtain ⟨hbare, hres⟩ := matchFold_entries remotes one remotes hinit
  have hnumbers := map_number_of_bare hbare
  have hsend := canSend_of_bare hbare hflags
  have hmatched : (remotes.foldl (matchStep offerAnswerProviders remotes true one)
      { locals }).res.map number = matchedNumbers locals remotes one := by
    have hfst : number = Prod.fst ∘ entry := rfl
    rw [hfst, ← map_map, hres, map_nil, nil_append, map_map]
    exact map_id _
  rw [matchPayloads, if_pos rfl, addRemaining_eq (hnumbers ▸ hnodup), map_append, hres,
    hmatched, ← hnumbers, filter_map, map_map, map_map, map_nil, nil_append]
  congr 1
  refine map_congr_left fun pt hpt => ?_
  have hpt' := hsend pt (mem_of_mem_filter hpt)
  simp [entry, hpt']

theorem fst_mem_of_acceptedNumbers {found : Bool} {accepted : Int × Int}
    (h : accepted ∈ acceptedNumbers locals remotes one found l) :
    accepted.1 ∈ l.map number := by
  induction l generalizing found with
  | nil => cases h
  | cons p2 rest ih =>
    rw [acceptedNumbers] at h
    split at h
    · exact mem_cons_of_mem _ (ih h)
    · dsimp only at h
      split at h
      · exact mem_cons_of_mem _ (ih h)
      · rcases mem_cons.mp h with rfl | h
        · exact mem_cons_self
        · exact mem_cons_of_mem _ (ih h)

theorem matchedNumbers_subset_iff :
    (∀ n ∈ matchedNumbers locals remotes one, n ∈ remotes.map number) ↔
      ∀ accepted ∈ acceptedNumbers locals remotes one false remotes,
        accepted.1 ≠ accepted.2 → accepted.2 ∈ remotes.map number := by
  constructor
  · intro h accepted hmem hne
    refine h _ (mem_flatMap.mpr ⟨accepted, hmem, ?_⟩)
    rw [enteredNumbers, if_neg hne]
    exact mem_cons_of_mem _ mem_cons_self
  · intro h n hn
    obtain ⟨accepted, hmem, hn⟩ := mem_flatMap.mp hn
    have hfst := fst_mem_of_acceptedNumbers hmem
    unfold enteredNumbers at hn
    split at hn
    · exact mem_singleton.mp hn ▸ hfst
    · next hne =>
      rcases mem_cons.mp hn with rfl | hn
      · exact hfst
      · exact mem_singleton.mp hn ▸ h accepted hmem hne

/-- Reading an answer, we send with the numbers of the answer only, receive on every number we
proposed and return no number twice, exactly when the numbers entered for the accepted answers are
distinct and every proposed number that was changed is one of the answer's. -/
theorem matchPayloads_answer_iff (hnodup : (locals.map number).Nodup)
    (hflags : ∀ pt ∈ locals, pt.canSend = false ∧ pt.canRecv = false) :
    ((∀ pt ∈ matchPayloads offerAnswerProviders locals remotes true one, pt.canSend = true →
        pt.number ∈ remotes.map number) ∧
      (∀ p1 ∈ locals, ∃ pt ∈ matchPayloads offerAnswerProviders locals remotes true one,
        pt.canRecv = true ∧ pt.number = p1.number) ∧
      ((matchPayloads offerAnswerProviders locals remotes true one).map number).Nodup) ↔
    (∀ accepted ∈ acceptedNumbers locals remotes one false remotes,
      accepted.1 ≠ accepted.2 → accepted.2 ∈ remotes.map number) ∧
      (matchedNumbers locals remotes one).Nodup := by
  have hentries := entries_matchPayloads remotes one hnodup hflags
  generalize matchPayloads offerAnswerProviders locals remotes true one = res at hentries ⊢
  have hnumbers : res.map number = matchedNumbers locals remotes one ++
      (locals.map number).filter fun n =>
        decide (n ∉ matchedNumbers locals remotes one) := by
    have hfst : number = Prod.fst ∘ entry := rfl
    rw [hfst, ← map_map, hentries, map_append, map_map, map_map]
    exact congrArg₂ _ (map_id _) (map_id _)
  -- each part of the claim is one about the entries
  have hentry {n : Int} {send recv : Bool} : (n, send, recv) ∈ res.map entry ↔
      ∃ pt ∈ res, pt.number = n ∧ pt.canSend = send ∧ pt.canRecv = recv := by
    simp [entry]
  have hsend : (∀ pt ∈ res, pt.canSend = true → pt.number ∈ remotes.map number) ↔
      ∀ n ∈ matchedNumbers locals remotes one, n ∈ remotes.map number := by
    constructor
    · intro h n hn
      have hmem : (n, true, true) ∈ res.map entry :=
        hentries ▸ mem_append_left _ (mem_map_of_mem hn)
      obtain ⟨pt, hpt, rfl, hs, -⟩ := hentry.mp hmem
      exact h pt hpt hs
    · intro h pt hpt hs
      have hmem := mem_map_of_mem (f := entry) hpt
      rw [hentries] at hmem
      rcases mem_append.mp hmem with hmem | hmem
      · obtain ⟨n, hn, he⟩ := mem_map.mp hmem
        have hnumber : n = pt.number := congrArg Prod.fst he
        exact hnumber ▸ h n hn
      · obtain ⟨n, -, he⟩ := mem_map.mp hmem
        exact absurd (congrArg (·.2.1) he) (by simp [entry, hs])
  have hrecv : ∀ p1 ∈ locals, ∃ pt ∈ res, pt.canRecv = true ∧ pt.number = p1.number := by
    intro p1 hp1
    obtain ⟨send, hmem⟩ : ∃ send, (p1.number, send, true) ∈ res.map entry := by
      rw [hentries]
      by_cases hin : p1.number ∈ matchedNumbers locals remotes one
      · exact ⟨true, mem_append_left _ (mem_map_of_mem hin)⟩
      · refine ⟨false, mem_append_right _ (mem_map_of_mem ?_)⟩
        exact mem_filter.mpr ⟨mem_map_of_mem hp1, decide_eq_true hin⟩
    obtain ⟨pt, hpt, hn, -, hr⟩ := hentry.mp hmem
    exact ⟨pt, hpt, hr, hn⟩
  have hnodup' : (res.map number).Nodup ↔
      (matchedNumbers locals remotes one).Nodup := by
    rw [hnumbers, nodup_append]
    refine ⟨fun h => h.1, fun h => ⟨h, hnodup.filter _, ?_⟩⟩
    rintro n hn m hm rfl
    exact of_decide_eq_true (mem_filter.mp hm).2 hn
  rw [hsend, hnodup', matchedNumbers_subset_iff]
  exact ⟨fun ⟨hs, _, hd⟩ => ⟨hs, hd⟩, fun ⟨hs, hd⟩ => ⟨hs, hrecv, hd⟩⟩

end Claim

/-- The payloads of an offer of two codecs. -/
def offeredCodecs : List PayloadType :=
  [{ mimeType := "PCMU".toList, clockRate := 8000, channels := 1, number := 0 },
    { mimeType := "speex".toList, clockRate := 16000, channels := 1, number := 97 }]

/-- An answer that keeps the numbers is read as it should be. -/
theorem offeredCodecs_kept :
    let res := matchPayloads offerAnswerProviders offeredCodecs offeredCodecs true false
    (∀ pt ∈ res, pt.canSend = true → pt.number ∈ offeredCodecs.map number) ∧
      (∀ p1 ∈ offeredCodecs, ∃ pt ∈ res, pt.canRecv = true ∧ pt.number = p1.number) ∧
      (res.map number).Nodup :=
  (matchPayloads_answer_iff (by decide) (by decide)).2 (by decide)

/-- An answer that renumbers the second codec: the copy we keep to receive with the proposed
number is flagged to send with it. -/
theorem offeredCodecs_renumbered : ¬ ∀ (locals remotes : List PayloadType) (one : Bool),
    (locals.map number).Nodup →
    (∀ pt ∈ locals, pt.canSend = false ∧ pt.canRecv = false) →
    (∀ pt ∈ matchPayloads offerAnswerProviders locals remotes true one, pt.canSend = true →
        pt.number ∈ remotes.map number) ∧
      (∀ p1 ∈ locals, ∃ pt ∈ matchPayloads offerAnswerProviders locals remotes true one,
        pt.canRecv = true ∧ pt.number = p1.number) ∧
      ((matchPayloads offerAnswerProviders locals remotes true one).map
        number).Nodup := by
  intro h
  have hsend := (h offeredCodecs
    [{ mimeType := "speex".toList, clockRate := 16000, channels := 1, number := 110 }] false
    (by decide) (by decide)).1
  exact absurd hsend (by decide)

end GrooveIp.Sal
