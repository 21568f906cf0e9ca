import GrooveIp.Sal.Agreement

/-!
# DTLS roles

The role of each endpoint of a DTLS-SRTP stream after an exchange, over any prior contents of
the two results. `initiate_incoming` writes the role of the answer only for an offer that leaves
it open; the offerer takes the opposite of what was answered.
-/

namespace GrooveIp.Sal

/-- The fingerprint that `startDtls` has the DTLS context verify (`media-session.cpp:1827–1837`). -/
def startDtlsFingerprint (sd remote : SalStreamDescription) : Option CString :=
  if sd.hasDtls && sd.dtlsRole != .invalid then some remote.dtlsFingerprint else none

/-- One endpoint is the client, the other one the server, and each verifies the other's
fingerprint. `answer` is what the answerer runs, `final` what the offerer runs. -/
structure DtlsComplementary (offer cap answer final : SalStreamDescription) : Prop where
  roles : (answer.dtlsRole = .isClient ∧ final.dtlsRole = .isServer) ∨
    (answer.dtlsRole = .isServer ∧ final.dtlsRole = .isClient)
  recorded : final.dtlsFingerprint = cap.dtlsFingerprint
  offererVerifies : final.hasDtls = true →
    startDtlsFingerprint final answer = some cap.dtlsFingerprint
  answererVerifies : answer.hasDtls = true →
    startDtlsFingerprint answer offer = some offer.dtlsFingerprint

theorem bothDtls_iff {ls rs : SalStreamDescription} :
    bothDtls ls rs = true ↔ ls.dtlsRole ≠ .invalid ∧ rs.dtlsRole ≠ .invalid ∧
      ls.dtlsFingerprint ≠ [] ∧ rs.dtlsFingerprint ≠ [] := by
  simp [bothDtls, and_assoc, List.length_pos_iff]

theorem startDtlsFingerprint_eq {sd remote : SalStreamDescription} (hs : sd.hasDtls = true)
    (hr : sd.dtlsRole ≠ .invalid) :
    startDtlsFingerprint sd remote = some remote.dtlsFingerprint := by
  simp [startDtlsFingerprint, hs, hr]

section

variable {isMulticast : CString → Bool} {factory : MSFactory} {one : Bool}
  {cap offer prior answer final : SalStreamDescription}
  (ha : Answered isMulticast factory one cap offer prior answer)
  (hf : Concluded isMulticast factory offer answer final) (hboth : bothDtls cap offer = true)

include ha hf hboth

theorem concluded_role (hr : answer.dtlsRole ≠ .invalid) :
    final.dtlsRole = (if answer.dtlsRole = .isClient then .isServer else .isClient) ∧
      final.dtlsFingerprint = cap.dtlsFingerprint := by
  have hcap := bothDtls_iff.mp hboth
  have hfp : answer.dtlsFingerprint = cap.dtlsFingerprint := by
    rw [ha.dtlsFingerprint, if_pos hboth]
  have hoff : bothDtls offer answer = true := by
    rw [bothDtls_iff, hfp]
    exact ⟨hcap.2.1, hr, hcap.2.2.2, hcap.2.2.1⟩
  constructor
  · rw [hf.dtlsRole, if_pos hoff]
  · rw [hf.dtlsFingerprint, if_pos hoff, hfp]

theorem dtlsComplementary_iff_role : DtlsComplementary offer cap answer final ↔
      answer.dtlsRole = .isClient ∨ answer.dtlsRole = .isServer := by
  constructor
  · intro h
    rcases h.roles with ⟨hc, -⟩ | ⟨hs, -⟩
    · exact .inl hc
    · exact .inr hs
  · intro h
    have hr : answer.dtlsRole ≠ .invalid := by
      rcases h with h | h <;> rw [h] <;> decide
    obtain ⟨hrole, hfp⟩ := concluded_role ha hf hboth hr
    have hfr : final.dtlsRole ≠ .invalid := by
      rw [hrole]
      split <;> decide
    have hanswer : answer.dtlsFingerprint = cap.dtlsFingerprint := by
      rw [ha.dtlsFingerprint, if_pos hboth]
    constructor
    · rcases h with h | h
      · exact .inl ⟨h, by rw [hrole, h]; rfl⟩
      · exact .inr ⟨h, by rw [hrole, h]; rfl⟩
    · exact hfp
    · intro hs
      rw [startDtlsFingerprint_eq hs hfr, hanswer]
    · intro hs
      exact startDtlsFingerprint_eq hs hr

end

theorem answered_role {isMulticast : CString → Bool} {factory : MSFactory} {one : Bool}
    {cap offer prior answer : SalStreamDescription}
    (ha : Answered isMulticast factory one cap offer prior answer)
    (hboth : bothDtls cap offer = true) :
    (answer.dtlsRole = .isClient ∨ answer.dtlsRole = .isServer) ↔
      offer.dtlsRole = .unset ∨ prior.dtlsRole = .isClient ∨ prior.dtlsRole = .isServer := by
  rw [ha.dtlsRole, if_pos hboth]
  by_cases hu : offer.dtlsRole = .unset
  · simp [hu]
  · simp [hu]

/-- The endpoints of an accepted stream with a fingerprint and a role on both sides end as one
DTLS client and one DTLS server exactly when the offer left the role open, or the result of the
answerer held a settled role before. -/
theorem dtlsRoles_complementary_iff (isMulticast : CString → Bool) (factory : MSFactory)
    (one : Bool) (caps offer prior prior' : SalMediaDescription)
    (i : Fin salMediaDescriptionMaxStreams) (hi : i.val < offer.nbStreams)
    (hcap : (caps.streams i).dtlsRole ≠ .invalid ∧ (caps.streams i).dtlsFingerprint ≠ [])
    (hoff : (offer.streams i).dtlsRole ≠ .invalid ∧ (offer.streams i).dtlsFingerprint ≠ [])
    (hacc : ((offerAnswerInitiateIncoming isMulticast factory caps offer prior one).streams
      i).rtpPort ≠ 0) : DtlsComplementary (offer.streams i) (caps.streams i)
        ((offerAnswerInitiateIncoming isMulticast factory caps offer prior one).streams i)
        ((offerAnswerInitiateOutgoing isMulticast factory offer
          (offerAnswerInitiateIncoming isMulticast factory caps offer prior one)
          prior').streams i) ↔
      (offer.streams i).dtlsRole = .unset ∨ (prior.streams i).dtlsRole = .isClient ∨
        (prior.streams i).dtlsRole = .isServer := by
  have hboth : bothDtls (caps.streams i) (offer.streams i) = true :=
    bothDtls_iff.mpr ⟨hcap.1, hoff.1, hcap.2, hoff.2⟩
  have ha := offerAnswerInitiateIncoming_answered hi hacc
  have hf := offerAnswerInitiateOutgoing_concluded hi prior' hacc ha
  rw [dtlsComplementary_iff_role ha hf hboth]
  exact answered_role ha hboth

/-- A description with one DTLS-SRTP audio stream of the given role and fingerprint. -/
def dtlsAudio (role : SalDtlsRole) (fingerprint : CString) : SalMediaDescription where
  nbStreams := 1
  nbStreams_le := one_le_salMediaDescriptionMaxStreams
  streams := fun _ =>
    { proto := .udpTlsRtpSavp
      rtpPort := 7078
      payloads := [{ mimeType := ['P', 'C', 'M', 'U'], clockRate := 8000, channels := 1, number := 0 }]
      dtlsRole := role
      dtlsFingerprint := fingerprint }

/-- The roles after an exchange of such streams over new results. -/
def DtlsAudioComplementary (caps offer : SalMediaDescription) : Prop :=
  DtlsComplementary (offer.streams 0) (caps.streams 0)
    ((offerAnswerInitiateIncoming (fun _ => false) [] caps offer salMediaDescriptionNew
      false).streams 0) ((offerAnswerInitiateOutgoing (fun _ => false) [] offer
      (offerAnswerInitiateIncoming (fun _ => false) [] caps offer salMediaDescriptionNew false)
      salMediaDescriptionNew).streams 0)

/-- An offer that leaves the role open. -/
theorem dtlsRoles_complementary_actpass :
    DtlsAudioComplementary (dtlsAudio .unset ['B']) (dtlsAudio .unset ['A']) :=
  (dtlsRoles_complementary_iff (fun _ => false) [] false (dtlsAudio .unset ['B'])
    (dtlsAudio .unset ['A']) salMediaDescriptionNew salMediaDescriptionNew 0 (by decide)
    (by simp [dtlsAudio]) (by simp [dtlsAudio]) (by decide)).mpr (.inl rfl)

/-- An offer with the active role: the stream is accepted, and both endpoints stay without a
role. -/
theorem dtlsRoles_complementary_active :
    ((offerAnswerInitiateIncoming (fun _ => false) [] (dtlsAudio .unset ['B'])
      (dtlsAudio .isClient ['A']) salMediaDescriptionNew false).streams 0).rtpPort = 7078 ∧
    ¬ DtlsAudioComplementary (dtlsAudio .unset ['B']) (dtlsAudio .isClient ['A']) := by
  refine ⟨by decide, fun h => ?_⟩
  have hroles := h.roles
  rcases hroles with ⟨h, -⟩ | ⟨h, -⟩ <;> cases h

end GrooveIp.Sal
