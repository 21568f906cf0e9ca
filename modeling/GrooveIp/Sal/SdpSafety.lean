import GrooveIp.Lib.Loops
import GrooveIp.Sal.SdpReader

/-!
# Which session descriptions are read safely

The reader mixes bounded conversions with unbounded ones (`sal_sdp.c:551`, `sal_sdp.c:567`,
`sal_sdp.c:821`), looks ahead from a cursor that has moved already (`sal_sdp.c:575`) and
copies two values with the size of the whole array as the bound (`sal_sdp.c:843`,
`sal_sdp.c:855`, `sal_sdp.c:938`). The conditions below are on the values of a
description; the reader stays inside its arrays and terminates every string on exactly the
descriptions that meet them.
-/

namespace GrooveIp.Sal

open Lib List Function
open Nat (zero_lt_succ)

/-! ### Terminated strings -/

/-- The strings of a candidate end inside their arrays (`c-sal.h:192–197`). -/
structure SalIceCandidate.Terminated (c : SalIceCandidate) : Prop where
  addr : c.addr.length < salMaxIceAddrLen
  raddr : c.raddr.length < salMaxIceAddrLen
  foundation : c.foundation.length < salMaxIceFoundationLen
  type : c.type.length < salMaxIceTypeLen

/-- The strings of a stream that are copied with room for the terminator
(`c-sal.h:246–283`). -/
structure SalStreamDescription.ShortStrings (s : SalStreamDescription) : Prop where
  name : s.name.length < 16
  typeother : s.typeother.length < 32
  protoOther : s.protoOther.length < 32
  rtpAddr : s.rtpAddr.length < 64
  rtcpAddr : s.rtcpAddr.length < 64
  rtcpCname : s.rtcpCname.length < 256
  masterKey : ∀ i, (s.crypto i).masterKey.length < salSrtpKeySize
  iceCandidates : ∀ c ∈ s.iceCandidates, c.Terminated
  iceRemoteCandidates : ∀ i, (s.iceRemoteCandidates i).addr.length < salMaxIceAddrLen
  iceUfrag : s.iceUfrag.length < salMaxIceUfragLen
  icePwd : s.icePwd.length < salMaxIcePwdLen

/-- Every string field of a stream has its terminator. -/
structure SalStreamDescription.Terminated (s : SalStreamDescription) : Prop
    extends s.ShortStrings where
  dtlsFingerprint : s.dtlsFingerprint.length < 256
  zrtphash : s.zrtphash.length < 128

/-- Every string field of a description has its terminator, in all eight records. -/
structure SalMediaDescription.Terminated (d : SalMediaDescription) : Prop where
  name : d.name.length < 64
  addr : d.addr.length < 64
  username : d.username.length < 64
  iceUfrag : d.iceUfrag.length < salMaxIceUfragLen
  icePwd : d.icePwd.length < salMaxIcePwdLen
  streams : ∀ i, (d.streams i).Terminated

variable (m : BelleSdpMediaDescription) (sessionDesc : BelleSdpSessionDescription)

/-- The reader returns, without a fault on the way, a description whose strings all end. -/
def ReadSafely : Prop :=
  ∃ desc, sdpToMediaDescription sessionDesc = .ok desc ∧ desc.Terminated

variable {n : Nat}

theorem length_strncpy_lt {cap : Nat} (h : n < cap) (src : CString) :
    (strncpy n src).length < cap :=
  Nat.lt_of_le_of_lt (length_strncpy_le n src) h

theorem length_strncpy_lt_iff {src : CString} : (strncpy n src).length < n ↔ src.length < n := by
  unfold strncpy
  rw [length_take]
  omega

/-! ### Remote candidates -/

/-- The rounds of the loop over an `a=remote-candidates` value stay inside it: the address
fits, and where something follows a triple it is at least as long as the triple. -/
inductive RemoteCandidatesFit : CString → Prop where
  | last {s : CString} (hfits : Fits remoteCandidateFormat s)
      (hnone : remoteCandidateOf (conversions remoteCandidateFormat s) = none) :
      RemoteCandidatesFit s
  | done {s : CString} {c p : Int} {a : CString} {n : Nat} (hfits : Fits remoteCandidateFormat s)
      (hsome : remoteCandidateOf (conversions remoteCandidateFormat s) = some (c, a, p, n))
      (hend : s.drop n = []) : RemoteCandidatesFit s
  | next {s : CString} {c p : Int} {a : CString} {n : Nat} (hfits : Fits remoteCandidateFormat s)
      (hsome : remoteCandidateOf (conversions remoteCandidateFormat s) = some (c, a, p, n))
      (hmore : s.drop n ≠ []) (hlong : n ≤ (s.drop n).length) (hrest : RemoteCandidatesFit
        (if (s.drop n)[n]?.getD '\x00' = ' ' then (s.drop n).drop 1 else s.drop n)) :
      RemoteCandidatesFit s

theorem offset_of_remoteCandidateOf {s : CString} {c p : Int} {a : CString}
    (h : remoteCandidateOf (conversions remoteCandidateFormat s) = some (c, a, p, n)) :
    0 < n ∧ n ≤ s.length := by
  apply offset_bounds .unsigned
  show .offset n ∈ conversions remoteCandidateFormat s
  unfold remoteCandidateOf at h
  split at h
  · next he =>
    cases h
    rw [he]
    simp
  · cases h

theorem hasRoom_remoteCandidateFormat : HasRoom remoteCandidateFormat := by decide

theorem storeRemoteCandidate_short {remotes : Fin salMaxIceRemoteCandidates → SalIceRemoteCandidate}
    (h : ∀ i, (remotes i).addr.length < salMaxIceAddrLen) (c : Int) (a : CString) (p : Int) :
    ∀ i, (storeRemoteCandidate remotes c a p i).addr.length < salMaxIceAddrLen := by
  intro i
  unfold storeRemoteCandidate
  split
  · next hc =>
    by_cases hi : i = ⟨(c - 1).toNat, by omega⟩
    · rw [hi, update_self]
      exact length_strncpy_lt (by decide) a
    · rw [update_of_ne hi]
      exact h i
  · exact h i

theorem readChar_lookahead (ptr : CString) (n : Nat) :
    (n ≤ ptr.length → readChar ptr n = .ok (ptr[n]?.getD '\x00')) ∧
      (¬ n ≤ ptr.length → readChar ptr n = .error .outOfBounds) := by
  constructor
  · intro hle
    unfold readChar
    by_cases hlt : n < ptr.length
    · simp [hlt]
    · have he : n = ptr.length := by omega
      simp [he]
  · intro hgt
    exact readChar_eq_error_iff.mpr (by omega)

/-- The loop over remote candidates ends, and faults exactly where a round leaves the value
or the array. -/
theorem sdpParseRemoteCandidates_spec (fuel : Nat) (ptr : CString) (hfuel : ptr.length < fuel)
    (remotes : Fin salMaxIceRemoteCandidates → SalIceRemoteCandidate)
    (hshort : ∀ i, (remotes i).addr.length < salMaxIceAddrLen) :
    (RemoteCandidatesFit ptr → ∃ remotes', sdpParseRemoteCandidates fuel ptr remotes =
        .ok remotes' ∧ ∀ i, (remotes' i).addr.length < salMaxIceAddrLen) ∧
      (¬ RemoteCandidatesFit ptr →
        sdpParseRemoteCandidates fuel ptr remotes = .error .outOfBounds) := by
  induction fuel generalizing ptr remotes with
  | zero => omega
  | succ fuel ih =>
    rw [sdpParseRemoteCandidates]
    by_cases hfits : Fits remoteCandidateFormat ptr
    · rw [sscanf_of_fits hasRoom_remoteCandidateFormat hfits]
      simp only [bind, Except.bind]
      cases hof : remoteCandidateOf (conversions remoteCandidateFormat ptr) with
      | none => exact ⟨fun _ => ⟨remotes, rfl, hshort⟩, fun h => absurd (.last hfits hof) h⟩
      | some quad =>
        obtain ⟨c, a, p, n⟩ := quad
        obtain ⟨hpos, -⟩ := offset_of_remoteCandidateOf hof
        have hstore := storeRemoteCandidate_short hshort c a p
        simp only
        by_cases hend : ptr.drop n = []
        · rw [if_pos hend]
          exact ⟨fun _ => ⟨_, rfl, hstore⟩, fun h => absurd (.done hfits hof hend) h⟩
        rw [if_neg hend]
        obtain ⟨hin, hout⟩ := readChar_lookahead (ptr.drop n) n
        by_cases hlong : n ≤ (ptr.drop n).length
        · rw [hin hlong]
          have hdrop : (ptr.drop n).length < ptr.length := by
            have := length_pos_iff.mpr hend
            rw [length_drop] at this ⊢
            omega
          have hnext : (if (ptr.drop n)[n]?.getD '\x00' = ' ' then (ptr.drop n).drop 1
              else ptr.drop n).length < fuel := by
            split
            · rw [length_drop]
              omega
            · omega
          obtain ⟨hok, herr⟩ := ih _ hnext _ hstore
          constructor
          · intro h
            apply hok
            cases h with
            | last _ hnone => rw [hof] at hnone; cases hnone
            | done _ hsome hend' => rw [hof] at hsome; cases hsome; exact absurd hend' hend
            | next _ hsome _ _ hrest => rw [hof] at hsome; cases hsome; exact hrest
          · intro h
            apply herr
            intro hrest
            exact h (.next hfits hof hend hlong hrest)
        · rw [hout hlong]
          constructor
          · intro h
            cases h with
            | last _ hnone => rw [hof] at hnone; cases hnone
            | done _ hsome hend' => rw [hof] at hsome; cases hsome; exact absurd hend' hend
            | next _ hsome _ hlong' _ => rw [hof] at hsome; cases hsome; omega
          · intro _
            rfl
    · rw [sscanf_of_not_fits hasRoom_remoteCandidateFormat hfits]
      constructor
      · intro h
        cases h with
        | last hf _ => exact absurd hf hfits
        | done hf _ _ => exact absurd hf hfits
        | next hf _ _ _ _ => exact absurd hf hfits
      · intro _
        rfl

/-! ### ICE attributes -/

/-- Does the attribute add a candidate while there is room for one? -/
def isUsableCandidate (attr : BelleSdpAttribute) : Bool :=
  attr.name == "candidate".toList &&
    (candidateOf (conversions candidateFormat attr.getValue)).isSome

/-- The value of an ICE attribute that comes when `n` candidates are stored fits. -/
def IceAttributeFits (n : Nat) (attr : BelleSdpAttribute) : Prop :=
  (attr.name = "candidate".toList → n < salMaxIceCandidates → Fits candidateFormat attr.getValue) ∧
  (attr.name = "remote-candidates".toList → RemoteCandidatesFit attr.getValue)

/-- The values of all ICE attributes fit: a candidate line is looked at as long as fewer than
twenty lines before it were usable, a line of remote candidates always. -/
def IceValuesFit (n : Nat) (attributes : List BelleSdpAttribute) : Prop :=
  ∀ before attr after, attributes = before ++ attr :: after →
    IceAttributeFits (n + before.countP isUsableCandidate) attr

theorem iceValuesFit_cons {attr : BelleSdpAttribute} {attributes : List BelleSdpAttribute} :
    IceValuesFit n (attr :: attributes) ↔ IceAttributeFits n attr ∧
      IceValuesFit (n + [attr].countP isUsableCandidate) attributes := by
  constructor
  · intro h
    constructor
    · exact h [] attr attributes rfl
    · intro before attr' after he
      have := h (attr :: before) attr' after (by rw [he, cons_append])
      rwa [← singleton_append, countP_append, ← Nat.add_assoc] at this
  · rintro ⟨hattr, hrest⟩ before attr' after he
    cases before with
    | nil =>
      obtain ⟨rfl, rfl⟩ : attr = attr' ∧ attributes = after := by simpa using he
      exact hattr
    | cons b before =>
      obtain ⟨rfl, rfl⟩ : attr = b ∧ attributes = before ++ attr' :: after := by simpa using he
      have := hrest before attr' after rfl
      rwa [Nat.add_assoc, ← countP_append, singleton_append] at this

theorem iceValuesFit_congr {m : Nat} {attributes : List BelleSdpAttribute}
    (hn : salMaxIceCandidates ≤ n) (hm : salMaxIceCandidates ≤ m) :
    IceValuesFit n attributes ↔ IceValuesFit m attributes := by
  have h {k l : Nat} (hk : salMaxIceCandidates ≤ k) (hl : salMaxIceCandidates ≤ l) :
      IceValuesFit k attributes → IceValuesFit l attributes := by
    intro hfit before attr after he
    obtain ⟨-, hremote⟩ := hfit before attr after he
    exact ⟨fun _ hlt => by omega, hremote⟩
  exact ⟨h hn hm, h hm hn⟩

theorem hasRoom_candidateFormat : HasRoom candidateFormat := by decide

theorem candidateOf_terminated {value : CString} {vs : List Scanned}
    {candidate : SalIceCandidate} (h : sscanf candidateFormat value = .ok vs)
    (hc : candidateOf vs = some candidate) : candidate.Terminated := by
  have hlen := @length_lt_of_sscanf _ _ _ h
  unfold candidateOf at hc
  split at hc
  · split at hc
    · split at hc
      · cases hc
        exact ⟨hlen 2 rfl rfl, zero_lt_succ 63, hlen 0 rfl rfl, hlen 3 rfl rfl⟩
      · cases hc
        exact ⟨hlen 2 rfl rfl, hlen 4 rfl rfl, hlen 0 rfl rfl, hlen 3 rfl rfl⟩
      · cases hc
    · cases hc
  · cases hc

/-- The strings of the ICE fields end inside their arrays. -/
structure IceFields.Terminated (ice : IceFields) : Prop where
  candidates : ∀ c ∈ ice.candidates, c.Terminated
  remoteCandidates : ∀ i, (ice.remoteCandidates i).addr.length < salMaxIceAddrLen
  ufrag : ice.ufrag.length < salMaxIceUfragLen
  pwd : ice.pwd.length < salMaxIcePwdLen

theorem iceFields_terminated_new : ({} : IceFields).Terminated where
  candidates := by simp
  remoteCandidates := fun _ => zero_lt_succ 63
  ufrag := zero_lt_succ 255
  pwd := zero_lt_succ 255

/-- One ICE attribute: it faults exactly where its value does not fit. -/
theorem sdpParseMediaIceAttribute_spec (ice : IceFields) (h : ice.Terminated)
    (attr : BelleSdpAttribute) : (IceAttributeFits ice.candidates.length attr →
      ∃ ice', sdpParseMediaIceAttribute ice attr = .ok ice' ∧ ice'.Terminated ∧
        ice'.candidates.length = ice.candidates.length +
          if ice.candidates.length < salMaxIceCandidates then
            [attr].countP isUsableCandidate else 0) ∧
      (¬ IceAttributeFits ice.candidates.length attr →
        sdpParseMediaIceAttribute ice attr = .error .outOfBounds) := by
  have hcount : attr.name ≠ "candidate".toList → [attr].countP isUsableCandidate = 0 := by
    intro hne
    have hfalse : isUsableCandidate attr = false := by
      rw [isUsableCandidate, beq_eq_false_iff_ne.mpr hne, Bool.false_and]
    simp [hfalse]
  unfold sdpParseMediaIceAttribute
  by_cases hcand : ice.candidates.length < salMaxIceCandidates ∧ attr.name = "candidate".toList
  · obtain ⟨hlt, hname⟩ := hcand
    have hremote : attr.name ≠ "remote-candidates".toList := by
      rw [hname]
      decide
    rw [if_pos ⟨hlt, hname⟩]
    by_cases hfits : Fits candidateFormat attr.getValue
    · have hscan := sscanf_of_fits hasRoom_candidateFormat hfits
      have hfit : IceAttributeFits ice.candidates.length attr :=
        ⟨fun _ _ => hfits, fun h => absurd h hremote⟩
      refine ⟨fun _ => ?_, fun h => absurd hfit h⟩
      rw [hscan]
      simp only [bind, Except.bind]
      cases hof : candidateOf (conversions candidateFormat attr.getValue) with
      | none =>
        refine ⟨ice, rfl, h, ?_⟩
        simp [isUsableCandidate, hof]
      | some candidate =>
        refine ⟨_, rfl, { h with candidates := ?_ }, ?_⟩
        · intro c hc
          rcases mem_append.mp hc with hc | hc
          · exact h.candidates c hc
          · rw [mem_singleton.mp hc]
            exact candidateOf_terminated hscan hof
        · simp [isUsableCandidate, hof, hname, hlt]
    · refine ⟨fun h => absurd (h.1 hname hlt) hfits, fun _ => ?_⟩
      rw [sscanf_of_not_fits hasRoom_candidateFormat hfits]
      rfl
  rw [if_neg hcand]
  have hzero : (if ice.candidates.length < salMaxIceCandidates then
      [attr].countP isUsableCandidate else 0) = 0 := by
    split
    · next hlt => exact hcount fun hname => hcand ⟨hlt, hname⟩
    · rfl
  rw [hzero]
  by_cases hremote : attr.name = "remote-candidates".toList
  · rw [if_pos hremote]
    obtain ⟨hok, herr⟩ := sdpParseRemoteCandidates_spec (attr.getValue.length + 1) attr.getValue
      (by omega) ice.remoteCandidates h.remoteCandidates
    constructor
    · intro hfit
      obtain ⟨remotes, hr, hshort⟩ := hok (hfit.2 hremote)
      rw [hr]
      exact ⟨_, rfl, { h with remoteCandidates := hshort }, rfl⟩
    · intro hfit
      rw [herr fun h => hfit ⟨fun hname hlt => absurd ⟨hlt, hname⟩ hcand, fun _ => h⟩]
      rfl
  rw [if_neg hremote]
  have hfit : IceAttributeFits ice.candidates.length attr :=
    ⟨fun hname hlt => absurd ⟨hlt, hname⟩ hcand, fun h => absurd h hremote⟩
  refine ⟨fun _ => ?_, fun h => absurd hfit h⟩
  split
  · exact ⟨_, rfl, { h with ufrag := length_strncpy_lt (by decide) _ }, rfl⟩
  split
  · exact ⟨_, rfl, { h with pwd := length_strncpy_lt (by decide) _ }, rfl⟩
  split
  · exact ⟨_, rfl, { h with }, rfl⟩
  · exact ⟨_, rfl, h, rfl⟩

variable (attributes : List BelleSdpAttribute)

theorem foldlM_sdpParseMediaIceAttribute
    (ice : IceFields) (h : ice.Terminated) : (IceValuesFit ice.candidates.length attributes →
      ∃ ice', attributes.foldlM sdpParseMediaIceAttribute ice = .ok ice' ∧ ice'.Terminated) ∧
      (¬ IceValuesFit ice.candidates.length attributes →
        attributes.foldlM sdpParseMediaIceAttribute ice = .error .outOfBounds) := by
  induction attributes generalizing ice with
  | nil =>
    have hfit : IceValuesFit ice.candidates.length [] := by
      intro before attr after he
      simp at he
    exact ⟨fun _ => ⟨ice, rfl, h⟩, fun h => absurd hfit h⟩
  | cons attr attributes ih =>
    obtain ⟨hok, herr⟩ := sdpParseMediaIceAttribute_spec ice h attr
    rw [iceValuesFit_cons, foldlM_cons]
    by_cases hattr : IceAttributeFits ice.candidates.length attr
    · obtain ⟨ice', hr, hterm, hlen⟩ := hok hattr
      have hiff : IceValuesFit (ice.candidates.length + [attr].countP isUsableCandidate)
          attributes ↔ IceValuesFit ice'.candidates.length attributes := by
        by_cases hlt : ice.candidates.length < salMaxIceCandidates
        · rw [hlen, if_pos hlt]
        · rw [hlen, if_neg hlt]
          exact iceValuesFit_congr (by omega) (by omega)
      rw [hr, hiff]
      simp only [hattr, true_and, bind, Except.bind]
      exact ih ice' hterm
    · rw [herr hattr]
      exact ⟨fun h => absurd h.1 hattr, fun _ => rfl⟩

/-! ### Payload types, crypto lines and the RTCP address -/

theorem exists_aAttrValueGetWithPt (pt : Int) (field : String)
    (attributes : List BelleSdpAttribute) :
    ∃ v, aAttrValueGetWithPt pt field attributes = .ok v := by
  induction attributes with
  | nil => exact ⟨none, rfl⟩
  | cons attr attributes ih =>
    rw [aAttrValueGetWithPt]
    split
    · have hfits : Fits attrWithPtFormat attr.getValue :=
        fits_of_bounded (by simp [attrWithPtFormat]) _
      rw [sscanf_of_fits (by decide) hfits]
      simp only [bind, Except.bind]
      split
      · next tmppt scanned he =>
        split
        · have hle : scanned ≤ attr.getValue.length := by
            apply (offset_bounds .anyBase _).2
            show .offset scanned ∈ conversions attrWithPtFormat attr.getValue
            rw [he]
            simp
          rw [readFrom, if_pos hle]
          simp only
          split
          · exact ⟨_, rfl⟩
          · exact ih
        · exact ih
      · exact ih
    · exact ih

theorem exists_buildMimeParameters : ∃ ps, buildMimeParameters m = .ok ps := by
  refine exists_mapM_eq_ok fun format _ => ?_
  obtain ⟨rtpmap, hr⟩ := exists_aAttrValueGetWithPt format "rtpmap" m.attributes
  obtain ⟨fmtp, hf⟩ := exists_aAttrValueGetWithPt format "fmtp" m.attributes
  unfold buildMimeParameter
  rw [hr, hf]
  cases rtpmap <;> cases fmtp <;> exact ⟨_, rfl⟩

theorem exists_sdpParsePayloadTypes :
    ∃ payloads ptime, sdpParsePayloadTypes m = .ok (payloads, ptime) := by
  obtain ⟨ps, hps⟩ := exists_buildMimeParameters m
  unfold sdpParsePayloadTypes
  rw [hps]
  exact ⟨_, _, rfl⟩

theorem storeCryptoLine_short (st : CryptoParse) (i : Fin salCryptoAlgoMax)
    (vs : List Scanned) (h : ∀ j, (st.crypto j).masterKey.length < salSrtpKeySize) :
    ∀ j, ((storeCryptoLine st i vs).crypto j).masterKey.length < salSrtpKeySize := by
  have hupdate (e : SalSrtpCryptoAlgo) (he : e.masterKey.length < salSrtpKeySize) :
      ∀ j, (update st.crypto i e j).masterKey.length < salSrtpKeySize := by
    intro j
    by_cases hj : j = i
    · rw [hj, update_self]
      exact he
    · rw [update_of_ne hj]
      exact h j
  unfold storeCryptoLine
  cases cryptoWordsOf vs with
  | none => exact hupdate _ (h i)
  | some words =>
    simp only
    split
    · exact hupdate _ (h i)
    · apply hupdate
      have hkey := ( takeWhile_prefix (· != '|')
        (l := strncpy (salSrtpKeySize - 1) words.2.1)).length_le
      exact Nat.lt_of_le_of_lt hkey (length_strncpy_lt (by decide) words.2.1)

theorem sdpParseCryptoLines_spec (st : CryptoParse)
    (h : ∀ j, (st.crypto j).masterKey.length < salSrtpKeySize) :
    ∃ st', sdpParseCryptoLines attributes st = .ok st' ∧
      ∀ j, (st'.crypto j).masterKey.length < salSrtpKeySize := by
  induction attributes generalizing st with
  | nil => exact ⟨st, rfl, h⟩
  | cons attr attributes ih =>
    rw [sdpParseCryptoLines]
    split
    · next hlt =>
      split
      · have hfits : Fits cryptoFormat attr.getValue := by
          apply fits_of_bounded
          intro width cap hm
          have hmem : cryptoFormat.all fun d => match d with
              | .word width cap => width == some 256 && cap == 257
              | _ => true := by decide
          have := all_eq_true.mp hmem _ hm
          simp only [Bool.and_eq_true, beq_iff_eq] at this
          exact ⟨256, this.1, by omega⟩
        rw [sscanf_of_fits (by decide) hfits]
        exact ih _ (storeCryptoLine_short st _ _ h)
      · exact ih st h
    · exact ⟨st, rfl, h⟩

theorem readCrypto_spec (hasSrtp : Bool) : ∃ crypto, readCrypto m hasSrtp = .ok crypto ∧
      ∀ j, (crypto j).masterKey.length < salSrtpKeySize := by
  unfold readCrypto
  split
  · obtain ⟨st, hst, hkeys⟩ := sdpParseCryptoLines_spec m.attributes {}
      (fun _ => zero_lt_succ 127)
    refine ⟨st.crypto, ?_, hkeys⟩
    unfold sdpParseMediaCryptoParameters
    rw [hst]
    rfl
  · exact ⟨_, rfl, fun _ => zero_lt_succ 127⟩

/-- The value of the first `a=rtcp` line has an address that fits. -/
def RtcpValueFits : Prop :=
  ∀ value, m.getAttributeValue "rtcp" = some value → Fits rtcpFormat value

theorem readRtcp_spec (rtpPort : Int) (rtpAddr : CString) :
    (RtcpValueFits m → ∃ port addr, readRtcp m rtpPort rtpAddr = .ok (port, addr) ∧
        addr.length < 64) ∧
      (¬ RtcpValueFits m → readRtcp m rtpPort rtpAddr = .error .outOfBounds) := by
  have htake : (rtpAddr.take 63).length < 64 := length_strncpy_lt (by decide) rtpAddr
  unfold readRtcp
  cases hv : m.getAttributeValue "rtcp" with
  | none =>
    have hfit : RtcpValueFits m := by
      intro value he
      rw [hv] at he
      cases he
    exact ⟨fun _ => ⟨_, _, rfl, htake⟩, fun h => absurd hfit h⟩
  | some value =>
    have hfit : RtcpValueFits m ↔ Fits rtcpFormat value := by
      simp [RtcpValueFits, hv]
    rw [hfit]
    constructor
    · intro h
      simp only [sscanf_of_fits (by decide) h, bind, Except.bind]
      split
      · exact ⟨_, _, rfl, htake⟩
      · exact ⟨_, _, rfl, length_strncpy_lt (by decide) _⟩
      · exact ⟨_, _, rfl, htake⟩
    · intro h
      simp only [sscanf_of_not_fits (by decide) h, bind, Except.bind]

/-! ### Streams -/

/-- The values of a media description that a conversion reads fit. -/
structure MediaValuesFit (m : BelleSdpMediaDescription) : Prop where
  rtcp : RtcpValueFits m
  ice : IceValuesFit 0 m.attributes

/-- The fingerprint that a media description sets, the session being in `role`: only a DTLS
transport with a role has one. -/
def mediaFingerprint (role : SalDtlsRole) (m : BelleSdpMediaDescription) : Option CString :=
  if (mediaProtoOf m = .udpTlsRtpSavp ∨ mediaProtoOf m = .udpTlsRtpSavpf) ∧
      setupRoleOf m.toBelleSdpBaseDescription role ≠ .invalid then
    m.getAttributeValue "fingerprint"
  else none

theorem readDtls_fingerprint (dir : SalStreamDir) (s : SalStreamDescription) :
    (readDtls m (readMediaLine dir m s).hasDtls s.dtlsRole s.dtlsFingerprint).2 =
      ((mediaFingerprint s.dtlsRole m).map (strncpy 256)).getD s.dtlsFingerprint := by
  have hproto : (readMediaLine dir m s).hasDtls = true ↔
      mediaProtoOf m = .udpTlsRtpSavp ∨ mediaProtoOf m = .udpTlsRtpSavpf := by
    have he : (readMediaLine dir m s).proto = mediaProtoOf m := rfl
    rw [SalStreamDescription.hasDtls, he]
    cases mediaProtoOf m <;> simp
  unfold readDtls mediaFingerprint
  by_cases hdtls : (readMediaLine dir m s).hasDtls = true
  · simp only [if_pos hdtls, hproto.mp hdtls, true_and]
    by_cases hrole : setupRoleOf m.toBelleSdpBaseDescription s.dtlsRole ≠ .invalid
    · simp only [if_pos hrole]
      cases m.getAttributeValue "fingerprint" <;> rfl
    · simp only [if_neg hrole]
      cases m.getAttributeValue "fingerprint" <;> rfl
  · rw [if_neg hdtls, if_neg fun h => hdtls (hproto.mpr h.1)]
    rfl

theorem readMediaLine_short (dir : SalStreamDir) (m : BelleSdpMediaDescription)
    {s : SalStreamDescription} (hs : s.ShortStrings) : (readMediaLine dir m s).ShortStrings := by
  refine { hs with typeother := ?_, protoOther := ?_, rtpAddr := ?_ }
  · unfold readMediaLine
    simp only
    split
    · exact length_strncpy_lt (by decide) _
    · exact hs.typeother
  · unfold readMediaLine
    simp only
    split
    · split
      · exact length_strncpy_lt (by decide) _
      · exact hs.protoOther
    · exact hs.protoOther
  · unfold readMediaLine
    simp only
    split
    · exact length_strncpy_lt (by decide) _
    · exact hs.rtpAddr

theorem sdpToStreamDescription_spec (md : SalMediaDescription) (s : SalStreamDescription)
    (hs : s.ShortStrings) (m : BelleSdpMediaDescription) :
    (MediaValuesFit m → ∃ r, sdpToStreamDescription md s m = .ok r ∧ r.ShortStrings ∧
        r.dtlsFingerprint =
          ((mediaFingerprint s.dtlsRole m).map (strncpy 256)).getD s.dtlsFingerprint ∧ r.zrtphash =
          ((m.getAttributeValue "zrtp-hash").map (strncpy 128)).getD s.zrtphash) ∧
      (¬ MediaValuesFit m → sdpToStreamDescription md s m = .error .outOfBounds) := by
  have hline := readMediaLine_short md.dir m hs
  have hdtls := readDtls_fingerprint m md.dir s
  obtain ⟨payloads, ptime, hpayloads⟩ := exists_sdpParsePayloadTypes m
  obtain ⟨crypto, hcrypto, hkeys⟩ := readCrypto_spec m (readMediaLine md.dir m s).hasSrtp
  obtain ⟨hrtcp, hrtcp'⟩ := readRtcp_spec m (readMediaLine md.dir m s).rtpPort
    (readMediaLine md.dir m s).rtpAddr
  obtain ⟨hice, hice'⟩ :=
    foldlM_sdpParseMediaIceAttribute m.attributes {} iceFields_terminated_new
  unfold sdpToStreamDescription
  simp only [hpayloads, bind, Except.bind]
  by_cases hr : RtcpValueFits m
  · obtain ⟨port, addr, hread, haddr⟩ := hrtcp hr
    simp only [hread, hcrypto, sdpParseMediaIceParameters]
    by_cases hi : IceValuesFit 0 m.attributes
    · obtain ⟨ice, hfold, hterm⟩ := hice hi
      refine ⟨fun _ => ?_, fun h => absurd ⟨hr, hi⟩ h⟩
      simp only [hfold]
      refine ⟨_, rfl, ?_, ?_, ?_⟩
      · exact { hline with
          rtcpAddr := haddr
          masterKey := hkeys
          iceCandidates := hterm.candidates
          iceRemoteCandidates := hterm.remoteCandidates
          iceUfrag := hterm.ufrag
          icePwd := hterm.pwd }
      · exact hdtls
      · cases m.getAttributeValue "zrtp-hash" <;> rfl
    · refine ⟨fun h => absurd h.ice hi, fun _ => ?_⟩
      simp only [hice' hi]
  · refine ⟨fun h => absurd h.rtcp hr, fun _ => ?_⟩
    simp only [hrtcp' hr]

/-! ### Sessions -/

/-- What the loop over the media lines makes of the records from the next one on. -/
structure StreamsRead (ms : List BelleSdpMediaDescription) (s₀ : SalStreamDescription)
    (desc d : SalMediaDescription) : Prop where
  session : d.name = desc.name ∧ d.addr = desc.addr ∧ d.username = desc.username ∧
    d.iceUfrag = desc.iceUfrag ∧ d.icePwd = desc.icePwd
  before : ∀ i, i.val < desc.nbStreams → d.streams i = desc.streams i
  read : ∀ i m, desc.nbStreams ≤ i.val → ms[i.val - desc.nbStreams]? = some m →
    ∃ md, sdpToStreamDescription md s₀ m = .ok (d.streams i)
  after : ∀ i, desc.nbStreams ≤ i.val → ms[i.val - desc.nbStreams]? = none → d.streams i = s₀

/-- The loop over the media lines: it faults exactly where one of the first eight does. -/
theorem sdpToStreams_spec (ms : List BelleSdpMediaDescription) (s₀ : SalStreamDescription)
    (hs : s₀.ShortStrings) (desc : SalMediaDescription)
    (hnew : ∀ i, desc.nbStreams ≤ i.val → desc.streams i = s₀) :
    ((∀ m ∈ ms.take (salMediaDescriptionMaxStreams - desc.nbStreams), MediaValuesFit m) →
      ∃ d, sdpToStreams ms desc = .ok d ∧ StreamsRead ms s₀ desc d) ∧
      (¬ (∀ m ∈ ms.take (salMediaDescriptionMaxStreams - desc.nbStreams), MediaValuesFit m) →
        sdpToStreams ms desc = .error .outOfBounds) := by
  induction ms generalizing desc with
  | nil =>
    refine ⟨fun _ => ⟨desc, rfl, ⟨rfl, rfl, rfl, rfl, rfl⟩, fun _ _ => rfl, ?_, ?_⟩, ?_⟩
    · simp
    · exact fun i hi _ => hnew i hi
    · intro h
      exact absurd (by simp) h
  | cons m ms ih =>
    rw [sdpToStreams]
    by_cases hlt : desc.nbStreams < salMediaDescriptionMaxStreams
    · rw [dif_pos hlt]
      simp only
      generalize hi : (⟨desc.nbStreams, hlt⟩ : Fin salMediaDescriptionMaxStreams) = k
      have hk : k.val = desc.nbStreams := by rw [← hi]
      have hsub : salMediaDescriptionMaxStreams - desc.nbStreams =
          salMediaDescriptionMaxStreams - (desc.nbStreams + 1) + 1 := by omega
      rw [hsub, take_succ_cons, forall_mem_cons, hnew k (by omega)]
      obtain ⟨hok, herr⟩ := sdpToStreamDescription_spec desc s₀ hs m
      by_cases hm : MediaValuesFit m
      · obtain ⟨r, hr, -⟩ := hok hm
        have hnew' : ∀ i, (desc.addStream k r).nbStreams ≤ i.val →
            (desc.addStream k r).streams i = s₀ := by
          intro i hle
          have hle' : desc.nbStreams + 1 ≤ i.val := hk ▸ hle
          have hne : i ≠ k := by
            rintro rfl
            omega
          show update desc.streams k r i = s₀
          rw [update_of_ne hne]
          exact hnew i (by omega)
        have hnb : (desc.addStream k r).nbStreams = desc.nbStreams + 1 := by
          rw [← hk]
          rfl
        obtain ⟨hok', herr'⟩ := ih (desc.addStream k r) hnew'
        rw [hnb] at hok' herr'
        simp only [hr, hm, true_and, bind, Except.bind]
        refine ⟨fun h => ?_, herr'⟩
        obtain ⟨d, hd, hread⟩ := hok' h
        refine ⟨d, hd, hread.session, ?_, ?_, ?_⟩
        · intro i hi'
          rw [hread.before i (by omega)]
          exact update_of_ne (by rintro rfl; omega) _ _
        · intro i m' hle hget
          by_cases he : i = k
          · have hsome : some m = some m' := by
              rw [← hget, he, hk, Nat.sub_self]
              rfl
            cases hsome
            refine ⟨desc, ?_⟩
            rw [hread.before i (by rw [he]; omega), he]
            show _ = Except.ok (update desc.streams k r k)
            rw [update_self]
            exact hr
          · have hne : i.val ≠ k.val := fun h => he (Fin.ext h)
            have hstep : i.val - desc.nbStreams = i.val - (desc.nbStreams + 1) + 1 := by omega
            rw [hstep, List.getElem?_cons_succ] at hget
            exact hread.read i m' (by omega) (hnb ▸ hget)
        · intro i hle hget
          have hne : i.val ≠ desc.nbStreams := by
            intro he
            rw [he, Nat.sub_self] at hget
            cases hget
          have hstep : i.val - desc.nbStreams = i.val - (desc.nbStreams + 1) + 1 := by omega
          rw [hstep, List.getElem?_cons_succ] at hget
          exact hread.after i (by omega) (hnb ▸ hget)
      · refine ⟨fun h => absurd h.1 hm, fun _ => ?_⟩
        rw [herr hm]
        rfl
    · have hzero : salMediaDescriptionMaxStreams - desc.nbStreams = 0 := by omega
      rw [dif_neg hlt, hzero, take_zero]
      refine ⟨fun _ => ⟨desc, rfl, ⟨rfl, rfl, rfl, rfl, rfl⟩, fun _ _ => rfl, ?_, ?_⟩, ?_⟩
      · exact fun i _ hle _ => by omega
      · exact fun i hle _ => by omega
      · intro h
        exact absurd (by simp) h

/-- The value stored as the fingerprint of the record at `i`: that of the media line with
this number if it sets one, and that of the session if not. -/
def fingerprintAt (i : Nat) : Option CString :=
  let sessionRole := setupRoleOf sessionDesc.toBelleSdpBaseDescription .invalid
  (sessionDesc.mediaDescriptions[i]?.bind (mediaFingerprint sessionRole)).or
    (sessionDesc.getAttributeValue "fingerprint")

/-- The condition on the values of a description: in the first eight media lines every word
that an unbounded conversion reaches is shorter than its array, the look-ahead stays in the
remote candidates and a hash has fewer than 128 characters; the fingerprint that each of the
eight records ends up with has fewer than 256. -/
structure ValuesFit (sessionDesc : BelleSdpSessionDescription) : Prop where
  media : ∀ m ∈ sessionDesc.mediaDescriptions.take salMediaDescriptionMaxStreams, MediaValuesFit m
  zrtpHash : ∀ m ∈ sessionDesc.mediaDescriptions.take salMediaDescriptionMaxStreams,
    ∀ value, m.getAttributeValue "zrtp-hash" = some value → value.length < 128
  fingerprint : ∀ i < salMediaDescriptionMaxStreams,
    ∀ value, fingerprintAt sessionDesc i = some value → value.length < 256

/-- Every record as the session part leaves it. -/
def sessionStream : SalStreamDescription :=
  { dir := .inactive
    dtlsFingerprint := ((sessionDesc.getAttributeValue "fingerprint").map (strncpy 256)).getD []
    dtlsRole := setupRoleOf sessionDesc.toBelleSdpBaseDescription .invalid }

theorem streams_readSession (i : Fin salMediaDescriptionMaxStreams) :
    (readSession sessionDesc).streams i = sessionStream sessionDesc := by
  unfold readSession sessionStream salMediaDescriptionNew
  cases sessionDesc.getAttributeValue "fingerprint" <;> rfl

theorem sessionStream_short : (sessionStream sessionDesc).ShortStrings where
  name := zero_lt_succ 15
  typeother := zero_lt_succ 31
  protoOther := zero_lt_succ 31
  rtpAddr := zero_lt_succ 63
  rtcpAddr := zero_lt_succ 63
  rtcpCname := zero_lt_succ 255
  masterKey := fun _ => zero_lt_succ 127
  iceCandidates := fun c hc => by cases hc
  iceRemoteCandidates := fun _ => zero_lt_succ 63
  iceUfrag := zero_lt_succ 255
  icePwd := zero_lt_succ 255

theorem readSession_short :
    (readSession sessionDesc).name.length < 64 ∧ (readSession sessionDesc).addr.length < 64 ∧
      (readSession sessionDesc).username.length < 64 ∧
      (readSession sessionDesc).iceUfrag.length < salMaxIceUfragLen ∧
      (readSession sessionDesc).icePwd.length < salMaxIcePwdLen := by
  unfold readSession salMediaDescriptionNew
  simp only
  refine ⟨?_, ?_, by decide, ?_, ?_⟩
  all_goals
    split
    · exact length_strncpy_lt (by decide) _
    · exact zero_lt_succ _

theorem length_stored_lt_iff (hn : 0 < n) (value : Option CString) :
    ((value.map (strncpy n)).getD []).length < n ↔ ∀ v, value = some v → v.length < n := by
  cases value with
  | none => simp [hn]
  | some v => simp [length_strncpy_lt_iff]

theorem streams_terminated_iff {d : SalMediaDescription}
    (hread : StreamsRead sessionDesc.mediaDescriptions (sessionStream sessionDesc)
      (readSession sessionDesc) d) (i : Fin salMediaDescriptionMaxStreams) :
    (d.streams i).Terminated ↔ (∀ m, sessionDesc.mediaDescriptions[i.val]? = some m →
        ∀ value, m.getAttributeValue "zrtp-hash" = some value → value.length < 128) ∧
      ∀ value, fingerprintAt sessionDesc i = some value → value.length < 256 := by
  have hshort := sessionStream_short sessionDesc
  have hstored := length_stored_lt_iff (n := 256) (by decide) (fingerprintAt sessionDesc i)
  cases hget : sessionDesc.mediaDescriptions[i.val]? with
  | none =>
    have hstream : d.streams i = sessionStream sessionDesc := hread.after i (Nat.zero_le _) hget
    have hfp : fingerprintAt sessionDesc i = sessionDesc.getAttributeValue "fingerprint" := by
      rw [fingerprintAt, hget]
      rfl
    rw [hstream, ← hstored, hfp]
    constructor
    · intro h
      refine ⟨?_, h.dtlsFingerprint⟩
      intro m hm
      cases hm
    · intro h
      exact { hshort with dtlsFingerprint := h.2, zrtphash := zero_lt_succ 127 }
  | some m =>
    obtain ⟨md, hok⟩ := hread.read i m (Nat.zero_le _) hget
    obtain ⟨hfit, hmis⟩ := sdpToStreamDescription_spec md _ hshort m
    have hm : MediaValuesFit m := by
      by_contra h
      rw [hmis h] at hok
      cases hok
    obtain ⟨r, hr, hrs, hfp, hzrtp⟩ := hfit hm
    obtain rfl : r = d.streams i := Except.ok.inj (hr.symm.trans hok)
    have hfingerprint : (d.streams i).dtlsFingerprint =
        ((fingerprintAt sessionDesc i).map (strncpy 256)).getD [] := by
      rw [hfp, fingerprintAt, hget, Option.bind_some]
      show ((mediaFingerprint (setupRoleOf sessionDesc.toBelleSdpBaseDescription .invalid)
        m).map _).getD _ = _
      cases mediaFingerprint (setupRoleOf sessionDesc.toBelleSdpBaseDescription .invalid) m <;> rfl
    have hz := length_stored_lt_iff (n := 128) (by decide) (m.getAttributeValue "zrtp-hash")
    rw [← hstored, ← hfingerprint]
    constructor
    · intro h
      refine ⟨?_, h.dtlsFingerprint⟩
      intro m' hm'
      cases hm'
      exact hz.mp (hzrtp ▸ h.zrtphash)
    · intro h
      exact { hrs with dtlsFingerprint := h.2, zrtphash := hzrtp ▸ hz.mpr (h.1 m rfl) }

/-- A description is read safely exactly when its values fit. -/
theorem readSafely_iff : ReadSafely sessionDesc ↔ ValuesFit sessionDesc := by
  obtain ⟨hok, herr⟩ := sdpToStreams_spec sessionDesc.mediaDescriptions
    (sessionStream sessionDesc) (sessionStream_short sessionDesc) (readSession sessionDesc)
    (fun i _ => streams_readSession sessionDesc i)
  have hmem (m : BelleSdpMediaDescription) :
      m ∈ sessionDesc.mediaDescriptions.take salMediaDescriptionMaxStreams ↔
        ∃ i < salMediaDescriptionMaxStreams, sessionDesc.mediaDescriptions[i]? = some m := by
    rw [mem_take_iff_getElem]
    simp only [List.getElem?_eq_some_iff]
    constructor
    · rintro ⟨i, hi, rfl⟩
      exact ⟨i, by omega, by omega, rfl⟩
    · rintro ⟨i, hi, hlt, rfl⟩
      exact ⟨i, by omega, rfl⟩
  by_cases hmedia : ∀ m ∈ sessionDesc.mediaDescriptions.take salMediaDescriptionMaxStreams,
      MediaValuesFit m
  · obtain ⟨d, hd, hread⟩ := hok hmedia
    have hiff := streams_terminated_iff sessionDesc hread
    constructor
    · rintro ⟨d', hd', hterm⟩
      obtain rfl : d = d' := Except.ok.inj (hd.symm.trans hd')
      refine ⟨hmedia, ?_, ?_⟩
      · intro m hm
        obtain ⟨i, hi, hget⟩ := (hmem m).mp hm
        exact ((hiff ⟨i, hi⟩).mp (hterm.streams ⟨i, hi⟩)).1 m hget
      · intro i hi
        exact ((hiff ⟨i, hi⟩).mp (hterm.streams ⟨i, hi⟩)).2
    · intro hfit
      obtain ⟨hname, haddr, huser, hufrag, hpwd⟩ := readSession_short sessionDesc
      obtain ⟨ename, eaddr, euser, eufrag, epwd⟩ := hread.session
      refine ⟨d, hd, ename ▸ hname, eaddr ▸ haddr, euser ▸ huser, eufrag ▸ hufrag, epwd ▸ hpwd, ?_⟩
      intro i
      apply (hiff i).mpr
      constructor
      · intro m hget
        exact hfit.zrtpHash m ((hmem m).mpr ⟨i, i.isLt, hget⟩)
      · exact hfit.fingerprint i i.isLt
  · constructor
    · rintro ⟨d, hd, -⟩
      rw [sdpToMediaDescription, herr hmedia] at hd
      cases hd
    · intro hfit
      exact absurd hfit.media hmedia

/-- An offer whose only candidate has a foundation of forty characters. -/
def longFoundation : BelleSdpSessionDescription where
  mediaDescriptions := [{
    media := { mediaType := "audio".toList, mediaPort := 7078, mediaFormats := [0],
               protocol := some "RTP/AVP".toList }
    attributes := [.raw "candidate".toList
      (some (List.replicate 40 '1' ++ " 1 UDP 1 192.168.0.1 7078 typ host".toList)) rfl] }]

/-- The forty characters are written into `foundation[32]`. -/
theorem readSafely_longFoundation : ¬ ReadSafely longFoundation := by
  rintro ⟨d, hd, -⟩
  cases hd

end GrooveIp.Sal
