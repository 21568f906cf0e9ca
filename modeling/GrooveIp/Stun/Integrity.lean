import GrooveIp.Lib.Fuelled
import GrooveIp.Stun.Safety

/-!
# The integrity value of a parsed message

A parsed message that has a MESSAGE-INTEGRITY attribute holds twenty bytes of it, read
behind the header (`stun.c:482–494, 784–792`): a value of another length is compared through
a NULL pointer before the parser could return it.
-/

namespace GrooveIp.Stun

open Lib

/-- A decoding step that leaves the buffer alone and never moves backwards. -/
def Forward {α : Type} (x : DecodeM α) : Prop :=
  ∀ d a d', x d = .ok (a, d') → d'.buffer = d.buffer ∧ d.ptr ≤ d'.ptr

variable {α : Type} {d d' : StunMessageDecoder}

variable {β : Type} {x : DecodeM α}

theorem DecodeM.bind_ok {f : α → DecodeM β} {b : β}
    (h : (x >>= f) d = .ok (b, d')) : ∃ a d₁, x d = .ok (a, d₁) ∧ f a d₁ = .ok (b, d') := by
  change (x d >>= fun p => f p.1 p.2) = _ at h
  cases hx : x d with
  | error e => rw [hx] at h; cases h
  | ok p => rw [hx] at h; exact ⟨p.1, p.2, rfl, h⟩

theorem Forward.bind {f : α → DecodeM β} (hx : Forward x)
    (hf : ∀ a, Forward (f a)) : Forward (x >>= f) := by
  intro d b d' h
  obtain ⟨a, d₁, h₁, h₂⟩ := DecodeM.bind_ok h
  have hfirst := hx d a d₁ h₁
  have hsecond := hf a d₁ b d' h₂
  exact ⟨hsecond.1.trans hfirst.1, Nat.le_trans hfirst.2 hsecond.2⟩

theorem forward_pure (a : α) : Forward (pure a : DecodeM α) := by
  intro d b d' h
  cases h
  exact ⟨rfl, Nat.le_refl _⟩

theorem forward_setError : Forward setError := by
  intro d b d' h
  cases h
  exact ⟨rfl, Nat.le_refl _⟩

theorem forward_decodeSkip (n : Nat) : Forward (decodeSkip n) := by
  intro d b d' h
  cases h
  exact ⟨rfl, Nat.le_add_right _ _⟩

theorem forward_lift_strEqual (a : Option (List UInt8)) (b : List UInt8) :
    Forward (strEqual a b : DecodeM Bool) := by
  intro d r d' h
  cases a with
  | none => cases h
  | some a => cases h; exact ⟨rfl, Nat.le_refl _⟩

theorem decodeBytes_ok {n : Nat} {bs : List UInt8} (hn : 0 < n)
    (h : decodeBytes n d = .ok (bs, d')) :
    bs.length = n ∧ d.ptr + n ≤ d.buffer.length ∧ d' = d.advance n := by
  unfold decodeBytes readBytes at h
  rw [if_neg (by omega)] at h
  split at h
  · next hle =>
    cases h
    exact ⟨by rw [List.length_take, List.length_drop]; omega, hle, rfl⟩
  · cases h

theorem forward_decodeBytes (n : Nat) : Forward (decodeBytes n) := by
  intro d bs d' h
  unfold decodeBytes at h
  obtain ⟨v, hr, h⟩ := bind_eq_ok.mp h
  cases h
  exact ⟨rfl, Nat.le_add_right _ _⟩

theorem Forward.map (hx : Forward x) (f : α → β) : Forward (do return f (← x)) :=
  hx.bind fun a => forward_pure (f a)

theorem forward_decode8 : Forward decode8 := (forward_decodeBytes 1).map _
theorem forward_decode16 : Forward decode16 := (forward_decodeBytes 2).map _
theorem forward_decode32 : Forward decode32 := (forward_decodeBytes 4).map _
theorem forward_decode64 : Forward decode64 := (forward_decodeBytes 8).map _

theorem forward_decodeAttributeHeader : Forward decodeAttributeHeader :=
  forward_decode16.bind fun _ => forward_decode16.map _

theorem forward_decodePadding (n : Nat) : Forward (decodePadding n) := by
  induction n with
  | zero => exact forward_pure ()
  | succ n ih => exact forward_decode8.bind fun _ => ih

theorem Forward.ite {c : Prop} [Decidable c] {y : DecodeM α} (hx : Forward x)
    (hy : Forward y) : Forward (if c then x else y) := by
  split
  · exact hx
  · exact hy

theorem forward_refuse (a : α) : Forward (do setError; return a : DecodeM α) :=
  forward_setError.bind fun _ => forward_pure a

/-! ### The attribute decoders -/

variable (length : UInt16)

theorem forward_decodeAddr : Forward (decodeAddr length) := by
  refine Forward.ite (forward_refuse _) (forward_decode8.bind fun _ => forward_decode8.bind fun _ => ?_)
  apply Forward.ite
  · exact forward_decode16.bind fun _ => (forward_decodeBytes 16).map _
  · exact forward_decode16.bind fun _ => forward_decode32.map _

theorem forward_decodeXorAddr (trId : List UInt8) : Forward (decodeXorAddr length trId) :=
  (forward_decodeAddr length).map _

theorem forward_decodeFixed [OfNat α 0] (expected length : UInt16) {read : DecodeM α}
    (h : Forward read) : Forward (decodeFixed expected length read) :=
  Forward.ite (forward_refuse _) h

theorem forward_decodeString (maxLength : UInt16) : Forward (decodeString length maxLength) :=
  Forward.ite (forward_refuse _) ((forward_decodeBytes _).map _)

theorem forward_decodeErrorCode : Forward (decodeErrorCode length) := by
  refine Forward.ite (forward_refuse _) (forward_decode16.bind fun _ => forward_decode8.bind
    fun _ => forward_decode8.bind fun _ => ?_)
  apply Forward.ite
  · exact (forward_decodeBytes _).map _
  · exact forward_pure _

theorem forward_decodeMessageIntegrity : Forward (decodeMessageIntegrity length) :=
  Forward.ite (forward_refuse _) ((forward_decodeBytes 20).map _)

theorem forward_decodeAttribute (attr : MSStunAttr) (length : UInt16) (msg : MSStunMessage) :
    Forward (decodeAttribute attr length msg) := by
  cases attr with
  | mappedAddress => exact (forward_decodeAddr length).map _
  | changeRequest => exact (forward_decodeFixed _ _ forward_decode32).map _
  | responseAddress => exact (forward_decodeAddr length).map _
  | sourceAddress => exact (forward_decodeAddr length).map _
  | changedAddress => exact (forward_decodeAddr length).map _
  | username => exact (forward_decodeString _ _).map _
  | password => exact (forward_decodeString _ _).map _
  | messageIntegrity =>
    exact (forward_decodeMessageIntegrity length).bind fun _ => (forward_lift_strEqual _ _).map _
  | errorCode => exact (forward_decodeErrorCode length).map _
  | xorMappedAddress => exact (forward_decodeXorAddr length _).map _
  | software => exact (forward_decodeString _ _).map _
  | fingerprint => exact (forward_decodeFixed _ _ forward_decode32).map _
  | priority => exact (forward_decodeFixed _ _ forward_decode32).map _
  | useCandidate => exact forward_pure _
  | iceControlled => exact (forward_decodeFixed _ _ forward_decode64).map _
  | iceControlling => exact (forward_decodeFixed _ _ forward_decode64).map _
  | xorPeerAddress => exact (forward_decodeXorAddr length _).map _
  | xorRelayedAddress => exact (forward_decodeXorAddr length _).map _
  | lifetime => exact (forward_decodeFixed _ _ forward_decode32).map _
  | data => exact (forward_decodeBytes _).map _
  | realm => exact (forward_decodeString _ _).map _
  | nonce => exact (forward_decodeString _ _).map _
  | unknown type =>
    apply Forward.ite
    · exact forward_pure _
    · exact (forward_decodeSkip _).bind fun _ => forward_pure _

/-! ### The integrity value -/

/-- The integrity value has its twenty bytes, and the buffer `size` bytes to have held them
behind the header. -/
def IntegrityRead (size : Nat) (msg : MSStunMessage) : Prop :=
  msg.hasMessageIntegrity = true → (∃ hmac, msg.messageIntegrity = some hmac ∧ hmac.length = 20) ∧
      stunMessageHeaderLength + 20 ≤ size

theorem DecodeM.map_ok {f : α → β} {b : β}
    (h : (do return f (← x) : DecodeM β) d = .ok (b, d')) : ∃ a, x d = .ok (a, d') ∧ b = f a := by
  obtain ⟨a, d₁, hx, hp⟩ := DecodeM.bind_ok h
  cases hp
  exact ⟨a, hx, rfl⟩

variable {msg msg' : MSStunMessage}

theorem IntegrityRead.congr {size : Nat} (h : IntegrityRead size msg)
    (hflag : msg'.hasMessageIntegrity = msg.hasMessageIntegrity)
    (hval : msg'.messageIntegrity = msg.messageIntegrity) : IntegrityRead size msg' := by
  unfold IntegrityRead
  rw [hflag, hval]
  exact h

theorem decodeAttribute_messageIntegrity_ok {length : UInt16} (hp : stunMessageHeaderLength ≤ d.ptr)
    (h : decodeAttribute .messageIntegrity length msg d = .ok (some msg', d')) :
    IntegrityRead d.buffer.length msg' := by
  obtain ⟨hmac, d₁, hread, hrest⟩ := DecodeM.bind_ok h
  obtain ⟨dummy, -, hmsg⟩ := DecodeM.map_ok hrest
  cases hmsg
  by_cases hlength : length ≠ 20
  · -- the error flag is set, but the NULL pointer is compared first
    rw [decodeMessageIntegrity, if_pos hlength] at hread
    cases hread
    cases hrest
  · rw [decodeMessageIntegrity, if_neg hlength] at hread
    obtain ⟨bs, hbytes, rfl⟩ := DecodeM.map_ok hread
    obtain ⟨hlen, hle, -⟩ := decodeBytes_ok (by decide) hbytes
    intro _
    exact ⟨⟨bs, rfl, hlen⟩, by omega⟩

theorem decodeAttribute_integrityRead {attr : MSStunAttr} {length : UInt16}
    (hp : stunMessageHeaderLength ≤ d.ptr) (hi : IntegrityRead d.buffer.length msg)
    (h : decodeAttribute attr length msg d = .ok (some msg', d')) :
    IntegrityRead d.buffer.length msg' := by
  cases attr with
  | messageIntegrity => exact decodeAttribute_messageIntegrity_ok hp h
  | useCandidate =>
    cases h
    exact hi
  | unknown type =>
    by_cases htype : type ≤ 0x7FFF
    · simp only [decodeAttribute, if_pos htype] at h
      cases h
    · simp only [decodeAttribute, if_neg htype] at h
      cases h
      exact hi
  | _ =>
    obtain ⟨_, _, _, hreturn⟩ := DecodeM.bind_ok h
    cases hreturn
    exact hi.congr rfl rfl

theorem decodeAttributes_integrityRead (fuel : Nat) (d : StunMessageDecoder)
    (msg msg' : MSStunMessage) (hp : stunMessageHeaderLength ≤ d.ptr)
    (hi : IntegrityRead d.buffer.length msg) (h : decodeAttributes fuel d msg = .ok (some msg')) :
    IntegrityRead d.buffer.length msg' := by
  induction fuel generalizing d msg with
  | zero => cases h
  | succ fuel ih =>
    unfold decodeAttributes at h
    split at h
    · obtain ⟨p, hh, h⟩ := bind_eq_ok.mp h
      obtain ⟨⟨type, length⟩, d₁⟩ := p
      have f₁ := forward_decodeAttributeHeader _ _ _ hh
      simp only [bind, Except.bind] at h
      split at h
      · cases h
      · obtain ⟨q, ha, h⟩ := bind_eq_ok.mp h
        obtain ⟨msg?, d₂⟩ := q
        have f₂ := forward_decodeAttribute _ _ _ _ _ _ ha
        cases msg? with
        | none => cases h
        | some msg₂ =>
          have hi₂ := decodeAttribute_integrityRead (by omega) (by rw [f₁.1]; exact hi) ha
          simp only at h
          split at h
          · cases h
          · obtain ⟨r, hpad, h⟩ := bind_eq_ok.mp h
            obtain ⟨u, d₃⟩ := r
            have f₃ := forward_decodePadding _ _ _ _ hpad
            simp only at h
            split at h
            · cases h
            · have hbuf : d₃.buffer = d.buffer := by rw [f₃.1, f₂.1, f₁.1]
              rw [f₁.1, ← hbuf] at hi₂
              rw [← hbuf]
              exact ih d₃ msg₂ (by omega) hi₂ h
    · cases h
      exact hi

theorem decodeMessageHeader_hasMessageIntegrity (h : decodeMessageHeader msg d = .ok (msg', d')) :
    msg'.hasMessageIntegrity = msg.hasMessageIntegrity := by
  obtain ⟨type, d₁, -, h₁⟩ := DecodeM.bind_ok h
  obtain ⟨length, d₂, -, h₂⟩ := DecodeM.bind_ok h₁
  obtain ⟨cookie, d₃, -, h₃⟩ := DecodeM.bind_ok h₂
  by_cases hc : cookie ≠ msStunMagicCookie
  · simp only [if_pos hc] at h₃
    cases h₃
    rfl
  · simp only [if_neg hc] at h₃
    obtain ⟨trId, d₄, h₄⟩ := DecodeM.bind_ok h₃
    cases h₄.2
    rfl

/-- A parsed message has the value its MESSAGE-INTEGRITY flag promises, and was long enough
to carry it. -/
theorem msStunMessageCreateFromBufferParsing_integrityRead {buf : List UInt8}
    (h : msStunMessageCreateFromBufferParsing buf = .ok (some msg)) :
    IntegrityRead buf.length msg := by
  unfold msStunMessageCreateFromBufferParsing at h
  split at h
  · cases h
  · next hlong =>
    obtain ⟨msg₁, d₁, hh, -, hcursor, herror⟩ := decodeMessageHeader_init (Nat.not_lt.mp hlong)
    have hflag := decodeMessageHeader_hasMessageIntegrity hh
    rw [hh] at h
    simp only [bind, Except.bind] at h
    split at h
    · cases h
    · next hok =>
      split at h
      · cases h
      · have hd : d₁ = (stunMessageDecoderInit buf).advance stunMessageHeaderLength :=
          hcursor (Classical.not_not.mp fun hc => hok (herror hc))
        have hi : IntegrityRead d₁.buffer.length msg₁ := by
          intro hset
          rw [hflag] at hset
          cases hset
        have hptr : stunMessageHeaderLength ≤ d₁.ptr := by rw [hd]; exact Nat.le_add_left _ _
        have hbuf : d₁.buffer = buf := by rw [hd]; rfl
        rw [← hbuf]
        exact decodeAttributes_integrityRead _ _ _ _ hptr hi h

end GrooveIp.Stun
