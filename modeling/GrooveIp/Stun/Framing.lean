import Mathlib.Logic.Basic
import GrooveIp.Stun.Parsing

/-!
# Memory safety of the STUN parser

What each attribute decoder does at a position of the buffer is one of three effects: it
consumes a number of bytes, it refuses the message, or it faults. The effect depends on
the attribute, its declared length and the bytes left; from the effects the exact class
of datagrams that are parsed without a fault follows by induction over the attributes.
-/

namespace GrooveIp.Stun

open Lib List

/-! ### Decoders in step with the buffer -/

namespace StunMessageDecoder

/-- The bytes the cursor has not passed. -/
def rest (d : StunMessageDecoder) : List UInt8 := d.buffer.drop d.ptr

/-- The count agrees with the cursor and no error was noted. -/
structure Synced (d : StunMessageDecoder) : Prop where
  ptr_le : d.ptr ≤ d.buffer.length
  remaining_eq : d.remaining = d.rest.length
  error_eq : d.error = false

/-- A fresh decoder has the whole buffer left. -/
theorem rest_init (buf : List UInt8) : (stunMessageDecoderInit buf).rest = buf := rfl

/-- A fresh decoder is in step. -/
theorem synced_init (buf : List UInt8) : (stunMessageDecoderInit buf).Synced :=
  ⟨Nat.zero_le _, rfl, rfl⟩

/-- Moving the cursor drops the bytes it passes. -/
@[simp] theorem rest_advance (d : StunMessageDecoder) (n : Nat) :
    (d.advance n).rest = d.rest.drop n := by
  simp [rest, advance, drop_drop]

/-- Two moves are one. -/
theorem advance_advance (d : StunMessageDecoder) (m n : Nat) (h : d.Synced)
    (hn : m + n ≤ d.rest.length) : (d.advance m).advance n = d.advance (m + n) := by
  have hr := h.remaining_eq
  simp only [advance, StunMessageDecoder.mk.injEq, true_and]
  refine ⟨by omega, by omega, ?_⟩
  have h1 : ¬ d.remaining - (m : Int) < 0 := by omega
  have h2 : ¬ d.remaining - (m : Int) - n < 0 := by omega
  have h3 : ¬ d.remaining - ((m + n : Nat) : Int) < 0 := by omega
  simp only [h1, h2, h3, decide_false, Bool.or_false]

/-- A move within the buffer keeps the decoder in step. -/
theorem Synced.advance {d : StunMessageDecoder} (h : d.Synced) {n : Nat}
    (hn : n ≤ d.rest.length) : (d.advance n).Synced := by
  have hp := h.ptr_le
  have hr := h.remaining_eq
  have hl : d.rest.length = d.buffer.length - d.ptr := length_drop
  refine ⟨?_, ?_, ?_⟩
  · simp only [StunMessageDecoder.advance]; omega
  · rw [rest_advance, length_drop]
    simp only [StunMessageDecoder.advance]
    omega
  · have hz : ¬ d.remaining - (n : Int) < 0 := by omega
    simp [StunMessageDecoder.advance, h.error_eq, hz]

theorem Synced.advance_zero {d : StunMessageDecoder} (h : d.Synced) : d.advance 0 = d := by
  have hr := h.remaining_eq
  have hz : ¬ d.remaining - (0 : Nat) < 0 := by omega
  simp only [StunMessageDecoder.advance, hz, decide_false, Bool.or_false]
  cases d
  simp only [StunMessageDecoder.mk.injEq, true_and, and_true]
  omega

end StunMessageDecoder

open StunMessageDecoder

/-! ### Decoding steps of a known size -/

/-- The result of a step that reads `n` bytes from `d`: a success exactly where that many
are left. -/
def ReadsAt {α : Type} (d : StunMessageDecoder) (n : Nat)
    (r : Except Fault (α × StunMessageDecoder)) : Prop :=
  (n ≤ d.rest.length → ∃ a, r = .ok (a, d.advance n)) ∧
  (d.rest.length < n → r = .error .outOfBounds)

/-- A step that reads `n` bytes wherever it starts. -/
def Reads {α : Type} (n : Nat) (x : DecodeM α) : Prop :=
  ∀ d : StunMessageDecoder, d.Synced → ReadsAt d n (x d)

variable {d : StunMessageDecoder} {n : Nat}

/-- The value of a read in step with the buffer is the next bytes. -/
theorem decodeBytes_of_le (h : d.Synced) (hn : n ≤ d.rest.length) :
    decodeBytes n d = .ok (d.rest.take n, d.advance n) := by
  have hp := h.ptr_le
  have hl : d.rest.length = d.buffer.length - d.ptr := length_drop
  have hb : d.ptr + n ≤ d.buffer.length := by omega
  simp only [decodeBytes, readBytes_of_le hb]
  rfl

theorem reads_decodeBytes (n : Nat) : Reads n (decodeBytes n) := by
  intro d h
  refine ⟨fun hn => ⟨_, decodeBytes_of_le h hn⟩, fun hn => ?_⟩
  have hl : d.rest.length = d.buffer.length - d.ptr := length_drop
  have hz : 0 < n := by omega
  have hb : d.buffer.length < d.ptr + n := by have hp := h.ptr_le; omega
  simp only [decodeBytes, readBytes_of_lt hz hb]
  rfl

variable {α : Type}

theorem reads_pure (a : α) : Reads 0 (pure a : DecodeM α) :=
  fun _ h => ⟨fun _ => ⟨a, by rw [h.advance_zero]; rfl⟩, fun hn => absurd hn (Nat.not_lt_zero _)⟩

variable {x : DecodeM α}

variable {β : Type} {read : DecodeM α}

theorem ReadsAt.bind {m : Nat} {f : α → DecodeM β} {a : α}
    (h : d.Synced) (hm : m ≤ d.rest.length) (hx : x d = .ok (a, d.advance m))
    (hf : ReadsAt (d.advance m) n (f a (d.advance m))) : ReadsAt d (m + n) ((x >>= f) d) := by
  have hrun : (x >>= f) d = f a (d.advance m) := by
    show (x d >>= fun p => f p.1 p.2) = _
    rw [hx]
    rfl
  have hrest : (d.advance m).rest.length = d.rest.length - m := by
    rw [rest_advance, length_drop]
  rw [hrun]
  refine ⟨fun hn => ?_, fun hn => hf.2 (by omega)⟩
  obtain ⟨b, hb⟩ := hf.1 (by omega)
  exact ⟨b, by rw [hb, advance_advance d m n h hn]⟩

theorem Reads.bind {m : Nat} {f : α → DecodeM β}
    (hx : Reads m x) (hf : ∀ a, Reads n (f a)) : Reads (m + n) (x >>= f) := by
  intro d h
  by_cases hm : m ≤ d.rest.length
  · obtain ⟨a, ha⟩ := (hx d h).1 hm
    exact ReadsAt.bind h hm ha (hf a _ (h.advance hm))
  · refine ⟨fun hn => absurd (by omega) hm, fun _ => ?_⟩
    show (x d >>= fun p => f p.1 p.2) = _
    rw [(hx d h).2 (by omega)]
    rfl

theorem Reads.map (hx : Reads n x) (f : α → β) : Reads n (do return f (← x)) :=
  hx.bind fun a => reads_pure (f a)

theorem reads_decode8 : Reads 1 decode8 := (reads_decodeBytes 1).map _
theorem reads_decode16 : Reads 2 decode16 := (reads_decodeBytes 2).map _
theorem reads_decode32 : Reads 4 decode32 := (reads_decodeBytes 4).map _
theorem reads_decode64 : Reads 8 decode64 := (reads_decodeBytes 8).map _

/-- The attribute header takes four bytes. -/
theorem reads_decodeAttributeHeader : Reads 4 decodeAttributeHeader :=
  reads_decode16.bind fun _ => reads_decode16.map _

/-- The padding loop reads as many bytes as it counts. -/
theorem reads_decodePadding (n : Nat) : Reads n (decodePadding n) := by
  induction n with
  | zero => exact reads_pure ()
  | succ n ih =>
    show Reads (n + 1) (decode8 >>= fun _ => decodePadding n)
    rw [Nat.add_comm]
    exact reads_decode8.bind fun _ => ih

/-! ### Refusals -/

/-- A step that only notes an error. -/
def Refuses {α : Type} (x : DecodeM α) : Prop :=
  ∀ d, ∃ a d', x d = .ok (a, d') ∧ d'.error = true

theorem refuses_setError (a : α) : Refuses (do setError; return a : DecodeM α) :=
  fun d => ⟨a, { d with error := true }, rfl, rfl⟩

theorem Refuses.map (hx : Refuses x) (f : α → β) : Refuses (do return f (← x)) := by
  intro d
  obtain ⟨a, d', hr, he⟩ := hx d
  refine ⟨f a, d', ?_, he⟩
  show (x d >>= fun p => Except.ok (f p.1, p.2)) = _
  rw [hr]
  rfl

/-! ### The attribute decoders -/

variable {length : UInt16}

theorem reads_decodeFixed [OfNat α 0] {expected : UInt16}
    (h : length = expected) (hr : Reads n read) : Reads n (decodeFixed expected length read) := by
  rw [decodeFixed, if_neg (not_not_intro h)]
  exact hr

theorem refuses_decodeFixed [OfNat α 0] {expected : UInt16}
    (h : length ≠ expected) : Refuses (decodeFixed expected length read) := by
  rw [decodeFixed, if_pos h]
  exact refuses_setError 0

variable {maxLength : UInt16}

theorem reads_decodeString (h : ¬ length > maxLength) :
    Reads length.toNat (decodeString length maxLength) := by
  rw [decodeString, if_neg h]
  exact (reads_decodeBytes _).map _

theorem refuses_decodeString (h : length > maxLength) :
    Refuses (decodeString length maxLength) := by
  rw [decodeString, if_pos h]
  exact refuses_setError none

theorem reads_decodeErrorCode (h : ¬ (length < 4 ∨ length > stunMaxReasonLength + 4)) :
    Reads length.toNat (decodeErrorCode length) := by
  have h4 : 4 ≤ length.toNat := by
    have : ¬ length.toNat < (4 : UInt16).toNat := fun hlt => h (.inl hlt)
    simpa using this
  have hsub : (length - 4).toNat = length.toNat - 4 := by
    rw [UInt16.toNat_sub_of_le _ _ (UInt16.le_iff_toNat_le.mpr (by simpa using h4))]
    rfl
  rw [decodeErrorCode, if_neg h, show length.toNat = 2 + (1 + (1 + (length.toNat - 4))) by omega]
  refine reads_decode16.bind fun _ => reads_decode8.bind fun _ => reads_decode8.bind fun _ => ?_
  by_cases hr : length - 4 > 0
  · simp only [hr, if_true, ← hsub]
    exact (reads_decodeBytes _).map _
  · have hz : length.toNat - 4 = 0 := by
      have : ¬ (0 : UInt16).toNat < (length - 4).toNat := hr
      rw [← hsub]
      simpa using this
    simp only [hr, if_false, hz]
    exact reads_pure _

theorem refuses_decodeErrorCode (h : length < 4 ∨ length > stunMaxReasonLength + 4) :
    Refuses (decodeErrorCode length) := by
  rw [decodeErrorCode, if_pos h]
  exact refuses_setError (0, none)

theorem decode8_of_cons (h : d.Synced) {b : UInt8} {bs : List UInt8}
    (hb : d.rest = b :: bs) : decode8 d = .ok (b, d.advance 1) := by
  have hn : 1 ≤ d.rest.length := by simp [hb]
  show (decodeBytes 1 d >>= fun p => Except.ok (UInt8.ofNat (beNat p.1), p.2)) = _
  rw [decodeBytes_of_le h hn, hb]
  show Except.ok (UInt8.ofNat (0 * 256 + b.toNat), d.advance 1) = _
  rw [Nat.zero_mul, Nat.zero_add, UInt8.ofNat_toNat]

/-- How many bytes an address value takes (`stun.c:411–419`): its second byte, the family,
says so. -/
def addressSize (rest : List UInt8) : Nat :=
  if rest[1]? = some msStunAddrFamilyIpv6 then 20 else 8

theorem readsAt_decodeAddr (h : d.Synced) (hl : ¬ (length ≠ 8 ∧ length ≠ 20))
    (h2 : 2 ≤ d.rest.length) : ReadsAt d (addressSize d.rest) (decodeAddr length d) := by
  match hrest : d.rest, h2 with
  | b :: family :: bs, _ =>
    have h1 : 1 ≤ d.rest.length := by simp [hrest]
    have hs := h.advance h1
    have hrest' : (d.advance 1).rest = family :: bs := by rw [rest_advance, hrest]; rfl
    have h1' : 1 ≤ (d.advance 1).rest.length := by simp [hrest']
    have hsize : addressSize (b :: family :: bs) =
        1 + (1 + if family = msStunAddrFamilyIpv6 then 18 else 6) := by
      simp only [addressSize, List.getElem?_cons_succ, List.getElem?_cons_zero, Option.some.injEq]
      split <;> rfl
    rw [hsize, decodeAddr, if_neg hl]
    refine ReadsAt.bind h h1 (decode8_of_cons h hrest) ?_
    refine ReadsAt.bind hs h1' (decode8_of_cons hs hrest') ?_
    have hss := hs.advance h1'
    by_cases hf : family = msStunAddrFamilyIpv6
    · rw [if_pos hf, if_pos hf]
      exact reads_decode16.bind (fun _ => (reads_decodeBytes 16).map _) _ hss
    · rw [if_neg hf, if_neg hf]
      exact reads_decode16.bind (fun _ => reads_decode32.map _) _ hss

theorem refuses_decodeAddr (h : length ≠ 8 ∧ length ≠ 20) : Refuses (decodeAddr length) := by
  rw [decodeAddr, if_pos h]
  exact refuses_setError ({} : MSStunAddress)

/-! ### Effects -/

/-- What a decoding step does at a decoder that is in step: it moves on by `n` bytes, it
refuses the message, or it faults. -/
inductive Effect where
  | consumes (n : Nat)
  | refuses
  | faults
  deriving DecidableEq, Repr

/-- A result exhibits an effect; `none` and a set error flag both refuse. -/
def Effect.Exhibited (d : StunMessageDecoder) : Effect →
    Except Fault (Option MSStunMessage × StunMessageDecoder) → Prop
  | .consumes n, r => n ≤ d.rest.length ∧ ∃ msg, r = .ok (some msg, d.advance n)
  | .refuses, r => ∃ msg d', r = .ok (msg, d') ∧ (msg = none ∨ d'.error = true)
  | .faults, r => r = .error .outOfBounds ∨ r = .error .nullDereference

/-- The effect of one case of the switch on a value of the declared length. -/
def attributeEffect (attr : MSStunAttr) (length : UInt16) (rest : List UInt8) : Effect :=
  match attr with
  | .mappedAddress | .responseAddress | .sourceAddress | .changedAddress
  | .xorMappedAddress | .xorPeerAddress | .xorRelayedAddress =>
    if length ≠ 8 ∧ length ≠ 20 then .refuses
    else if addressSize rest ≤ rest.length then .consumes (addressSize rest) else .faults
  | .changeRequest | .fingerprint | .priority | .lifetime =>
    if length ≠ 4 then .refuses else .consumes 4
  | .iceControlled | .iceControlling => if length ≠ 8 then .refuses else .consumes 8
  | .username | .password =>
    if length > stunMaxUsernameLength then .refuses else .consumes length.toNat
  | .software => if length > stunMaxSoftwareLength then .refuses else .consumes length.toNat
  | .realm => if length > stunMaxRealmLength then .refuses else .consumes length.toNat
  | .nonce => if length > stunMaxNonceLength then .refuses else .consumes length.toNat
  | .errorCode =>
    if length < 4 ∨ length > stunMaxReasonLength + 4 then .refuses
    else .consumes length.toNat
  | .messageIntegrity => if length ≠ 20 then .faults else .consumes 20
  | .useCandidate => .consumes 0
  | .data => .consumes length.toNat
  | .unknown type => if type ≤ 0x7FFF then .refuses else .consumes length.toNat

theorem exhibited_of_readsAt (hx : ReadsAt d n (x d))
    (hn : n ≤ d.rest.length) (f : α → MSStunMessage) :
    (Effect.consumes n).Exhibited d ((do return some (f (← x)) : DecodeM _) d) := by
  obtain ⟨a, ha⟩ := hx.1 hn
  refine ⟨hn, f a, ?_⟩
  show (x d >>= fun p => Except.ok (some (f p.1), p.2)) = _
  rw [ha]
  rfl

theorem exhibited_of_short (hx : ReadsAt d n (x d))
    (hn : ¬ n ≤ d.rest.length) (f : α → MSStunMessage) :
    Effect.faults.Exhibited d ((do return some (f (← x)) : DecodeM _) d) := by
  refine .inl ?_
  show (x d >>= fun p => Except.ok (some (f p.1), p.2)) = _
  rw [hx.2 (by omega)]
  rfl

theorem exhibited_of_refuses (hx : Refuses x) (f : α → MSStunMessage) :
    Effect.refuses.Exhibited d ((do return some (f (← x)) : DecodeM _) d) := by
  obtain ⟨a, d', hr, he⟩ := hx.map (fun a => some (f a)) d
  exact ⟨a, d', hr, .inr he⟩

theorem exhibited_decodeAddr (h : d.Synced) (hl : length.toNat ≤ d.rest.length)
    (f : MSStunAddress → MSStunMessage) : (if length ≠ 8 ∧ length ≠ 20 then Effect.refuses
      else if addressSize d.rest ≤ d.rest.length then .consumes (addressSize d.rest)
      else .faults).Exhibited d ((do return some (f (← decodeAddr length)) : DecodeM _) d) := by
  split
  · next hb => exact exhibited_of_refuses (refuses_decodeAddr hb) f
  · next hb =>
    have h2 : 2 ≤ d.rest.length := by
      rcases not_and_or.mp hb with h8 | h20
      · rw [not_not.mp h8] at hl; exact Nat.le_trans (by decide) hl
      · rw [not_not.mp h20] at hl; exact Nat.le_trans (by decide) hl
    have hr := readsAt_decodeAddr h hb h2
    split
    · next hn => exact exhibited_of_readsAt hr hn f
    · next hn => exact exhibited_of_short hr hn f

theorem exhibited_decodeXorAddr (h : d.Synced) (hl : length.toNat ≤ d.rest.length)
    (trId : List UInt8) (f : MSStunAddress → MSStunMessage) :
    (if length ≠ 8 ∧ length ≠ 20 then Effect.refuses
      else if addressSize d.rest ≤ d.rest.length then .consumes (addressSize d.rest)
      else .faults).Exhibited d
        ((do return some (f (← decodeXorAddr length trId)) : DecodeM _) d) := by
  have hx : (do return some (f (← decodeXorAddr length trId)) : DecodeM _) d =
      (do return some (f (stunAddressXor (← decodeAddr length) trId)) : DecodeM _) d := by
    show ((decodeAddr length d >>= _) >>= _) = (decodeAddr length d >>= _)
    cases decodeAddr length d <;> rfl
  rw [hx]
  exact exhibited_decodeAddr h hl fun a => f (stunAddressXor a trId)

theorem exhibited_decodeFixed [OfNat α 0] (h : d.Synced) (expected : UInt16)
    (hr : Reads expected.toNat read) (hl : length.toNat ≤ d.rest.length) (f : α → MSStunMessage) :
    (if length ≠ expected then Effect.refuses else .consumes expected.toNat).Exhibited d
      ((do return some (f (← decodeFixed expected length read)) : DecodeM _) d) := by
  split
  · next hb => exact exhibited_of_refuses (refuses_decodeFixed hb) f
  · next hb =>
    have he : length = expected := not_not.mp hb
    exact exhibited_of_readsAt (reads_decodeFixed he hr d h) (he ▸ hl) f

theorem exhibited_decodeString (h : d.Synced) (hl : length.toNat ≤ d.rest.length)
    (f : Option (List UInt8) → MSStunMessage) :
    (if length > maxLength then Effect.refuses else .consumes length.toNat).Exhibited d
      ((do return some (f (← decodeString length maxLength)) : DecodeM _) d) := by
  split
  · next hb => exact exhibited_of_refuses (refuses_decodeString hb) f
  · next hb => exact exhibited_of_readsAt (reads_decodeString hb d h) hl f

theorem exhibited_messageIntegrity (h : d.Synced) (hl : length.toNat ≤ d.rest.length)
    (msg : MSStunMessage) : (if length ≠ 20 then Effect.faults else .consumes 20).Exhibited d
      (decodeAttribute .messageIntegrity length msg d) := by
  split
  · next hb =>
    refine .inr ?_
    simp only [decodeAttribute, decodeMessageIntegrity, if_pos hb]
    rfl
  · next hb =>
    have hn : 20 ≤ d.rest.length := by
      rw [not_not.mp hb] at hl; exact hl
    have hread : decodeMessageIntegrity length d = .ok (some (d.rest.take 20), d.advance 20) := by
      rw [decodeMessageIntegrity, if_neg hb]
      show (decodeBytes 20 d >>= fun p => Except.ok (some p.1, p.2)) = _
      rw [decodeBytes_of_le h hn]
      rfl
    refine ⟨hn, { msg with
      messageIntegrity := some (d.rest.take 20)
      hasMessageIntegrity := true
      hasDummyMessageIntegrity := msg.hasDummyMessageIntegrity ||
        decide (cString (d.rest.take 20) = hmacNotImplemented) }, ?_⟩
    show (decodeMessageIntegrity length d >>= _) = _
    rw [hread]
    rfl

/-- Every case of the switch has its stated effect, given that the declared length fits in
the bytes left. -/
theorem decodeAttribute_exhibits (h : d.Synced) (attr : MSStunAttr)
    (hl : length.toNat ≤ d.rest.length) (msg : MSStunMessage) :
    (attributeEffect attr length d.rest).Exhibited d (decodeAttribute attr length msg d) := by
  cases attr with
  | mappedAddress => exact exhibited_decodeAddr h hl _
  | changeRequest => exact exhibited_decodeFixed h 4 reads_decode32 hl _
  | responseAddress => exact exhibited_decodeAddr h hl fun _ => msg
  | sourceAddress => exact exhibited_decodeAddr h hl fun _ => msg
  | changedAddress => exact exhibited_decodeAddr h hl fun _ => msg
  | username => exact exhibited_decodeString h hl _
  | password => exact exhibited_decodeString h hl fun _ => msg
  | messageIntegrity => exact exhibited_messageIntegrity h hl msg
  | errorCode =>
    simp only [attributeEffect]
    split
    · next hb => exact exhibited_of_refuses (refuses_decodeErrorCode hb) fun p =>
        msg.setErrorCode p.1 p.2
    · next hb => exact exhibited_of_readsAt (reads_decodeErrorCode hb d h) hl fun p =>
        msg.setErrorCode p.1 p.2
  | xorMappedAddress => exact exhibited_decodeXorAddr h hl msg.trId _
  | software => exact exhibited_decodeString h hl _
  | fingerprint => exact exhibited_decodeFixed h 4 reads_decode32 hl _
  | priority => exact exhibited_decodeFixed h 4 reads_decode32 hl _
  | useCandidate =>
    exact ⟨Nat.zero_le _, msg.enableUseCandidate true, by rw [h.advance_zero]; rfl⟩
  | iceControlled => exact exhibited_decodeFixed h 8 reads_decode64 hl _
  | iceControlling => exact exhibited_decodeFixed h 8 reads_decode64 hl _
  | xorPeerAddress => exact exhibited_decodeXorAddr h hl msg.trId _
  | xorRelayedAddress => exact exhibited_decodeXorAddr h hl msg.trId _
  | lifetime => exact exhibited_decodeFixed h 4 reads_decode32 hl _
  | data => exact exhibited_of_readsAt (reads_decodeBytes _ d h) hl _
  | realm => exact exhibited_decodeString h hl _
  | nonce => exact exhibited_decodeString h hl _
  | unknown type =>
    simp only [attributeEffect]
    split
    · next ht =>
      refine ⟨none, d, ?_, .inl rfl⟩
      simp only [decodeAttribute, if_pos ht]
      rfl
    · next ht =>
      refine ⟨hl, msg, ?_⟩
      simp only [decodeAttribute, if_neg ht]
      rfl

end GrooveIp.Stun
