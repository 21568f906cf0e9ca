import GrooveIp.Rtt.Sink
import Mathlib.Tactic.Common

/-!
# The two codecs of real-time text

What the source puts for a character below `0x10000` the sink takes for valid and reads back; a byte order
mark is valid and skipped.
-/

namespace GrooveIp.Rtt

open List
open UInt8 (ofNat toNat toNat_ofNat')

/-- The characters that the source puts right. -/
def Plain (c : Nat) : Prop := 0 < c ∧ c < 0x10000

theorem utf8Test_ofNat {n : Nat} (h : n < 256) :
    utf8Test (ofNat n) = if n < 128 then 1 else if n < 192 then 0 else if n < 224 then 2
      else if n < 240 then 3 else if n < 248 then 4 else -1 := by
  have hall : ∀ n < 256, utf8Test (ofNat n) =
      if n < 128 then 1 else if n < 192 then 0 else if n < 224 then 2
      else if n < 240 then 3 else if n < 248 then 4 else -1 := by decide +kernel
  exact hall n h

theorem utf8Test_tail {n : Nat} (h : n < 64) : utf8Test (ofNat (0x80 + n)) = 0 := by
  rw [utf8Test_ofNat (by omega), if_neg (by omega), if_pos (by omega)]

theorem isUtf8From_lead {b : UInt8} {k : Int} (hb : utf8Test b = k) (hk : 0 < k)
    (rest : List UInt8) : isUtf8From 0 (b :: rest) = isUtf8From (k - 1) rest := by
  rw [isUtf8From, if_pos rfl, hb, if_neg (by omega)]

theorem isUtf8From_tail {b : UInt8} {t : Int} (hb : utf8Test b = 0) (ht : t ≠ 0)
    (rest : List UInt8) : isUtf8From t (b :: rest) = isUtf8From (t - 1) rest := by
  rw [isUtf8From, if_neg ht, if_neg (by simp [hb])]

/-- The bytes of some characters. -/
def encode (cs : List Nat) : List UInt8 := cs.flatMap encodeChar

/-- How a plain character is put. -/
theorem encodeChar_of_plain {c : Nat} (h : Plain c) : (c < 0x80 ∧ encodeChar c = [ofNat c]) ∨
      (0x80 ≤ c ∧ c < 0x800 ∧
        encodeChar c = [ofNat (0xC0 + c / 64), ofNat (0x80 + c % 64)]) ∨
      (0x800 ≤ c ∧ encodeChar c = [ofNat (0xE0 + c / 4096),
        ofNat (0x80 + c / 64 % 64), ofNat (0x80 + c % 64)]) := by
  obtain ⟨-, hlt⟩ := h
  unfold encodeChar
  by_cases hone : c < 0x80
  · exact .inl ⟨hone, if_pos hone⟩
  by_cases htwo : c < 0x800
  · refine .inr (.inl ⟨by omega, htwo, ?_⟩)
    rw [if_neg hone, if_pos htwo, show c / 2 ^ 6 % 32 = c / 64 by omega]
  · refine .inr (.inr ⟨by omega, ?_⟩)
    rw [if_neg hone, if_neg htwo, if_pos (by omega), show c / 2 ^ 12 % 16 = c / 4096 by omega,
      show (2 : Nat) ^ 6 = 64 from rfl]

theorem isUtf8From_encodeChar {c : Nat} (h : Plain c) (rest : List UInt8) :
    isUtf8From 0 (encodeChar c ++ rest) = isUtf8From 0 rest := by
  have hlt := h.2
  obtain ⟨hone, heq⟩ | ⟨hlow, htwo, heq⟩ | ⟨hthree, heq⟩ := encodeChar_of_plain h
  · rw [heq]
    have hlead : utf8Test (ofNat c) = 1 := by
      rw [utf8Test_ofNat (by omega), if_pos hone]
    exact isUtf8From_lead hlead (by decide) rest
  · rw [heq]
    have hlead : utf8Test (ofNat (0xC0 + c / 64)) = 2 := by
      rw [utf8Test_ofNat (by omega), if_neg (by omega), if_neg (by omega), if_pos (by omega)]
    have htail := utf8Test_tail (n := c % 64) (by omega)
    exact (isUtf8From_lead hlead (by decide) _).trans (isUtf8From_tail htail (by decide) rest)
  · rw [heq]
    have hlead : utf8Test (ofNat (0xE0 + c / 4096)) = 3 := by
      rw [utf8Test_ofNat (by omega), if_neg (by omega), if_neg (by omega), if_neg (by omega),
        if_pos (by omega)]
    have hmiddle := utf8Test_tail (n := c / 64 % 64) (by omega)
    have htail := utf8Test_tail (n := c % 64) (by omega)
    exact ((isUtf8From_lead hlead (by decide) _).trans
      (isUtf8From_tail hmiddle (by decide) _)).trans (isUtf8From_tail htail (by decide) rest)

variable {cs : List Nat}

/-- Plain characters are valid. -/
theorem isUtf8BufOk_encode (h : ∀ c ∈ cs, Plain c) : isUtf8BufOk (encode cs) = true := by
  unfold isUtf8BufOk
  induction cs with
  | nil => rfl
  | cons c cs ih =>
    rw [encode, flatMap_cons, isUtf8From_encodeChar (h c mem_cons_self)]
    exact ih fun c hc => h c (mem_cons_of_mem _ hc)

theorem getByte_cons {n : Nat} (hpos : 0 < n) (hlt : n < 256) (hmark : n ≠ 0xEF)
    (rest : List UInt8) : getByte (ofNat n :: rest) = (n, rest) := by
  have hne : ofNat n ≠ 0 := by
    intro heq
    have := congrArg toNat heq
    rw [toNat_ofNat', UInt8.toNat_zero] at this
    omega
  have hother : ofNat n ≠ 0xEF := by
    intro heq
    have := congrArg toNat heq
    change n % 2 ^ 8 = 239 at this
    omega
  have hfound : getchar (ofNat n :: rest) = some (ofNat n, rest) := by
    rw [getchar.eq_def]
    split
    · next h => cases h
    · next h =>
      exact absurd (List.cons.inj h).1 hother
    · next h =>
      obtain ⟨hb, hr⟩ := List.cons.inj h
      rw [← hb, ← hr, if_pos hne]
  unfold getByte
  rw [hfound]
  simp only [toNat_ofNat', Prod.mk.injEq, and_true]
  omega

theorem getByte_three {a b c : Nat} (ha : 0 < a ∧ a < 256) (hb : b < 256) (hc : c < 256)
    (hmark : ¬ (a = 0xEF ∧ b = 0xBB ∧ c = 0xBF)) (rest : List UInt8) :
    getByte (ofNat a :: ofNat b :: ofNat c :: rest) =
      (a, ofNat b :: ofNat c :: rest) := by
  have hnat : ∀ n m : Nat, n < 256 → m < 256 → ofNat n = ofNat m → n = m := by
    intro n m hn hm heq
    have := congrArg toNat heq
    rw [toNat_ofNat', toNat_ofNat'] at this
    omega
  have hne : ofNat a ≠ 0 := fun heq => by
    have := hnat a 0 ha.2 (by decide) heq
    omega
  have hfound : getchar (ofNat a :: ofNat b :: ofNat c :: rest) =
      some (ofNat a, ofNat b :: ofNat c :: rest) := by
    rw [getchar.eq_def]
    split
    · next h => cases h
    · next h =>
      obtain ⟨h1, h'⟩ := List.cons.inj h
      obtain ⟨h2, h''⟩ := List.cons.inj h'
      obtain ⟨h3, -⟩ := List.cons.inj h''
      exact absurd ⟨hnat a 0xEF ha.2 (by decide) h1, hnat b 0xBB hb (by decide) h2,
        hnat c 0xBF hc (by decide) h3⟩ hmark
    · next h =>
      obtain ⟨hb', hr⟩ := List.cons.inj h
      rw [← hb', ← hr, if_pos hne]
  unfold getByte
  rw [hfound]
  simp only [toNat_ofNat', Prod.mk.injEq, and_true]
  omega

theorem getchar32_encodeChar {c : Nat} (h : Plain c) (hmark : c ≠ 0xFEFF) (rest : List UInt8) :
    getchar32 (encodeChar c ++ rest) = (c, rest) := by
  have hpos := h.1
  have hlt := h.2
  obtain ⟨hone, heq⟩ | ⟨hlow, htwo, heq⟩ | ⟨hthree, heq⟩ := encodeChar_of_plain h
  · rw [heq]
    have hlead : utf8Test (ofNat c) = 1 := by
      rw [utf8Test_ofNat (by omega), if_pos hone]
    unfold getchar32
    simp only [cons_append, nil_append]
    rw [getByte_cons hpos (by omega) (by omega)]
    simp only [hlead]
  · rw [heq]
    have hlead : utf8Test (ofNat (0xC0 + c / 64)) = 2 := by
      rw [utf8Test_ofNat (by omega), if_neg (by omega), if_neg (by omega), if_pos (by omega)]
    unfold getchar32
    simp only [cons_append, nil_append]
    rw [getByte_cons (by omega) (by omega) (by omega)]
    simp only [hlead]
    rw [getByte_cons (by omega) (by omega) (by omega)]
    simp only [Prod.mk.injEq, and_true]
    omega
  · rw [heq]
    have hlead : utf8Test (ofNat (0xE0 + c / 4096)) = 3 := by
      rw [utf8Test_ofNat (by omega), if_neg (by omega), if_neg (by omega), if_neg (by omega),
        if_pos (by omega)]
    unfold getchar32
    simp only [cons_append, nil_append]
    rw [getByte_three (by omega) (by omega) (by omega) (by omega)]
    simp only [hlead]
    rw [getByte_cons (by omega) (by omega) (by omega)]
    rw [getByte_cons (by omega) (by omega) (by omega)]
    simp only [Prod.mk.injEq, and_true]
    omega

theorem getchar_bom (rest : List UInt8) : getchar (encodeChar 0xFEFF ++ rest) = getchar rest := rfl

theorem getchar32_bom {rest : List UInt8} (h : getchar rest ≠ none) :
    getchar32 (encodeChar 0xFEFF ++ rest) = getchar32 rest := by
  have hbyte : getByte (encodeChar 0xFEFF ++ rest) = getByte rest := by
    unfold getByte
    rw [getchar_bom]
    split
    · rfl
    · next hnone => exact absurd hnone h
  unfold getchar32
  rw [hbyte]

theorem notify_bom (fuel : Nat) (rest : List UInt8) :
    notify (fuel + 1) (encodeChar 0xFEFF ++ rest) = notify (fuel + 1) rest := by
  by_cases h : getchar rest = none
  · have hnull : ∀ bytes, getchar bytes = none → notify (fuel + 1) bytes = .ok [] := by
      intro bytes hbytes
      have hbyte : getByte bytes = (0, bytes) := by
        unfold getByte
        rw [hbytes]
      rw [notify]
      unfold getchar32
      rw [hbyte]
      rfl
    rw [hnull _ ((getchar_bom rest).trans h), hnull _ h]
  · rw [notify, notify, getchar32_bom h]

/-- The characters of a buffer are notified, without the byte order marks. -/
theorem notify_encode (h : ∀ c ∈ cs, Plain c) {fuel : Nat} (hfuel : cs.length < fuel) :
    notify fuel (encode cs) = .ok (cs.filter (· ≠ 0xFEFF)) := by
  obtain _ | fuel := fuel
  · cases hfuel
  induction cs generalizing fuel with
  | nil => rfl
  | cons c cs ih =>
    have hc := h c mem_cons_self
    have hrest : ∀ c ∈ cs, Plain c := fun c hc => h c (mem_cons_of_mem _ hc)
    rw [encode, flatMap_cons]
    by_cases hmark : c = 0xFEFF
    · rw [hmark, notify_bom, filter_cons_of_neg (by simp)]
      exact ih hrest fuel (Nat.lt_of_succ_lt hfuel)
    · obtain _ | fuel := fuel
      · simp at hfuel
      rw [notify, getchar32_encodeChar hc hmark]
      have hne : c ≠ 0 := Nat.pos_iff_ne_zero.mp hc.1
      have hlater := ih hrest fuel (by simpa using hfuel)
      unfold encode at hlater
      simp only [hne, ne_eq, not_false_eq_true, if_true, bind, Except.bind, hlater]
      rw [filter_cons_of_pos (by simpa using hmark)]

/-- A character takes a byte at least. -/
theorem length_le_encode (h : ∀ c ∈ cs, Plain c) : cs.length ≤ (encode cs).length := by
  induction cs with
  | nil => exact Nat.zero_le _
  | cons c cs ih =>
    have hsize : 1 ≤ (encodeChar c).length := by
      obtain ⟨-, heq⟩ | ⟨-, -, heq⟩ | ⟨-, heq⟩ := encodeChar_of_plain (h c mem_cons_self)
      · rw [heq]; simp
      · rw [heq]; simp
      · rw [heq]; simp
    have := ih fun c hc => h c (mem_cons_of_mem _ hc)
    rw [encode, flatMap_cons, length_append, length_cons]
    unfold encode at this
    omega

/-- The bytes of two texts one after the other. -/
theorem encode_append (first second : List Nat) :
    encode (first ++ second) = encode first ++ encode second := flatMap_append

end GrooveIp.Rtt
