import Mathlib.Data.List.TakeWhile
import GrooveIp.Sip.Escapes

/-!
# What comes back of an escaped component

The escaped form of a string is read back byte for byte as long as no percent sign stands in it
unescaped with two characters behind. The table of the parameters leaves the percent sign as it is,
so a parameter comes back exactly if its percent signs stand at its end.
-/

namespace GrooveIp.Sip

open Lib List
open List (cons)

/-! ### The escaped form -/

/-- One byte in the escaped form. -/
def escapeByte (noescapes : NoescapeRules) (c : UInt8) : List UInt8 :=
  if noescapes c then [c] else escapeOf c

/-- The text of the escaped form. -/
def escapedForm (noescapes : NoescapeRules) (s : List UInt8) : List UInt8 :=
  s.flatMap (escapeByte noescapes)

theorem escapeStep_eq (noescapes : NoescapeRules) (origSize : Nat) {buffer : EscapeBuffer}
    (h : buffer.written.length ≤ buffer.outbufSize) (c : UInt8) :
    ∃ buffer', escapeStep noescapes origSize buffer c = .ok buffer' ∧
      buffer'.written = buffer.written ++ escapeByte noescapes c ∧
      buffer'.written.length ≤ buffer'.outbufSize := by
  have hwrite (size : Nat) (hsize : buffer.written.length + 3 ≤ size) (bytes : List UInt8)
      (hbytes : bytes.length ≤ 3) : ∃ buffer',
        EscapeBuffer.write ⟨size, buffer.written⟩ bytes = .ok buffer' ∧
        buffer'.written = buffer.written ++ bytes ∧
        buffer'.written.length ≤ buffer'.outbufSize := by
    refine ⟨_, if_pos (by simp only; omega), rfl, ?_⟩
    rw [length_append]
    simp only
    omega
  have hroom : ∃ size, buffer.written.length + 3 ≤ size ∧
      (if buffer.outbufSize < buffer.written.length + 3 then
        { buffer with outbufSize := buffer.outbufSize + max (origSize / 2) 3 } else buffer) =
        ⟨size, buffer.written⟩ := by
    split
    · exact ⟨_, by omega, rfl⟩
    · next hlarge => exact ⟨_, Nat.not_lt.mp hlarge, rfl⟩
  obtain ⟨size, hsize, heq⟩ := hroom
  rw [escapeStep, heq, escapeByte]
  split
  · exact hwrite size hsize [c] (by decide : 1 ≤ 3)
  · exact hwrite size hsize (escapeOf c) (Nat.le_refl 3)

theorem bctbxEscape_eq (buff : List UInt8) (noescapes : NoescapeRules) :
    bctbxEscape buff noescapes = .ok (escapedForm noescapes buff) := by
  have hloop (origSize : Nat) (s : List UInt8) (buffer : EscapeBuffer)
      (h : buffer.written.length ≤ buffer.outbufSize) :
      ∃ buffer', s.foldlM (escapeStep noescapes origSize) buffer = .ok buffer' ∧
        buffer'.written = buffer.written ++ escapedForm noescapes s := by
    induction s generalizing buffer with
    | nil => exact ⟨buffer, rfl, (append_nil _).symm⟩
    | cons c s ih =>
      obtain ⟨buffer', hstep, hwritten, h'⟩ := escapeStep_eq noescapes origSize h c
      obtain ⟨buffer'', hrun, hall⟩ := ih buffer' h'
      refine ⟨buffer'', ?_, ?_⟩
      · rw [foldlM_cons, hstep]
        exact hrun
      · rw [hall, hwritten, append_assoc]
        rfl
  obtain ⟨buffer, hrun, hwritten⟩ := hloop buff.length buff ⟨buff.length, []⟩ (Nat.zero_le _)
  rw [bctbxEscape, hrun]
  exact congrArg Except.ok hwritten

/-- Bytes that a table allows, and escapes. -/
inductive Escaped (noescapes : NoescapeRules) : List UInt8 → Prop where
  | nil : Escaped noescapes []
  | allowed {c : UInt8} {text : List UInt8} (hc : noescapes c = true)
      (htext : Escaped noescapes text) : Escaped noescapes (c :: text)
  | escape {high low : UInt8} {text : List UInt8} (hhigh : (hexValue high).isSome)
      (hlow : (hexValue low).isSome) (htext : Escaped noescapes text) :
      Escaped noescapes (percent :: high :: low :: text)

theorem hexValue_hexDigit {n : Nat} (h : n < 16) : hexValue (hexDigit n) = some n := by
  have hall : ∀ n : Fin 16, hexValue (hexDigit n) = some n.val := by decide
  exact hall ⟨n, h⟩

theorem escaped_escapedForm (noescapes : NoescapeRules) (s : List UInt8) :
    Escaped noescapes (escapedForm noescapes s) := by
  induction s with
  | nil => exact .nil
  | cons c s ih =>
    rw [escapedForm, flatMap_cons, escapeByte]
    split
    · next hc => exact .allowed hc ih
    · have hlt := c.toNat_lt
      exact .escape (by rw [hexValue_hexDigit (by omega)]; rfl)
        (by rw [hexValue_hexDigit (by omega)]; rfl) ih

/-! ### Reading it back -/

theorem hexDigit_plain {n : Nat} (h : n < 16) :
    (hexDigit n == 0x20 || (0x09 ≤ hexDigit n && hexDigit n ≤ 0x0D)) = false ∧
      hexDigit n ≠ 0x2B ∧ hexDigit n ≠ 0x2D ∧ hexDigit n ≠ percent := by
  have hall : ∀ n : Fin 16, (hexDigit n == 0x20 || (0x09 ≤ hexDigit n && hexDigit n ≤ 0x0D)) =
    false ∧ hexDigit n ≠ 0x2B ∧ hexDigit n ≠ 0x2D ∧ hexDigit n ≠ percent := by decide
  exact hall ⟨n, h⟩

theorem sscanf02x_hexDigits {high low : Nat} (hhigh : high < 16) (hlow : low < 16)
    (text : List UInt8) :
    sscanf02x (hexDigit high :: hexDigit low :: text) = some (UInt32.ofNat (high * 16 + low)) := by
  obtain ⟨hspace, hplus, hminus, -⟩ := hexDigit_plain hhigh
  rw [sscanf02x, dropWhile_cons_of_neg (by simp [hspace])]
  simp only [if_neg hplus, if_neg hminus, readHex, hexValue_hexDigit hhigh, hexValue_hexDigit hlow,
    Option.getD_none, Option.getD_some, Nat.zero_mul, Nat.zero_add, Option.map_some]

theorem bctbxGetChar_escapeOf (stale c : UInt8) (text : List UInt8) :
    bctbxGetChar stale (escapeOf c ++ text) = (c, 3) := by
  have hlt := c.toNat_lt
  have hvalue : c.toNat / 16 * 16 + c.toNat % 16 = c.toNat := by omega
  have hscan : sscanf02x ((escapeOf c ++ text).drop 1) = some (UInt32.ofNat c.toNat) := by
    rw [← hvalue]
    exact sscanf02x_hexDigits (by omega) (by omega) text
  rw [bctbxGetChar, hscan]
  simp [isEscapedChar, escapeOf]

section Reread

variable (stale : List UInt8 → UInt8) {noescapes : NoescapeRules}

theorem unescapeLoop_plain {c : UInt8} (hc : c ≠ percent) (text : List UInt8) :
    unescapeLoop stale (c :: text) = c :: unescapeLoop stale text := by
  rw [unescapeLoop, bctbxGetChar_plain _ hc]
  rfl

theorem unescapeLoop_escapeOf (c : UInt8) (text : List UInt8) :
    unescapeLoop stale (escapeOf c ++ text) = c :: unescapeLoop stale text := by
  have hget := bctbxGetChar_escapeOf (stale (escapeOf c ++ text)) c text
  rw [escapeOf, cons_append] at hget ⊢
  rw [unescapeLoop, hget]
  rfl

theorem unescapeLoop_percent (x y : UInt8) (text : List UInt8) :
    ∃ out, unescapeLoop stale (percent :: x :: y :: text) = out :: unescapeLoop stale text := by
  refine ⟨(bctbxGetChar (stale (percent :: x :: y :: text)) (percent :: x :: y :: text)).1, ?_⟩
  have hthree : (bctbxGetChar (stale (percent :: x :: y :: text))
      (percent :: x :: y :: text)).2 = 3 := rfl
  rw [unescapeLoop, hthree]
  rfl

theorem unescapeLoop_end {text : List UInt8} (h : text.length < 2) :
    unescapeLoop stale (percent :: text) = percent :: unescapeLoop stale text := by
  have hget : bctbxGetChar (stale (percent :: text)) (percent :: text) = (percent, 1) := by
    match text, h with
    | [], _ => rfl
    | [x], _ => rfl
  rw [unescapeLoop, hget]
  rfl

/-- The escaped form of a string, read back into the buffer. -/
def reread (stale : List UInt8 → UInt8) (noescapes : NoescapeRules) (s : List UInt8) : List UInt8 :=
  unescapeLoop stale (escapedForm noescapes s)

@[simp] theorem reread_nil : reread stale noescapes [] = [] := by
  rw [reread, escapedForm, flatMap_nil, unescapeLoop]

theorem reread_cons {c : UInt8} (hc : noescapes c = true → c ≠ percent) (s : List UInt8) :
    reread stale noescapes (c :: s) = c :: reread stale noescapes s := by
  rw [reread, escapedForm, flatMap_cons, escapeByte]
  split
  · next hallowed => exact unescapeLoop_plain stale (hc hallowed) _
  · exact unescapeLoop_escapeOf stale c _

theorem unescapeLoop_hexDigit {n : Nat} (hn : n < 16) (text : List UInt8) :
    unescapeLoop stale (hexDigit n :: text) = hexDigit n :: unescapeLoop stale text :=
  unescapeLoop_plain stale (hexDigit_plain hn).2.2.2 text

theorem reread_percent (hpercent : noescapes percent = true) (s : List UInt8) :
    (s = [] ∨ ∃ x, s = [x] ∧ noescapes x = true) ∧
        reread stale noescapes (percent :: s) = percent :: reread stale noescapes s ∨
      (∃ out x t, s = x :: t ∧ noescapes x = false ∧ reread stale noescapes (percent :: s) =
        out :: hexDigit (x.toNat % 16) :: reread stale noescapes t) ∨
      (∃ out x y t, s = x :: y :: t ∧ noescapes y = false ∧ reread stale noescapes (percent :: s) =
        out :: hexDigit (y.toNat / 16) :: hexDigit (y.toNat % 16) :: reread stale noescapes t) ∨
      ∃ out x y t, s = x :: y :: t ∧
        reread stale noescapes (percent :: s) = out :: reread stale noescapes t := by
  have hform (t : List UInt8) : reread stale noescapes (percent :: t) =
      unescapeLoop stale (percent :: escapedForm noescapes t) := by
    rw [reread, escapedForm, flatMap_cons, escapeByte, if_pos hpercent]
    rfl
  have hcons (c : UInt8) (t : List UInt8) : escapedForm noescapes (c :: t) =
      escapeByte noescapes c ++ escapedForm noescapes t := rfl
  rw [hform]
  match s with
  | [] => exact .inl ⟨.inl rfl, unescapeLoop_end stale Nat.two_pos⟩
  | x :: t =>
    by_cases hx : noescapes x = true
    · match t with
      | [] =>
        refine .inl ⟨.inr ⟨x, rfl, hx⟩, ?_⟩
        rw [reread, hcons, escapeByte, if_pos hx]
        exact unescapeLoop_end stale Nat.one_lt_two
      | y :: t =>
        rw [hcons, hcons, escapeByte, if_pos hx, escapeByte]
        split
        · obtain ⟨out, hout⟩ := unescapeLoop_percent stale x y (escapedForm noescapes t)
          exact .inr (.inr (.inr ⟨out, x, y, t, rfl, hout⟩))
        · next hy =>
          have hlt := y.toNat_lt
          obtain ⟨out, hout⟩ := unescapeLoop_percent stale x percent
            (hexDigit (y.toNat / 16) :: hexDigit (y.toNat % 16) :: escapedForm noescapes t)
          refine .inr (.inr (.inl ⟨out, x, y, t, rfl, Bool.eq_false_iff.mpr hy, hout.trans ?_⟩))
          rw [unescapeLoop_hexDigit stale (by omega), unescapeLoop_hexDigit stale (by omega)]
          rfl
    · have hlt := x.toNat_lt
      obtain ⟨out, hout⟩ := unescapeLoop_percent stale percent (hexDigit (x.toNat / 16))
        (hexDigit (x.toNat % 16) :: escapedForm noescapes t)
      refine .inr (.inl ⟨out, x, t, rfl, Bool.eq_false_iff.mpr hx, ?_⟩)
      rw [hcons, escapeByte, if_neg hx]
      refine hout.trans ?_
      rw [unescapeLoop_hexDigit stale (by omega)]
      rfl

theorem length_reread_le (s : List UInt8) : (reread stale noescapes s).length ≤ s.length := by
  induction hn : s.length using Nat.strongRecOn generalizing s with
  | ind n ih =>
    subst hn
    match s with
    | [] => rw [reread_nil stale]
    | c :: s =>
      by_cases hc : noescapes c = true → c ≠ percent
      · rw [reread_cons stale hc]
        exact Nat.succ_le_succ (ih s.length (Nat.lt_succ_self _) s rfl)
      · have hp : noescapes c = true ∧ c = percent := by simpa using hc
        obtain ⟨hallowed, rfl⟩ := hp
        rcases reread_percent stale hallowed s with ⟨-, heq⟩ | ⟨out, x, t, rfl, -, heq⟩ |
          ⟨out, x, y, t, rfl, -, heq⟩ | ⟨out, x, y, t, rfl, heq⟩
        · rw [heq]
          exact Nat.succ_le_succ (ih s.length (Nat.lt_succ_self _) s rfl)
        all_goals
          have hle := ih t.length (by simp only [length_cons]; omega) t rfl
          rw [heq]
          simp only [length_cons]
          omega

/-- Every percent sign that a table leaves as it is stands at the end: at most one character is
behind it, which is not escaped. -/
def PercentsAtEnd (noescapes : NoescapeRules) (s : List UInt8) : Prop :=
  noescapes percent = true → ∀ before after, s = before ++ percent :: after →
    after = [] ∨ ∃ x, after = [x] ∧ noescapes x = true

theorem percentsAtEnd_cons {c : UInt8} {s : List UInt8} : PercentsAtEnd noescapes (c :: s) ↔
    (noescapes c = true → c = percent → s = [] ∨ ∃ x, s = [x] ∧ noescapes x = true) ∧
      PercentsAtEnd noescapes s := by
  constructor
  · intro h
    refine ⟨fun hallowed hc => h (hc ▸ hallowed) [] s (by rw [hc]; rfl),
      fun hpercent before after heq => ?_⟩
    exact h hpercent (c :: before) after (by rw [heq]; rfl)
  · rintro ⟨hfirst, hrest⟩ hpercent before after heq
    cases before with
    | nil =>
      obtain ⟨rfl, rfl⟩ := cons.inj heq
      exact hfirst hpercent rfl
    | cons b before => exact hrest hpercent before after (cons.inj heq).2

theorem reread_eq_iff (hdigits : ∀ n < 16, noescapes (hexDigit n) = true) (s : List UInt8) :
    reread stale noescapes s = s ↔ PercentsAtEnd noescapes s := by
  induction s with
  | nil => exact iff_of_true (reread_nil stale) fun _ before _ heq => by simp at heq
  | cons c s ih =>
    rw [percentsAtEnd_cons, ← ih]
    by_cases hc : noescapes c = true → c ≠ percent
    · rw [reread_cons stale hc, cons.injEq, eq_self, true_and]
      exact ⟨fun h => ⟨fun hallowed hp => absurd hp (hc hallowed), h⟩, fun h => h.2⟩
    have hp : noescapes c = true ∧ c = percent := by simpa using hc
    obtain ⟨hallowed, rfl⟩ := hp
    rcases reread_percent stale hallowed s with ⟨hend, heq⟩ | hcut
    · rw [heq, cons.injEq, eq_self, true_and]
      exact ⟨fun h => ⟨fun _ _ => hend, h⟩, fun h => h.2⟩
    refine iff_of_false (fun hsame => ?_) fun ⟨hend, _⟩ => ?_
    · rcases hcut with ⟨out, x, t, rfl, hx, heq⟩ | ⟨out, x, y, t, rfl, hy, heq⟩ |
        ⟨out, x, y, t, rfl, heq⟩
      · -- a digit comes in the place of a byte that is escaped
        have hx' := (cons.inj (cons.inj (heq ▸ hsame)).2).1
        rw [← hx', hdigits _ (by omega)] at hx
        cases hx
      · have hy' := (cons.inj (cons.inj (cons.inj (heq ▸ hsame)).2).2).1
        rw [← hy', hdigits _ (by omega)] at hy
        cases hy
      · have hle : (reread stale noescapes t).length ≤ t.length := length_reread_le stale t
        have hlength := congrArg List.length (heq.symm.trans hsame)
        simp only [length_cons] at hlength
        omega
    · have hnot := hend hallowed rfl
      rcases hcut with ⟨out, x, t, rfl, hx, -⟩ | ⟨out, x, y, t, rfl, -, -⟩ | ⟨out, x, y, t, rfl, -⟩
      · rcases hnot with hnil | ⟨x', heq, hx'⟩
        · cases hnil
        · rw [(cons.inj heq).1, hx'] at hx
          cases hx
      · simp at hnot
      · simp at hnot

end Reread

/-! ### The components of a SIP URI -/

/-- The components of a SIP URI that are escaped. -/
inductive UriComponent where
  | username
  | userpasswd
  | parameter
  | header
  deriving DecidableEq, Repr

/-- The rule table of a component. -/
def UriComponent.noescapes : UriComponent → NoescapeRules
  | .username => getSipUriUsernameNoescapes
  | .userpasswd => getSipUriUserpasswdNoescapes
  | .parameter => getSipUriParameterNoescapes
  | .header => getSipUriHeaderNoescapes

/-- The escape function of a component. -/
def UriComponent.toEscaped : UriComponent → List UInt8 → Except Fault (List UInt8)
  | .username => belleSipUriToEscapedUsername
  | .userpasswd => belleSipUriToEscapedUserpasswd
  | .parameter => belleSipUriToEscapedParameter
  | .header => belleSipUriToEscapedHeader

variable (component : UriComponent)

theorem UriComponent.toEscaped_eq (s : List UInt8) :
    component.toEscaped s = .ok (escapedForm component.noescapes s) := by
  cases component <;> exact bctbxEscape_eq s _

theorem UriComponent.noescapes_hexDigit : ∀ n < 16, component.noescapes (hexDigit n) = true := by
  have hall : ∀ n : Fin 16, component.noescapes (hexDigit n) = true := by
    cases component <;> decide +kernel
  exact fun n hn => hall ⟨n, hn⟩

theorem cString_eq_iff {s buffer : List UInt8} (hnul : 0 ∉ s) (hlength : buffer.length ≤ s.length) :
    cString buffer = s ↔ buffer = s := by
  constructor
  · rintro rfl
    have hstart : (cString buffer).Sublist buffer := takeWhile_sublist _
    exact (hstart.eq_of_length_le hlength).symm
  · rintro rfl
    exact takeWhile_eq_self_iff.mpr fun c hc => decide_eq_true (fun h => hnul (h ▸ hc))

/-- The escaped form of a component is of allowed characters and escapes, and it gives back the
string, exactly if every percent sign that the table leaves as it is stands at the end. -/
theorem escaped_roundTrips_iff (stale : List UInt8 → UInt8) {s : List UInt8} (hnul : 0 ∉ s) :
    (∃ escaped, component.toEscaped s = .ok escaped ∧ Escaped component.noescapes escaped ∧
      bctbxUnescapedString stale escaped = s) ↔ PercentsAtEnd component.noescapes s := by
  rw [← reread_eq_iff stale component.noescapes_hexDigit,
    ← cString_eq_iff hnul (length_reread_le stale s)]
  constructor
  · rintro ⟨escaped, heq, -, hback⟩
    rw [component.toEscaped_eq] at heq
    cases heq
    exact hback
  · exact fun hback => ⟨_, component.toEscaped_eq s, escaped_escapedForm _ s, hback⟩

/-- A user name with a percent sign comes back: its table escapes the sign. -/
theorem escaped_roundTrips_username :
    ∃ escaped, UriComponent.username.toEscaped (bytesOf "50%25") = .ok escaped ∧
      Escaped UriComponent.username.noescapes escaped ∧
      bctbxUnescapedString (fun _ => 0) escaped = bytesOf "50%25" :=
  (escaped_roundTrips_iff .username (fun _ => 0) (by decide)).mpr fun hpercent => by
    have hescaped : UriComponent.username.noescapes percent = false := by decide +kernel
    rw [hescaped] at hpercent
    cases hpercent

/-- The parameter `%41` comes back as `A`. -/
theorem parameter_unescaped_twice :
    ¬ ∀ (component : UriComponent) (stale : List UInt8 → UInt8) (s : List UInt8), 0 ∉ s →
      ∃ escaped, component.toEscaped s = .ok escaped ∧ Escaped component.noescapes escaped ∧
        bctbxUnescapedString stale escaped = s := by
  intro h
  obtain ⟨escaped, heq, -, hback⟩ := h .parameter (fun _ => 0) (escapeOf 0x41) (by decide)
  have hform : escapedForm UriComponent.parameter.noescapes (escapeOf 0x41) = escapeOf 0x41 := by
    decide +kernel
  rw [UriComponent.toEscaped_eq, hform] at heq
  cases heq
  have hread : unescapeLoop (fun _ => 0) (escapeOf 0x41) = [0x41] := by
    have hone := unescapeLoop_escapeOf (fun _ => 0) 0x41 []
    rwa [unescapeLoop, append_nil] at hone
  rw [bctbxUnescapedString, hread] at hback
  cases hback

end GrooveIp.Sip
