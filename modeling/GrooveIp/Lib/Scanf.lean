import GrooveIp.Lib.Memory
import Mathlib.Data.List.TakeDrop
import Mathlib.Data.List.Basic

/-!
# Checked `sscanf`

The formatted reader of the C library, as far as line-oriented protocol parsers use it:
white space, literal characters, bounded and unbounded words, decimal and `%i` numbers and
`%n`. A word is copied into an array whose size the format does not know, so the conversion
carries it here and a word that does not fit is a `Fault`. `Fits` says when no conversion
faults, in terms of the text alone.
-/

namespace GrooveIp.Lib

open List

/-! ### Strings -/

/-- `isspace` in the C locale. -/
def isSpace (c : Char) : Bool :=
  c == ' ' || c == '\t' || c == '\n' || c == '\x0b' || c == '\x0c' || c == '\r'

/-- Read the character at `i` of a C string; the terminator is the last one there is. -/
def readChar (s : List Char) (i : Nat) : Except Fault Char :=
  if h : i < s.length then .ok s[i]
  else if i = s.length then .ok '\x00'
  else .error .outOfBounds

/-- The rest of a C string from `i` on; a pointer past the terminator is out of bounds. -/
def readFrom (s : List Char) (i : Nat) : Except Fault (List Char) :=
  if i ≤ s.length then .ok (s.drop i) else .error .outOfBounds

/-- `strncpy` into an array whose bytes from `n` on are zero: the string the array then
holds, which fills all `n` bytes when the source is that long. -/
def strncpy (n : Nat) (src : List Char) : List Char := src.take n

/-- A copy is never longer than its bound. -/
theorem length_strncpy_le (n : Nat) (src : List Char) : (strncpy n src).length ≤ n :=
  length_take_le n src

variable {s : List Char}

/-- Reading up to the terminator stays in the string, reading on does not. -/
theorem readChar_eq_error_iff {i : Nat} : readChar s i = .error .outOfBounds ↔ s.length < i := by
  unfold readChar
  split
  · next h => simp; omega
  · next h =>
    split
    · next he => simp [he]
    · next he => simp; omega

/-! ### Formats -/

/-- The numeric conversions `%d`, `%u` and `%i`. -/
inductive NumberKind where
  | signed | unsigned | anyBase
  deriving DecidableEq, Repr

/-- One item of a format. A word is `%s` or `%Ns`, copied into an array of `cap` bytes. -/
inductive Directive where
  | space
  | literal (c : Char)
  | word (width : Option Nat) (cap : Nat)
  | number (kind : NumberKind)
  | count
  deriving DecidableEq, Repr

open Directive

/-- A run of literal characters. -/
def literals (s : String) : List Directive := s.toList.map .literal

/-- What a conversion stores. -/
inductive Scanned where
  | text (s : List Char)
  | number (z : Int)
  | offset (n : Nat)
  deriving DecidableEq, Repr

/-- The word that `%s` converts at the front of a text. -/
def nextWord (width : Option Nat) (s : List Char) : List Char :=
  let w := (s.dropWhile isSpace).takeWhile fun c => !isSpace c
  match width with
  | none => w
  | some n => w.take n

/-- The optional sign of a number. -/
def readSign : List Char → Bool × List Char
  | '-' :: s => (true, s)
  | '+' :: s => (false, s)
  | s => (false, s)

/-- The value of a digit in any base up to sixteen. -/
def digitValue (c : Char) : Option Nat :=
  if c.isDigit then some (c.toNat - '0'.toNat)
  else if 'a' ≤ c ∧ c ≤ 'f' then some (c.toNat - 'a'.toNat + 10)
  else if 'A' ≤ c ∧ c ≤ 'F' then some (c.toNat - 'A'.toNat + 10)
  else none

/-- Is `c` a digit of the base? -/
def isDigitOf (base : Nat) (c : Char) : Bool := (digitValue c).any (· < base)

/-- The digits of the base at the front of a text, with their value and what follows. -/
def readDigits (base : Nat) (s : List Char) : Option (Nat × List Char) :=
  let ds := s.takeWhile (isDigitOf base)
  if ds = [] then none
  else some (ds.foldl (fun acc c => base * acc + (digitValue c).getD 0) 0,
    s.dropWhile (isDigitOf base))

/-- The digits that `%i` reads: a leading `0x` or `0` chooses the base. -/
def readAnyBase (s : List Char) : Option (Nat × List Char) :=
  match s with
  | '0' :: x :: s' =>
    if x = 'x' ∨ x = 'X' then (readDigits 16 s').or (some (0, x :: s')) else readDigits 8 s
  | _ => readDigits 10 s

/-- The magnitude a numeric conversion reads after the sign. -/
def readMagnitude : NumberKind → List Char → Option (Nat × List Char)
  | .signed, s | .unsigned, s => readDigits 10 s
  | .anyBase, s => readAnyBase s

variable {d : Directive} {rest : List Char} (kind : NumberKind)

/-- The stored value: `strtol` saturates at 64 bits, `strtoul` also wraps a negative number,
and the result is cut to 32 bits. -/
def numberValue (neg : Bool) (n : Nat) : Int :=
  match kind with
  | .signed | .anyBase =>
    toInt32 (max (-2 ^ 63) (min (2 ^ 63 - 1) (if neg then -(n : Int) else n)))
  | .unsigned =>
    if 2 ^ 64 ≤ n then 2 ^ 32 - 1 else (if neg then -(n : Int) else n) % 2 ^ 32

/-- A numeric conversion: the value and the text behind it. -/
def readNumber (s : List Char) : Option (Int × List Char) :=
  let (neg, s) := readSign (s.dropWhile isSpace)
  (readMagnitude kind s).map fun (n, rest) => (numberValue kind neg n, rest)

/-- Match one item at the front of a text of which `total` characters were there at first:
what it stores and the text behind it, or `none` where the match fails. -/
def Directive.step (total : Nat) (d : Directive) (s : List Char) :
    Option (Option Scanned × List Char) :=
  match d with
  | .space => some (none, s.dropWhile isSpace)
  | .literal c =>
    match s with
    | [] => none
    | c' :: rest => if c' = c then some (none, rest) else none
  | .word width _ =>
    let w := nextWord width s
    if w = [] then none else some (some (.text w), (s.dropWhile isSpace).drop w.length)
  | .number kind => (readNumber kind s).map fun (z, rest) => (some (.number z), rest)
  | .count => some (some (.offset (total - s.length)), s)

/-- The array of the item holds what is converted at the front of the text, with the
terminator. -/
def Directive.holds (d : Directive) (s : List Char) : Prop :=
  match d with
  | .word width cap => (nextWord width s).length < cap
  | .space | .literal _ | .number _ | .count => True

instance (d : Directive) (s : List Char) : Decidable (d.holds s) := by
  unfold holds
  cases d <;> infer_instance

/-- The conversions up to the first item that does not match. -/
def sscanfFrom (total : Nat) : List Directive → List Char → Except Fault (List Scanned)
  | [], _ => .ok []
  | d :: fmt, s =>
    match d.step total s with
    | none => .ok []
    | some (v, rest) =>
      if d.holds s then do
        let vs ← sscanfFrom total fmt rest
        return v.toList ++ vs
      else .error .outOfBounds

/-- `sscanf`. -/
def sscanf (fmt : List Directive) (s : List Char) : Except Fault (List Scanned) :=
  sscanfFrom s.length fmt s

/-- `atoi`: zero where there is no number. -/
def atoi (s : List Char) : Int := ((readNumber .signed s).map Prod.fst).getD 0

/-- `%u` of `printf`. -/
def printNat (n : Nat) : List Char := Nat.toDigits 10 n

/-- `%d` of `printf`. -/
def printInt (z : Int) : List Char :=
  if z < 0 then '-' :: printNat z.natAbs else printNat z.natAbs

/-! ### What a format reads from a text -/

/-- The values that a format converts, whatever the arrays hold. -/
def conversionsFrom (total : Nat) : List Directive → List Char → List Scanned
  | [], _ => []
  | d :: fmt, s =>
    match d.step total s with
    | none => []
    | some (v, rest) => v.toList ++ conversionsFrom total fmt rest

/-- The values that a format converts from a whole text. -/
def conversions (fmt : List Directive) (s : List Char) : List Scanned :=
  conversionsFrom s.length fmt s

/-- The text behind a format all of whose items match. -/
def leftAfter : List Directive → List Char → Option (List Char)
  | [], s => some s
  | d :: fmt, s => (d.step 0 s).bind fun (_, rest) => leftAfter fmt rest

/-- Wherever the items before a word match, the next word fits in its array. -/
def Fits (fmt : List Directive) (s : List Char) : Prop :=
  ∀ before d after rest, fmt = before ++ d :: after → leftAfter before s = some rest → d.holds rest

theorem Directive.step_rest (total : Nat) (d : Directive) (s : List Char) :
    (d.step total s).map Prod.snd = (d.step 0 s).map Prod.snd := by
  cases d with
  | space | literal | word | number => rfl
  | count => simp [step]

variable {fmt : List Directive}

theorem fits_cons :
    Fits (d :: fmt) s ↔ d.holds s ∧ ∀ v rest, d.step 0 s = some (v, rest) → Fits fmt rest := by
  constructor
  · intro h
    constructor
    · exact h [] d fmt s rfl rfl
    · intro v rest hstep before d' after rest' hfmt hleft
      apply h (d :: before) d' after rest'
      · rw [hfmt, cons_append]
      · rw [leftAfter, hstep, Option.bind_some]
        exact hleft
  · rintro ⟨hd, hrest⟩ before d' after rest hfmt hleft
    cases before with
    | nil =>
      obtain ⟨rfl, rfl⟩ : d = d' ∧ fmt = after := by simpa using hfmt
      cases hleft
      exact hd
    | cons b before =>
      obtain ⟨rfl, rfl⟩ : d = b ∧ fmt = before ++ d' :: after := by simpa using hfmt
      rw [leftAfter, Option.bind_eq_some_iff] at hleft
      obtain ⟨⟨v, rest'⟩, hstep, hleft⟩ := hleft
      exact hrest v rest' hstep before d' after rest rfl hleft

/-- The size of the array of an item, if it has one. -/
def Directive.cap? : Directive → Option Nat
  | .word _ cap => some cap
  | .space | .literal _ | .number _ | .count => none

/-- The arrays of a format, in order. -/
def caps (fmt : List Directive) : List Nat := fmt.filterMap cap?

variable {total : Nat}

theorem Directive.holds_of_step_eq_none (h : d.step total s = none)
    (hcap : ∀ cap, d.cap? = some cap → 0 < cap) : d.holds s := by
  cases d with
  | word width cap =>
    have hw : nextWord width s = [] := by
      by_contra hne
      simp [step, hne] at h
    simpa [holds, hw] using hcap cap rfl
  | space | literal | number | count => trivial

/-- Every word of the format has an array to go to. -/
def HasRoom (fmt : List Directive) : Prop := ∀ cap ∈ caps fmt, 0 < cap

instance (fmt : List Directive) : Decidable (HasRoom fmt) :=
  inferInstanceAs (Decidable (∀ cap ∈ caps fmt, 0 < cap))

theorem sscanfFrom_eq (total : Nat) (hroom : HasRoom fmt) (s : List Char) :
    (Fits fmt s → sscanfFrom total fmt s = .ok (conversionsFrom total fmt s)) ∧
      (¬ Fits fmt s → sscanfFrom total fmt s = .error .outOfBounds) := by
  induction fmt generalizing s with
  | nil =>
    have hfits : Fits [] s := by
      intro before d after rest hfmt
      simp at hfmt
    exact ⟨fun _ => rfl, fun h => absurd hfits h⟩
  | cons d fmt ih =>
    have hroom' : HasRoom fmt := by
      intro cap hm
      obtain ⟨d', hd', hc⟩ := mem_filterMap.mp hm
      exact hroom cap (mem_filterMap.mpr ⟨d', mem_cons_of_mem _ hd', hc⟩)
    have hrest := step_rest total d s
    rw [fits_cons, sscanfFrom, conversionsFrom]
    cases hstep : d.step total s with
    | none =>
      have hzero : d.step 0 s = none := by simpa [hstep] using hrest.symm
      have hd : d.holds s := by
        apply holds_of_step_eq_none hstep
        intro cap he
        exact hroom cap (mem_filterMap.mpr ⟨d, mem_cons_self, he⟩)
      simp [hzero, hd]
    | some vr =>
      obtain ⟨v, rest⟩ := vr
      obtain ⟨v', hzero⟩ : ∃ v', d.step 0 s = some (v', rest) := by
        rw [hstep, Option.map_some] at hrest
        obtain ⟨⟨v', r⟩, hz, hr⟩ := Option.map_eq_some_iff.mp hrest.symm
        exact ⟨v', by rw [hz]; simpa using hr⟩
      have hiff : (∀ v'' rest', d.step 0 s = some (v'', rest') → Fits fmt rest') ↔
          Fits fmt rest := by
        simp only [hzero, Option.some.injEq, Prod.mk.injEq]
        constructor
        · intro h
          exact h v' rest ⟨rfl, rfl⟩
        · rintro h _ _ ⟨_, rfl⟩
          exact h
      rw [hiff]
      by_cases hd : d.holds s
      · obtain ⟨hok, herr⟩ := ih hroom' rest
        simp only [hd, true_and, if_true]
        constructor
        · intro hfits
          rw [hok hfits]
          rfl
        · intro hfits
          rw [herr hfits]
          rfl
      · simp [hd]

/-- A text that fits is converted. -/
theorem sscanf_of_fits (hroom : HasRoom fmt) (h : Fits fmt s) :
    sscanf fmt s = .ok (conversions fmt s) :=
  (sscanfFrom_eq s.length hroom s).1 h

/-- A text that does not fit overruns an array. -/
theorem sscanf_of_not_fits (hroom : HasRoom fmt) (h : ¬ Fits fmt s) :
    sscanf fmt s = .error .outOfBounds :=
  (sscanfFrom_eq s.length hroom s).2 h

/-- Words of bounded width in arrays with room for them always fit. -/
theorem fits_of_bounded (h : ∀ width cap, .word width cap ∈ fmt → ∃ n, width = some n ∧ n < cap)
    (s : List Char) : Fits fmt s := by
  intro before d after rest hfmt _
  cases d with
  | word width cap =>
    obtain ⟨n, rfl, hn⟩ := h width cap (by simp [hfmt])
    have hle : (nextWord (some n) rest).length ≤ n := length_take_le _ _
    exact Nat.lt_of_le_of_lt hle hn
  | space | literal | number | count => trivial

/-! ### How far a format reads -/

theorem length_lt_of_readDigits {base : Nat} {n : Nat}
    (h : readDigits base s = some (n, rest)) : rest.length < s.length := by
  simp only [readDigits] at h
  split at h
  · cases h
  · next hne =>
    cases h
    have hsplit := congrArg List.length (takeWhile_append_dropWhile (p := isDigitOf base) (l := s))
    have hpos := length_pos_iff.mpr hne
    rw [length_append] at hsplit
    omega

theorem length_lt_of_readNumber {kind : NumberKind} {z : Int}
    (h : readNumber kind s = some (z, rest)) : rest.length < s.length := by
  have hsign : ∀ t, (readSign t).2.length ≤ t.length := by
    intro t
    unfold readSign
    split <;> simp
  have hany : ∀ t n r, readAnyBase t = some (n, r) → r.length < t.length := by
    intro t n r ht
    unfold readAnyBase at ht
    split at ht
    · next x t' =>
      split at ht
      · rcases Option.or_eq_some_iff.mp ht with hr | ⟨-, hr⟩
        · have := length_lt_of_readDigits hr
          simp only [length_cons]
          omega
        · cases hr
          simp
      · exact length_lt_of_readDigits ht
    · exact length_lt_of_readDigits ht
  obtain ⟨⟨n, r⟩, hread, hz⟩ := Option.map_eq_some_iff.mp h
  cases hz
  have hlt : rest.length < (readSign (s.dropWhile isSpace)).2.length := by
    cases kind with
    | signed => exact length_lt_of_readDigits hread
    | unsigned => exact length_lt_of_readDigits hread
    | anyBase => exact hany _ _ _ hread
  have h1 := hsign (s.dropWhile isSpace)
  have h2 := (dropWhile_suffix isSpace (l := s)).length_le
  omega

theorem Directive.step_cases {v : Option Scanned}
    (h : d.step total s = some (v, rest)) : rest.length ≤ s.length ∧ match d with
      | .space | .literal _ => v = none
      | .word width _ => v = some (.text (nextWord width s))
      | .number _ => ∃ z, v = some (.number z)
      | .count => v = some (.offset (total - s.length)) := by
  cases d with
  | space =>
    cases h
    exact ⟨(dropWhile_suffix isSpace).length_le, rfl⟩
  | count =>
    cases h
    exact ⟨Nat.le_refl _, rfl⟩
  | literal c =>
    cases s with
    | nil => cases h
    | cons c' s =>
      simp only [step] at h
      split at h
      · cases h
        simp
      · cases h
  | number kind =>
    obtain ⟨⟨z, r⟩, hread, hz⟩ := Option.map_eq_some_iff.mp h
    cases hz
    exact ⟨Nat.le_of_lt (length_lt_of_readNumber hread), z, rfl⟩
  | word width cap =>
    simp only [step] at h
    split at h
    · cases h
    · cases h
      have hle := (dropWhile_suffix isSpace (l := s)).length_le
      constructor
      · rw [length_drop]
        omega
      · rfl

theorem exists_rest_of_offset_mem {n : Nat} (h : .offset n ∈ conversionsFrom total fmt s) :
    ∃ rest : List Char, rest.length ≤ s.length ∧ n = total - rest.length := by
  induction fmt generalizing s with
  | nil => cases h
  | cons d fmt ih =>
    rw [conversionsFrom] at h
    cases hstep : d.step total s with
    | none =>
      rw [hstep] at h
      cases h
    | some vr =>
      obtain ⟨v, rest⟩ := vr
      rw [hstep] at h
      obtain ⟨hle, hcases⟩ := step_cases hstep
      rcases mem_append.mp h with hv | hv
      · refine ⟨s, Nat.le_refl _, ?_⟩
        cases d with
        | space | literal =>
          rw [hcases] at hv
          cases hv
        | word =>
          rw [hcases] at hv
          simp at hv
        | number =>
          obtain ⟨z, rfl⟩ := hcases
          simp at hv
        | count =>
          rw [hcases] at hv
          simpa using hv
      · obtain ⟨r, hr, hn⟩ := ih hv
        exact ⟨r, Nat.le_trans hr hle, hn⟩

/-- A count taken behind a number is positive and stays in the text. -/
theorem offset_bounds {n : Nat}
    (h : .offset n ∈ conversions (.number kind :: fmt) s) : 0 < n ∧ n ≤ s.length := by
  unfold conversions at h
  rw [conversionsFrom] at h
  cases hstep : step s.length (.number kind) s with
  | none =>
    rw [hstep] at h
    cases h
  | some vr =>
    obtain ⟨v, rest⟩ := vr
    rw [hstep] at h
    obtain ⟨⟨z, r⟩, hread, hz⟩ := Option.map_eq_some_iff.mp hstep
    cases hz
    have hlt := length_lt_of_readNumber hread
    have hmem : .offset n ∈ conversionsFrom s.length fmt rest := by simpa using h
    obtain ⟨r', hr', rfl⟩ := exists_rest_of_offset_mem hmem
    omega

/-! ### The words a format converts -/

/-- The word among the converted values, if it is one. -/
def Scanned.text? : Scanned → Option (List Char)
  | .text w => some w
  | .number _ | .offset _ => none

/-- The words among the converted values. -/
def texts (vs : List Scanned) : List (List Char) := vs.filterMap Scanned.text?

theorem length_lt_of_mem_zip {vs : List Scanned} (h : sscanfFrom total fmt s = .ok vs) :
    ∀ wc ∈ (texts vs).zip (caps fmt), wc.1.length < wc.2 := by
  induction fmt generalizing s vs with
  | nil => simp [caps]
  | cons d fmt ih =>
    rw [sscanfFrom] at h
    cases hstep : d.step total s with
    | none =>
      simp only [hstep, Except.ok.injEq] at h
      simp [← h, texts]
    | some vr =>
      obtain ⟨v, rest⟩ := vr
      simp only [hstep] at h
      obtain ⟨-, hcases⟩ := step_cases hstep
      by_cases hd : d.holds s
      · rw [if_pos hd] at h
        cases hrec : sscanfFrom total fmt rest with
        | error e => simp [hrec, bind, Except.bind] at h
        | ok vs' =>
          have hvs : v.toList ++ vs' = vs := by
            simpa [hrec, bind, Except.bind, pure, Except.pure] using h
          have htexts : texts vs = texts v.toList ++ texts vs' := by
            rw [← hvs, texts, filterMap_append]
            rfl
          intro wc hwc
          rw [htexts] at hwc
          cases d with
          | word width cap =>
            rw [hcases] at hwc
            rcases mem_cons.mp hwc with rfl | hwc
            · exact hd
            · exact ih hrec wc hwc
          | space | literal | count =>
            rw [hcases] at hwc
            exact ih hrec wc hwc
          | number =>
            obtain ⟨z, rfl⟩ := hcases
            exact ih hrec wc hwc
      · rw [if_neg hd] at h
        cases h

/-- The `i`-th word that was stored is shorter than the `i`-th array. -/
theorem length_lt_of_sscanf {fmt : List Directive} {s : List Char} {vs : List Scanned}
    (h : sscanf fmt s = .ok vs) (i : Nat) {w : List Char} {cap : Nat}
    (hw : (texts vs)[i]? = some w) (hc : (caps fmt)[i]? = some cap) : w.length < cap := by
  have hzip : ((texts vs).zip (caps fmt))[i]? = some (w, cap) :=
    List.getElem?_zip_eq_some.mpr ⟨hw, hc⟩
  exact length_lt_of_mem_zip h _ (mem_of_getElem? hzip)

end GrooveIp.Lib
