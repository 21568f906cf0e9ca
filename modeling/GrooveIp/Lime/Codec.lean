import Mathlib.Tactic.IntervalCases

/-!
# Hexadecimal and base64 strings of LIME messages

The conversions a message goes through: hexadecimal digits as `bctbx_str_to_uint8` and its
siblings (`port.c:1627–1706`) read and write them, base64 as mbedtls reads and writes it, and the
big-endian blobs of the cache. What one writes the other reads back.
-/

namespace GrooveIp.Lime

open List
open UInt8 (ofFin ofNat)

/-- A byte string. -/
abbrev Bytes := List UInt8

/-! ## Hexadecimal digits -/

/-- `bctbx_char_to_byte`. The first range starts at `0x2A`, so `*+,-./` wrap below zero. -/
def charToByte (input : UInt8) : UInt8 :=
  if 0x29 < input ∧ input < 0x3A then input - 0x30
  else if 0x60 < input ∧ input < 0x67 then input - 0x57
  else if 0x40 < input ∧ input < 0x47 then input - 0x37
  else 0

/-- `bctbx_byte_to_char`. -/
def byteToChar (input : UInt8) : UInt8 :=
  if input &&& 0x0F < 0x0A then (input &&& 0x0F) + 0x30 else (input &&& 0x0F) + 0x57

variable (bytes : Bytes)

/-- `bctbx_int8_to_str`. -/
def int8ToStr : Bytes :=
  bytes.flatMap fun (b : UInt8) => [byteToChar ((b >>> 4) &&& 0x0F), byteToChar (b &&& 0x0F)]

/-- The bytes `bctbx_str_to_uint8` writes for a string of the given length: one for each whole
pair of characters. -/
def strToUint8 : (input : Bytes) → (length : Nat) → Bytes
  | a :: b :: rest, length + 2 =>
    (charToByte a <<< 4 ||| charToByte b) :: strToUint8 rest length
  | _, _ => []

variable (n : UInt32) (v : Nat) (rest : Bytes)

/-- `bctbx_uint32_to_str`, without the terminator. -/
def uint32ToStr : Bytes :=
  ([28, 24, 20, 16, 12, 8, 4, 0] : List UInt32).map fun shift =>
    byteToChar ((n >>> shift) &&& 0x0F).toUInt8

/-- `bctbx_str_to_uint32` on eight characters. -/
def strToUint32 (input : Bytes) : UInt32 :=
  let digit i := (charToByte (input.getD i 0)).toUInt32
  digit 0 <<< 28 ||| digit 1 <<< 24 ||| digit 2 <<< 20 ||| digit 3 <<< 16 |||
    digit 4 <<< 12 ||| digit 5 <<< 8 ||| digit 6 <<< 4 ||| digit 7

/-- A `uint32_t` as the four bytes of a blob, the highest first. -/
def uint32Blob : Bytes :=
  [(n >>> 24).toUInt8, (n >>> 16).toUInt8, (n >>> 8).toUInt8, n.toUInt8]

/-- The `uint32_t` read back from a blob of four bytes. -/
def blobUint32 (blob : Bytes) : UInt32 :=
  (blob.getD 0 0).toUInt32 <<< 24 ||| (blob.getD 1 0).toUInt32 <<< 16 |||
    (blob.getD 2 0).toUInt32 <<< 8 ||| (blob.getD 3 0).toUInt32

theorem charToByte_byteToChar (b : UInt8) : charToByte (byteToChar b) = b &&& 0x0F := by
  have hall : ∀ n : Fin 256, charToByte (byteToChar (ofFin n)) = ofFin n &&& 0x0F := by
    decide +kernel
  exact hall b.toFin

theorem nibbles (b : UInt8) :
    charToByte (byteToChar ((b >>> 4) &&& 0x0F)) <<< 4 ||| charToByte (byteToChar (b &&& 0x0F)) =
      b := by
  have hall : ∀ n : Fin 256, charToByte (byteToChar ((ofFin n >>> 4) &&& 0x0F)) <<< 4 |||
      charToByte (byteToChar (ofFin n &&& 0x0F)) = ofFin n := by
    decide +kernel
  exact hall b.toFin

/-- The digits of a byte string are twice as many as its bytes. -/
theorem length_int8ToStr : (int8ToStr bytes).length = 2 * bytes.length := by
  induction bytes with
  | nil => rfl
  | cons b rest ih =>
    simp only [int8ToStr, flatMap_cons, length_append, length_cons, length_nil] at ih ⊢
    omega

/-- A string of digits fills half as many bytes. -/
theorem length_strToUint8 {input : Bytes} {length : Nat} (h : length ≤ input.length) :
    (strToUint8 input length).length = length / 2 := by
  fun_induction strToUint8 input length with
  | case1 a b rest length ih =>
    simp only [length_cons] at h ⊢
    omega
  | case2 input length hno =>
    match input, length, h with
    | [], 0, _ => rfl
    | [], _ + 1, h => simp at h
    | [_], 0, _ => rfl
    | [_], 1, _ => rfl
    | [_], _ + 2, h => simp at h
    | _ :: _ :: _, 0, _ => rfl
    | _ :: _ :: _, 1, _ => rfl
    | a :: b :: rest, length + 2, _ => exact absurd rfl (hno a b rest length rfl)

/-- The bytes are read back from their digits. -/
theorem strToUint8_int8ToStr : strToUint8 (int8ToStr bytes) (int8ToStr bytes).length = bytes := by
  rw [length_int8ToStr]
  induction bytes with
  | nil => rfl
  | cons b rest ih =>
    change (_ ||| _) :: strToUint8 (int8ToStr rest) (2 * rest.length) = b :: rest
    rw [ih, nibbles]

/-- Equal digits are digits of the same bytes. -/
theorem int8ToStr_inj {bytes bytes' : Bytes} :
    int8ToStr bytes = int8ToStr bytes' ↔ bytes = bytes' := by
  constructor
  · intro h
    rw [← strToUint8_int8ToStr bytes, h, strToUint8_int8ToStr]
  · intro h
    rw [h]

/-- An index is read back from its digits, whatever follows them. -/
theorem strToUint32_uint32ToStr : strToUint32 (uint32ToStr n ++ rest) = n := by
  simp only [strToUint32, uint32ToStr, map_cons, map_nil, cons_append,
    nil_append, getD_cons_succ, getD_cons_zero, charToByte_byteToChar]
  apply UInt32.toBitVec_inj.mp
  apply BitVec.eq_of_getLsbD_eq
  intro i hi
  interval_cases i <;> simp [-UInt32.toUInt32_toUInt8, -UInt8.toUInt32_and]

/-- An index is read back from its blob. -/
theorem blobUint32_uint32Blob : blobUint32 (uint32Blob n) = n := by
  simp only [blobUint32, uint32Blob, getD_cons_succ, getD_cons_zero]
  apply UInt32.toBitVec_inj.mp
  apply BitVec.eq_of_getLsbD_eq
  intro i hi
  interval_cases i <;> simp [-UInt32.toUInt32_toUInt8, -UInt8.toUInt32_and]

/-! ## Base64 -/

/-- `base64_enc_map`: the characters `A–Z`, `a–z`, `0–9`, `+` and `/`. -/
def base64EncMap : List UInt8 :=
  [65, 66, 67, 68, 69, 70, 71, 72, 73, 74, 75, 76, 77, 78, 79, 80,
    81, 82, 83, 84, 85, 86, 87, 88, 89, 90, 97, 98, 99, 100, 101, 102,
    103, 104, 105, 106, 107, 108, 109, 110, 111, 112, 113, 114, 115, 116, 117, 118,
    119, 120, 121, 122, 48, 49, 50, 51, 52, 53, 54, 55, 56, 57, 43, 47]

/-- `base64_dec_map`: 64 stands for the padding character and 127 for no base64 character. -/
def base64DecMap : List Nat :=
  [127, 127, 127, 127, 127, 127, 127, 127, 127, 127, 127, 127, 127, 127, 127, 127,
    127, 127, 127, 127, 127, 127, 127, 127, 127, 127, 127, 127, 127, 127, 127, 127,
    127, 127, 127, 127, 127, 127, 127, 127, 127, 127, 127, 62, 127, 127, 127, 63,
    52, 53, 54, 55, 56, 57, 58, 59, 60, 61, 127, 127, 127, 64, 127, 127,
    127, 0, 1, 2, 3, 4, 5, 6, 7, 8, 9, 10, 11, 12, 13, 14,
    15, 16, 17, 18, 19, 20, 21, 22, 23, 24, 25, 127, 127, 127, 127, 127,
    127, 26, 27, 28, 29, 30, 31, 32, 33, 34, 35, 36, 37, 38, 39, 40,
    41, 42, 43, 44, 45, 46, 47, 48, 49, 50, 51, 127, 127, 127, 127, 127]

/-- The character of six bits. -/
def encodeSextet : UInt8 := base64EncMap.getD (v % 64) 0

/-- The table entry of a character; the first pass has refused those above 127. -/
def decodeSextet (c : UInt8) : Nat := base64DecMap.getD c.toNat 127

/-- `mbedtls_base64_encode` (`base64.c:77`) with room for the result. -/
def base64Encode : Bytes → Bytes
  | c₁ :: c₂ :: c₃ :: rest =>
    encodeSextet (c₁.toNat / 4) :: encodeSextet (c₁.toNat % 4 * 16 + c₂.toNat / 16) ::
      encodeSextet (c₂.toNat % 16 * 4 + c₃.toNat / 64) :: encodeSextet c₃.toNat :: base64Encode rest
  | [c₁, c₂] =>
    [encodeSextet (c₁.toNat / 4), encodeSextet (c₁.toNat % 4 * 16 + c₂.toNat / 16),
      encodeSextet (c₂.toNat % 16 * 4), 61]
  | [c₁] => [encodeSextet (c₁.toNat / 4), encodeSextet (c₁.toNat % 4 * 16), 61, 61]
  | [] => []

/-- The first pass of `mbedtls_base64_decode` (`base64.c:139`): the characters that count and the
padding among them, or `none` for an invalid character. `blank` says that spaces were just skipped. -/
def base64Scan : (input : Bytes) → (blank : Bool) → (n j : Nat) → Option (Nat × Nat)
  | [], _, n, j => some (n, j)
  | c :: rest, blank, n, j =>
    if c = 32 then base64Scan rest true n j
    else if c = 13 ∧ rest.head? = some 10 then base64Scan rest false n j
    else if c = 10 then base64Scan rest false n j
    else if blank then none
    else
      let j := if c = 61 then j + 1 else j
      if c = 61 ∧ 2 < j then none
      else if 127 < c ∨ decodeSextet c = 127 then none
      else if decodeSextet c < 64 ∧ j ≠ 0 then none
      else base64Scan rest false (n + 1) j

/-- The second pass (`base64.c:198`): `x` collects the bits of a group of four characters, `n` counts
them, and `j` is how many of its three bytes are written. -/
def base64Groups : (input : Bytes) → (j n x : Nat) → Bytes
  | [], _, _, _ => []
  | c :: rest, j, n, x =>
    if c = 13 ∨ c = 10 ∨ c = 32 then base64Groups rest j n x
    else
      let j := if decodeSextet c = 64 then j - 1 else j
      let x := (x * 64 + decodeSextet c % 64) % 2 ^ 32
      if n + 1 = 4 then
        (if 0 < j then [ofNat (x / 2 ^ 16)] else []) ++
          ((if 1 < j then [ofNat (x / 2 ^ 8)] else []) ++
            ((if 2 < j then [ofNat x] else []) ++ base64Groups rest j 0 x))
      else base64Groups rest j (n + 1) x

/-- The bytes there are after the two calls of `bctbx_base64_decode`, the first one for the length of
the buffer: none when the string is not base64. -/
def base64Decode (input : Bytes) : Bytes :=
  match base64Scan input false 0 0 with
  | none => []
  | some (0, _) => []
  | some (_ + 1, _) => base64Groups input 3 0 0

theorem encodeSextet_spec :
    encodeSextet v ≠ 32 ∧ encodeSextet v ≠ 13 ∧ encodeSextet v ≠ 10 ∧ encodeSextet v ≠ 61 ∧
      ¬ 127 < encodeSextet v ∧ decodeSextet (encodeSextet v) = v % 64 := by
  have hall : ∀ n : Fin 64, encodeSextet n ≠ 32 ∧ encodeSextet n ≠ 13 ∧ encodeSextet n ≠ 10 ∧
      encodeSextet n ≠ 61 ∧ ¬ 127 < encodeSextet n ∧ decodeSextet (encodeSextet n) = n := by
    decide +kernel
  have hv := hall ⟨v % 64, Nat.mod_lt _ (by decide)⟩
  have hmod : encodeSextet (v % 64) = encodeSextet v := by
    unfold encodeSextet
    rw [Nat.mod_mod]
  simpa only [hmod] using hv

theorem base64Scan_encodeSextet (n : Nat) :
    base64Scan (encodeSextet v :: rest) false n 0 = base64Scan rest false (n + 1) 0 := by
  obtain ⟨hblank, hcr, hlf, hpad, hascii, hval⟩ := encodeSextet_spec v
  have hne : decodeSextet (encodeSextet v) ≠ 127 := by omega
  simp [base64Scan, hblank, hcr, hlf, hpad, hascii, hne]

theorem base64Groups_encodeSextet (j x : Nat) {n : Nat} (hn : n < 3) :
    base64Groups (encodeSextet v :: rest) j n x =
      base64Groups rest j (n + 1) ((x * 64 + v % 64) % 2 ^ 32) := by
  obtain ⟨hblank, hcr, hlf, -, -, hval⟩ := encodeSextet_spec v
  have hne : v % 64 ≠ 64 := by omega
  have hlast : n ≠ 3 := by omega
  simp [base64Groups, hblank, hcr, hlf, hval, hne, hlast]

theorem base64Groups_last (x : Nat) :
    base64Groups (encodeSextet v :: rest) 3 3 x = let x := (x * 64 + v % 64) % 2 ^ 32
      ofNat (x / 2 ^ 16) :: ofNat (x / 2 ^ 8) :: ofNat x ::
        base64Groups rest 3 0 x := by
  obtain ⟨hblank, hcr, hlf, -, -, hval⟩ := encodeSextet_spec v
  have hne : v % 64 ≠ 64 := by omega
  simp [base64Groups, hblank, hcr, hlf, hval, hne]

theorem ofNat_eq_of_mod {n : Nat} {b : UInt8} (h : n % 256 = b.toNat) : ofNat n = b := by
  apply UInt8.toNat_inj.mp
  simpa using h

theorem base64Groups_base64Encode (x : Nat) : base64Groups (base64Encode bytes) 3 0 x = bytes := by
  fun_induction base64Encode bytes generalizing x with
  | case1 c₁ c₂ c₃ rest ih =>
    rw [base64Groups_encodeSextet _ _ _ _ (by decide), base64Groups_encodeSextet _ _ _ _ (by decide),
      base64Groups_encodeSextet _ _ _ _ (by decide), base64Groups_last]
    have h₁ := c₁.toNat_lt
    have h₂ := c₂.toNat_lt
    have h₃ := c₃.toNat_lt
    simp only [ih, List.cons.injEq, and_true]
    refine ⟨ofNat_eq_of_mod ?_, ofNat_eq_of_mod ?_, ofNat_eq_of_mod ?_⟩ <;> omega
  | case2 c₁ c₂ =>
    rw [base64Groups_encodeSextet _ _ _ _ (by decide), base64Groups_encodeSextet _ _ _ _ (by decide),
      base64Groups_encodeSextet _ _ _ _ (by decide)]
    have h₁ := c₁.toNat_lt
    have h₂ := c₂.toNat_lt
    have hpad : decodeSextet 61 = 64 := by decide
    simp [base64Groups, hpad]
    refine ⟨ofNat_eq_of_mod ?_, ofNat_eq_of_mod ?_⟩ <;> omega
  | case3 c₁ =>
    rw [base64Groups_encodeSextet _ _ _ _ (by decide), base64Groups_encodeSextet _ _ _ _ (by decide)]
    have h₁ := c₁.toNat_lt
    have hpad : decodeSextet 61 = 64 := by decide
    simp [base64Groups, hpad]
    exact ofNat_eq_of_mod (by omega)
  | case4 => rfl

theorem base64Scan_base64Encode (n : Nat) :
    ∃ j, base64Scan (base64Encode bytes) false n 0 = some (n + (base64Encode bytes).length, j) := by
  have hpad : decodeSextet 61 = 64 := by decide
  fun_induction base64Encode bytes generalizing n with
  | case1 c₁ c₂ c₃ rest ih =>
    obtain ⟨j, hj⟩ := ih (n + 1 + 1 + 1 + 1)
    refine ⟨j, ?_⟩
    simp only [base64Scan_encodeSextet, hj, length_cons]
    congr 2
    omega
  | case2 c₁ c₂ =>
    refine ⟨1, ?_⟩
    simp only [base64Scan_encodeSextet]
    simp [base64Scan, hpad]
  | case3 c₁ =>
    refine ⟨2, ?_⟩
    simp only [base64Scan_encodeSextet]
    simp [base64Scan, hpad]
  | case4 => exact ⟨0, rfl⟩

/-- Base64 reads back what it wrote. -/
theorem base64Decode_base64Encode : base64Decode (base64Encode bytes) = bytes := by
  obtain ⟨j, hj⟩ := base64Scan_base64Encode bytes 0
  unfold base64Decode
  rw [hj, Nat.zero_add]
  cases hlen : (base64Encode bytes).length with
  | zero =>
    have hnil := length_eq_zero_iff.mp hlen
    have hback := base64Groups_base64Encode bytes 0
    rw [hnil] at hback
    exact hback
  | succ n => exact base64Groups_base64Encode bytes 0

end GrooveIp.Lime
