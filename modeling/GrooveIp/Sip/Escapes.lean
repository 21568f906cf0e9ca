import GrooveIp.Lib.Memory

/-!
# Escaping the components of a SIP URI

`bctbx_escape` and `bctbx_unescaped_string` (`bctoolbox/src/parser.c:31–99`) and the four rule
tables of SIP URIs (`belle_sip_utils.c:394–509`). A C string is the list of its bytes in front of
the NUL. The output buffer of the escaping grows ahead of what is written, so that it is the bytes
of the string with every byte that the table does not allow replaced by three.
-/

namespace GrooveIp.Sip

open Lib

/-- The bytes of a string literal. -/
def bytesOf (text : String) : List UInt8 := text.toList.map fun c => c.toNat.toUInt8

/-! ### Rule tables -/

/-- `bctbx_noescape_rules_t`, the bytes that are left as they are. -/
abbrev NoescapeRules := UInt8 → Bool

/-- `noescapes = {0}`. -/
def NoescapeRules.none : NoescapeRules := fun _ => false

variable (buff : List UInt8) (noescapes : NoescapeRules)

/-- `bctbx_noescape_rules_add_list` (`parser.c:56–61`). -/
def NoescapeRules.addList (allowed : List UInt8) : NoescapeRules :=
  fun c => noescapes c || allowed.contains c

/-- `bctbx_noescape_rules_add_range` (`parser.c:63–65`). -/
def NoescapeRules.addRange (first last : UInt8) : NoescapeRules :=
  fun c => noescapes c || (first ≤ c && c ≤ last)

/-- `bctbx_noescape_rules_add_alfanums` (`parser.c:67–71`). -/
def NoescapeRules.addAlfanums : NoescapeRules :=
  ((noescapes.addRange 0x30 0x39).addRange 0x41 0x5A).addRange 0x61 0x7A

/-- `get_sip_uri_username_noescapes` (`belle_sip_utils.c:394–414`). -/
def getSipUriUsernameNoescapes : NoescapeRules :=
  (NoescapeRules.none.addAlfanums.addList (bytesOf "-_.!~*'()")).addList (bytesOf "&=+$,;?/")

/-- `get_sip_uri_userpasswd_noescapes` (`belle_sip_utils.c:420–432`). -/
def getSipUriUserpasswdNoescapes : NoescapeRules :=
  (NoescapeRules.none.addAlfanums.addList (bytesOf "-_.!~*'()")).addList (bytesOf "&=+$,")

/-- `get_sip_uri_parameter_noescapes` (`belle_sip_utils.c:434–465`): the characters of a token, with
the percent sign among them. -/
def getSipUriParameterNoescapes : NoescapeRules :=
  (((NoescapeRules.none.addList (bytesOf "[]/:&+$")).addAlfanums).addList
    (bytesOf "-.!%*_+`'~")).addList (bytesOf "-_.!~*'()")

/-- `get_sip_uri_header_noescapes` (`belle_sip_utils.c:466–495`). -/
def getSipUriHeaderNoescapes : NoescapeRules :=
  (NoescapeRules.none.addAlfanums.addList (bytesOf "-_.!~*'()")).addList (bytesOf "[]/?:+$")

/-! ### Escaping -/

/-- The percent sign. -/
def percent : UInt8 := 0x25

/-- A digit of `%x`. -/
def hexDigit (n : Nat) : UInt8 := if n < 10 then UInt8.ofNat (0x30 + n) else UInt8.ofNat (0x57 + n)

/-- What `snprintf` makes of `"%%%02x"`. -/
def escapeOf (c : UInt8) : List UInt8 := [percent, hexDigit (c.toNat / 16), hexDigit (c.toNat % 16)]

/-- `output_buff`: the size it has without the byte for the NUL, and what was written to it. -/
structure EscapeBuffer where
  outbufSize : Nat
  written : List UInt8
  deriving DecidableEq, Repr

/-- Writing some bytes behind those written. A text that `snprintf` has to cut would leave unset
bytes in the string, which is taken for a fault as well. -/
def EscapeBuffer.write (buffer : EscapeBuffer) (bytes : List UInt8) : Except Fault EscapeBuffer :=
  if buffer.written.length + bytes.length ≤ buffer.outbufSize then
    .ok { buffer with written := buffer.written ++ bytes }
  else .error .outOfBounds

/-- The body of the loop of `bctbx_escape`. -/
def escapeStep (origSize : Nat) (buffer : EscapeBuffer) (c : UInt8) : Except Fault EscapeBuffer :=
  let buffer :=
    if buffer.outbufSize < buffer.written.length + 3 then
      -- three characters will possibly be added
      { buffer with outbufSize := buffer.outbufSize + max (origSize / 2) 3 }
    else buffer
  if noescapes c then buffer.write [c] else buffer.write (escapeOf c)

/-- `bctbx_escape` (`parser.c:31–54`). -/
def bctbxEscape : Except Fault (List UInt8) := do
  let buffer ← buff.foldlM (escapeStep noescapes buff.length) ⟨buff.length, []⟩
  return buffer.written

/-- `belle_sip_uri_to_escaped_username` (`belle_sip_utils.c:498–500`). -/
def belleSipUriToEscapedUsername : Except Fault (List UInt8) :=
  bctbxEscape buff getSipUriUsernameNoescapes

/-- `belle_sip_uri_to_escaped_userpasswd` (`belle_sip_utils.c:501–503`). -/
def belleSipUriToEscapedUserpasswd : Except Fault (List UInt8) :=
  bctbxEscape buff getSipUriUserpasswdNoescapes

/-- `belle_sip_uri_to_escaped_parameter` (`belle_sip_utils.c:504–506`). -/
def belleSipUriToEscapedParameter : Except Fault (List UInt8) :=
  bctbxEscape buff getSipUriParameterNoescapes

/-- `belle_sip_uri_to_escaped_header` (`belle_sip_utils.c:507–509`). -/
def belleSipUriToEscapedHeader : Except Fault (List UInt8) :=
  bctbxEscape buff getSipUriHeaderNoescapes

/-! ### Unescaping -/

/-- `is_escaped_char` (`parser.c:73–75`). -/
def isEscapedChar : List UInt8 → Bool
  | c :: _ :: _ :: _ => c == percent
  | _ => false

/-- The value of a digit that `%x` reads. -/
def hexValue (c : UInt8) : Option Nat :=
  if 0x30 ≤ c && c ≤ 0x39 then some (c.toNat - 0x30)
  else if 0x41 ≤ c && c ≤ 0x46 then some (c.toNat - 0x37)
  else if 0x61 ≤ c && c ≤ 0x66 then some (c.toNat - 0x57)
  else none

/-- The value of the digits in front, `n` at most, behind what was read. -/
def readHex : Nat → Option Nat → List UInt8 → Option Nat
  | n + 1, value, c :: text =>
    match hexValue c with
    | some digit => readHex n (some (value.getD 0 * 16 + digit)) text
    | none => value
  | _, value, _ => value

/-- `sscanf(text, "%02x", &tmp)`: white space, then a field of two with a sign or without one. There
is no value when the field has no digit. -/
def sscanf02x (text : List UInt8) : Option UInt32 :=
  match text.dropWhile (fun c => c == 0x20 || (0x09 ≤ c && c ≤ 0x0D)) with
  | [] => none
  | c :: rest =>
    if c = 0x2B then (readHex 1 none rest).map UInt32.ofNat
    else if c = 0x2D then (readHex 1 none rest).map fun n => - UInt32.ofNat n
    else (readHex 2 none (c :: rest)).map UInt32.ofNat

variable (stale : UInt8)

/-- `bctbx_get_char` (`parser.c:77–87`): the byte and how far it goes. `stale` is the value of `tmp`
where `sscanf` does not set it. -/
def bctbxGetChar (a : List UInt8) : UInt8 × Nat :=
  if isEscapedChar a then (((sscanf02x (a.drop 1)).map UInt32.toUInt8).getD stale, 3)
  else (a.headD 0, 1)

/-- The step of `bctbx_get_char` is at least one byte. -/
theorem bctbxGetChar_pos (a : List UInt8) : 0 < (bctbxGetChar stale a).2 := by
  unfold bctbxGetChar
  split
  · omega
  · omega

/-- A byte other than the percent sign is itself. -/
theorem bctbxGetChar_plain {c : UInt8} (hc : c ≠ percent) (text : List UInt8) :
    bctbxGetChar stale (c :: text) = (c, 1) := by
  have hescaped : isEscapedChar (c :: text) = false := by
    unfold isEscapedChar
    split
    · next heq =>
      obtain ⟨rfl, -⟩ := List.cons.inj heq
      exact beq_eq_false_iff_ne.mpr hc
    · rfl
  rw [bctbxGetChar, hescaped]
  rfl

/-- The loop of `bctbx_unescaped_string`: what is written to the output. `tmp` may hold something
else in every turn. -/
def unescapeLoop (stale : List UInt8 → UInt8) (buff : List UInt8) : List UInt8 :=
  match buff with
  | [] => []
  | c :: rest =>
    let read := bctbxGetChar (stale (c :: rest)) (c :: rest)
    read.1 :: unescapeLoop stale ((c :: rest).drop read.2)
  termination_by buff.length
  decreasing_by
    rw [List.length_drop]
    exact Nat.sub_lt (Nat.succ_pos _) (bctbxGetChar_pos _ _)

/-- `bctbx_unescaped_string` (`parser.c:89–99`), as the C string that the output buffer holds. -/
def bctbxUnescapedString (stale : List UInt8 → UInt8) (buff : List UInt8) : List UInt8 :=
  cString (unescapeLoop stale buff)

end GrooveIp.Sip
