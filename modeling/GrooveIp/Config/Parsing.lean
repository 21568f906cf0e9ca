import GrooveIp.Config.LpConfig
import GrooveIp.Lib.CString
import Mathlib.Data.List.DropRight

/-!
# Reading a configuration file

`linphone_config_parse` reads a file line by line into one buffer that is never cleared, and
`linphone_config_parse_line` decides on each line alone what it is: the head of a section, a
comment or an entry. A line is a C string; `strchr` finds a first character, `sscanf` with `%s`
the next word.
-/

namespace GrooveIp.Config

open GrooveIp.Lib GrooveIp.Sal

/-! ### Pieces of a line -/

variable (sec : LpSection) (c : Char) (s : CString)

/-- What is in front of the first `c`: the part that `strchr` passes over. -/
def before : CString := s.takeWhile (· ≠ c)

/-- What is behind the first `c`. -/
def behind : CString := (s.dropWhile (· ≠ c)).tail

@[simp] theorem before_append {c : Char} {a : CString} (b : CString) (h : c ∉ a) :
    before c (a ++ c :: b) = a := by
  unfold before
  rw [List.takeWhile_append_of_pos fun x hx => by simpa using ne_of_mem_of_not_mem hx h]
  simp

@[simp] theorem behind_append {c : Char} {a : CString} (b : CString) (h : c ∉ a) :
    behind c (a ++ c :: b) = b := by
  unfold behind
  rw [List.dropWhile_append_of_pos fun x hx => by simpa using ne_of_mem_of_not_mem hx h]
  simp

@[simp] theorem before_of_not_mem {c : Char} {a : CString} (h : c ∉ a) : before c a = a :=
  List.takeWhile_eq_self_iff.mpr fun x hx => by simpa using ne_of_mem_of_not_mem hx h

/-- The text up to the first `'\r'` or, without one, up to the first `'\n'`. -/
def cutAtEol : CString :=
  if '\r' ∈ s then before '\r' s else before '\n' s

/-- The text without the spaces at its end. -/
def trimEnd : CString := s.rdropWhile (· = ' ')

/-- `is_first_char`: only spaces stand in front of the first `c`, which is there. -/
def isFirstChar : Bool := c ∈ s && (before c s).all (· == ' ')

/-- `is_a_comment`. -/
def isAComment : Bool := (s.dropWhile (· = ' ')).head? == some '#'

/-! ### One line -/

/-- The loop over the parameters of a section (lines 296–314). The text is the memory behind the
name, its first `']'` a terminator, over which the loop steps behind the last parameter. Each turn
passes four characters or more. -/
def readParams : Nat → List Char → List LpSectionParam
  | 0, _ => []
  | n + 1, memory =>
    let s := memory.takeWhile (· ≠ nul)
    if '=' ∈ s then
      let t := before '=' s ++ ' ' :: behind '=' s
      let key := nextWord none t
      let value := nextWord none ((t.dropWhile isSpace).drop key.length)
      if key = [] ∨ value = [] then []
      else ⟨key, value⟩ ::
        readParams n ((t ++ memory.drop t.length).drop (key.length + value.length + 2))
    else []

variable (lc : LpConfig)

/-- The section a head names, there already or new at the end (lines 283–287). -/
def LpConfig.enterSection (name : CString) : LpConfig :=
  if (lc.findSection name).isSome then lc else lc.addSection { name }

/-- `linphone_config_add_section_param`, one after the other. -/
def LpSection.addParams (params : List LpSectionParam) : LpSection :=
  { sec with params := sec.params ++ params }

/-- A line whose first `'['` follows only spaces (lines 275–321). -/
def LpConfig.parseHead (line : CString) (cur : Option CString) : LpConfig × Option CString :=
  let inner := behind '[' line
  if ']' ∈ inner then
    let secname := nextWord none (before ']' inner)
    if secname = [] then (lc, cur)
    else
      let found := lc.enterSection secname
      if secname.length < (before ']' inner).length then
        let memory := (before ']' inner ++ nul :: behind ']' inner).drop (secname.length + 1)
        (found.updateSection secname (·.addParams (readParams memory.length memory)), some secname)
      else (found, some secname)
  else (lc, cur)

/-- A comment goes to the end of the section, in the place of an equal one (lines 323–331). -/
def LpSection.putComment (text : CString) : LpSection :=
  { sec with items := sec.items.eraseP (·.hasComment text) ++ [⟨[], text, true⟩] }

/-- An entry takes the place of the one with its key or goes to the end (lines 354–361). -/
def LpSection.putEntry (key value : CString) : LpSection :=
  match sec.findItem key with
  | none => sec.addItem ⟨key, value, false⟩
  | some _ => sec.setItemValue key value

/-- A line that is neither a head nor a comment (lines 333–370). -/
def LpConfig.parseEntry (line : CString) (cur : Option CString) : LpConfig :=
  if '=' ∈ line then
    let key := nextWord none (before '=' line)
    let value := trimEnd (cutAtEol (behind '=' line))
    if key = [] ∨ value = [] then lc
    else
      match cur with
      | some name => lc.updateSection name (·.putEntry key value)
      | none => lc
  else lc

/-- `linphone_config_parse_line` (lines 262–378): the configuration and the current section. -/
def LpConfig.parseLine (line : CString) (cur : Option CString) : LpConfig × Option CString :=
  if isFirstChar '[' line then lc.parseHead line cur
  else if isAComment line then
    match cur with
    | some name => (lc.updateSection name (·.putComment (cutAtEol line)), cur)
    | none => (lc, cur)
  else (lc.parseEntry line cur, cur)

/-! ### The lines of a file -/

/-- `MAX_LEN`. -/
def maxLen : Nat := 16384

/-- What a reader holds: its place in the file and its buffer. -/
structure LineReader where
  offset : Nat := 0
  buffer : List Char := List.replicate maxLen nul

/-- Where the first `'\r'` or `'\n'` of a C string is. -/
def eolIndex : Option Nat := s.findIdx? fun c => c = '\r' ∨ c = '\n'

/-- `bcGetLine` (vfs.c, lines 193–236): the size it returns and the reader behind it. What earlier
lines left in the buffer is searched too. -/
def LineReader.getLine (r : LineReader) (file : List Char) : Nat × LineReader :=
  let buffer := r.buffer.set (maxLen - 1) nul
  let chunk := (file.drop r.offset).take (maxLen - 1)
  if chunk = [] then (0, { r with buffer })
  else
    let s := chunk ++ buffer.drop chunk.length
    match eolIndex (s.takeWhile (· ≠ nul)) with
    | some i =>
      let size := if s[i + 1]? = some '\n' then i + 2 else i + 1
      (size, { offset := r.offset + size, buffer := s.set i nul })
    | none =>
      (chunk.length, { offset := r.offset + chunk.length, buffer := s.set chunk.length nul })

/-- The C string in the buffer. -/
def LineReader.line (r : LineReader) : CString := r.buffer.takeWhile (· ≠ nul)

/-- The loop of `linphone_config_parse` (lines 380–389) from a place in the file on; every line
moves on by a character or more. -/
def LpConfig.parseFrom (file : List Char) : Nat → LineReader → LpConfig × Option CString → LpConfig
  | 0, _, st => st.1
  | n + 1, r, st =>
    let got := r.getLine file
    if got.1 = 0 then st.1
    else LpConfig.parseFrom file n got.2 (st.1.parseLine got.2.line st.2)

/-- `linphone_config_parse`. -/
def LpConfig.parse (file : List Char) : LpConfig :=
  LpConfig.parseFrom file (file.length + 1) {} (lc, none)

/-- `linphone_config_new_with_factory` (lines 401–484): the user's file if it opens, then the
factory file, which does not raise the flag. -/
def LpConfig.newWithFactory (filename : Option CString) (file factory : Option (List Char)) :
    LpConfig :=
  let lc : LpConfig := { filename }
  let lc := match filename, file with
    | some _, some bytes => { lc.parse bytes with modified := false }
    | _, _ => lc
  match factory with
  | some bytes => lc.parse bytes
  | none => lc

end GrooveIp.Config
