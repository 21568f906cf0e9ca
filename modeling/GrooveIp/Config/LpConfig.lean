import GrooveIp.Lib.Scanf
import GrooveIp.Sal.Description

/-!
# The configuration in memory

`LpConfig` of `coreapi/lpconfig.c`: sections in order, each with its items and parameters, the
flag that asks for a commit and the one that gives up writing. A pointer to a section or an item
is the first one of that name or key, which is what the lookups return; the flags `overwrite` and
`skip` only matter to the XML dump and are left out.
-/

namespace GrooveIp.Config

open GrooveIp.Lib GrooveIp.Sal

/-- `struct _LpItem`: an entry, or a comment, which has no key. -/
structure LpItem where
  key : CString
  value : CString
  isComment : Bool := false
  deriving DecidableEq, Repr

/-- `struct _LpSectionParam`. -/
structure LpSectionParam where
  key : CString
  value : CString
  deriving DecidableEq, Repr

/-- `struct _LpSection`. -/
structure LpSection where
  name : CString
  items : List LpItem := []
  params : List LpSectionParam := []
  deriving DecidableEq, Repr

/-- `struct _LpConfig`. -/
structure LpConfig where
  filename : Option CString := none
  sections : List LpSection := []
  modified : Bool := false
  readonly : Bool := false
  deriving DecidableEq, Repr

/-! ### Lookups -/

/-- An entry with this key: `!item->is_comment && strcmp(item->key, name) == 0`. -/
def LpItem.hasKey (item : LpItem) (key : CString) : Bool := !item.isComment && item.key == key

/-- A comment with this text. -/
def LpItem.hasComment (item : LpItem) (text : CString) : Bool :=
  item.isComment && item.value == text

variable (lc : LpConfig) (sec : LpSection) (section' : CString)

/-- `lp_section_find_item`. -/
def LpSection.findItem (key : CString) : Option LpItem :=
  sec.items.find? (·.hasKey key)

/-- `linphone_config_find_section`. -/
def LpConfig.findSection (name : CString) : Option LpSection :=
  lc.sections.find? (·.name == name)

/-- `linphone_config_get_string` (lines 604–613). -/
def LpConfig.getString (key : CString) (default : Option CString) : Option CString :=
  match lc.findSection section' with
  | none => default
  | some sec =>
    match sec.findItem key with
    | none => default
    | some item => some item.value

/-- `linphone_config_has_entry`. -/
def LpConfig.hasEntry (key : CString) : Bool :=
  match lc.findSection section' with
  | none => false
  | some sec => (sec.findItem key).isSome

/-- `linphone_config_needs_commit`. -/
def LpConfig.needsCommit : Bool := lc.modified

/-! ### Edits through a pointer -/

/-- The section that a lookup by this name found is changed in place. -/
def LpConfig.updateSection (name : CString) (f : LpSection → LpSection) : LpConfig :=
  { lc with sections := lc.sections.replaceF fun s => if s.name = name then some (f s) else none }

/-- `linphone_config_add_section`. -/
def LpConfig.addSection : LpConfig :=
  { lc with sections := lc.sections ++ [sec] }

/-- `lp_section_add_item`. -/
def LpSection.addItem (item : LpItem) : LpSection :=
  { sec with items := sec.items ++ [item] }

/-- `lp_item_set_value` on the item that a lookup by this key found. -/
def LpSection.setItemValue (key value : CString) : LpSection :=
  { sec with items := sec.items.replaceF fun i =>
      if i.hasKey key then some { i with value := value } else none }

/-- `lp_section_remove_item` on the item that a lookup by this key found. -/
def LpSection.removeItem (key : CString) : LpSection :=
  { sec with items := sec.items.eraseP (·.hasKey key) }

/-- What a list holds after the first element of a kind was changed in place. -/
theorem mem_replaceF {α : Type} {p : α → Prop} [DecidablePred p] {f : α → α} {l : List α} {x : α}
    (h : x ∈ l.replaceF fun a => if p a then some (f a) else none) :
    x ∈ l ∨ ∃ a ∈ l, p a ∧ x = f a := by
  induction l with
  | nil => simp at h
  | cons a l ih =>
    by_cases ha : p a
    · simp only [List.replaceF_cons, if_pos ha, List.mem_cons] at h
      rcases h with rfl | h
      · exact .inr ⟨a, by simp, ha, rfl⟩
      · exact .inl (by simp [h])
    · simp only [List.replaceF_cons, if_neg ha, List.mem_cons] at h
      rcases h with rfl | h
      · exact .inl (by simp)
      · rcases ih h with h | ⟨b, hb, hp, rfl⟩
        · exact .inl (by simp [h])
        · exact .inr ⟨b, by simp [hb], hp, rfl⟩

/-- A change in place that keeps a part of every element keeps the list of these parts. -/
theorem map_replaceF {α β : Type} {p : α → Prop} [DecidablePred p] {f : α → α} {g : α → β}
    (hg : ∀ a, g (f a) = g a) (l : List α) :
    (l.replaceF fun a => if p a then some (f a) else none).map g = l.map g := by
  induction l with
  | nil => rfl
  | cons a l ih =>
    by_cases ha : p a
    · simp [ha, hg]
    · simp [ha, ih]

/-! ### Setters -/

/-- The text of a value, if there is any: `value != NULL && value[0] != '\0'`. -/
def given (value : Option CString) : Option CString := value.filter (· ≠ [])

/-- `linphone_config_set_string` (lines 735–757). -/
def LpConfig.setString (key : CString) (value : Option CString) : LpConfig :=
  match lc.findSection section' with
  | some sec =>
    match sec.findItem key, given value with
    | some item, some v =>
      -- the one way out that leaves the flag alone
      if v = item.value then lc
      else { lc.updateSection section' (·.setItemValue key v) with modified := true }
    | some _, none => { lc.updateSection section' (·.removeItem key) with modified := true }
    | none, some v => { lc.updateSection section' (·.addItem ⟨key, v, false⟩) with modified := true }
    | none, none => { lc with modified := true }
  | none =>
    match given value with
    | some v => { lc.addSection { name := section', items := [⟨key, v, false⟩] } with
        modified := true }
    | none => { lc with modified := true }

/-- The list joined by commas, or `NULL` where it is empty. -/
def joined (value : List CString) : Option CString :=
  if value = [] then none else some (",".toList.intercalate value)

/-- `linphone_config_set_string_list` (lines 759–772). -/
def LpConfig.setStringList (key : CString) (value : List CString) : LpConfig :=
  lc.setString section' key (joined value)

/-- `snprintf` into `char tmp[30]`. -/
def cut30 (text : CString) : CString := text.take 29

/-- `linphone_config_set_range`. -/
def LpConfig.setRange (key : CString) (minValue maxValue : Int) : LpConfig :=
  lc.setString section' key (some (cut30 (printInt minValue ++ '-' :: printInt maxValue)))

/-- `linphone_config_set_int` and, for 64 bits, `linphone_config_set_int64`. -/
def LpConfig.setInt (key : CString) (value : Int) : LpConfig :=
  lc.setString section' key (some (cut30 (printInt value)))

/-- `linphone_config_set_bool`. -/
def LpConfig.setBool (key : CString) (value : Bool) : LpConfig :=
  if value then lc.setInt section' key 1 else lc.setInt section' key 0

/-- `linphone_config_set_int_hex`. -/
def LpConfig.setIntHex (key : CString) (value : BitVec 32) : LpConfig :=
  lc.setString section' key (some (cut30 ('0' :: 'x' :: Nat.toDigits 16 value.toNat)))

/-- `linphone_config_set_float`, with the text that `%f` prints. -/
def LpConfig.setFloat (key : CString) (printed : CString) : LpConfig :=
  lc.setString section' key (some (cut30 printed))

/-- `linphone_config_clean_section` (lines 950–956). -/
def LpConfig.cleanSection : LpConfig :=
  { lc with sections := lc.sections.eraseP (·.name == section'), modified := true }

/-- `linphone_config_clean_entry` (lines 1198–1208): the flag stays as it is. -/
def LpConfig.cleanEntry (key : CString) : LpConfig :=
  lc.updateSection section' (·.removeItem key)

/-! ### Writing -/

/-- `lp_item_write`: nothing is written for an entry with an empty value. -/
def LpItem.write (item : LpItem) : CString :=
  if item.isComment then item.value ++ ['\n']
  else if item.value ≠ [] then item.key ++ '=' :: item.value ++ ['\n']
  else []

/-- `lp_section_param_write`. -/
def LpSectionParam.write (param : LpSectionParam) : CString :=
  if param.value ≠ [] then ' ' :: param.key ++ '=' :: param.value else []

/-- `lp_section_write` (lines 876–887). -/
def LpSection.write (sec : LpSection) : CString :=
  '[' :: sec.name ++ sec.params.flatMap LpSectionParam.write ++ "]\n".toList ++
    sec.items.flatMap LpItem.write ++ ['\n']

/-- What the file system answers to a sync: does the temporary file open, and does what was
written end up under the file's name? -/
structure SyncOutcome where
  opened : Bool
  stored : Bool
  deriving DecidableEq, Repr

/-- What `linphone_config_sync` does: its status, the configuration behind it and the text it
wrote to the temporary file, if it came to that. -/
structure Synced where
  status : Int
  config : LpConfig
  written : Option CString := none
  deriving DecidableEq, Repr

/-- `linphone_config_sync` (lines 889–921). The flag is cleared whatever becomes of the file. -/
def LpConfig.sync (answer : SyncOutcome) : Synced :=
  if lc.filename = none then ⟨-1, lc, none⟩
  else if lc.readonly then ⟨0, lc, none⟩
  else if !answer.opened then ⟨-1, { lc with readonly := true }, none⟩
  else ⟨0, { lc with modified := false }, some (lc.sections.flatMap LpSection.write)⟩

end GrooveIp.Config
