import GrooveIp.Config.Parsing
import GrooveIp.Lib.Printed
import Mathlib.Data.List.Nodup

/-!
# A configuration file read back

What `linphone_config_set_string` built up is written section by section and read again line by
line. Three steps: what a line of each kind does to the configuration, what the lines of a
section do, and that the reader hands out the lines that were written, except for empty ones,
which it may skip and which mean nothing.
-/

namespace GrooveIp.Config

open List

open GrooveIp.Lib GrooveIp.Sal LpConfig

/-! ### What can be written -/

/-- A section name without white space and `']'`. -/
structure IsSectionName (name : CString) : Prop where
  ne_nil : name ≠ []
  no_space : ∀ c ∈ name, isSpace c = false
  no_bracket : ']' ∉ name
  no_nul : nul ∉ name

/-- A key without white space and `'='` that does not start like a head or a comment. -/
structure IsKey (key : CString) : Prop where
  ne_nil : key ≠ []
  no_space : ∀ c ∈ key, isSpace c = false
  no_equal : '=' ∉ key
  no_head : key.head? ≠ some '['
  no_comment : key.head? ≠ some '#'
  no_nul : nul ∉ key

/-- A value on one line, not empty and without spaces at its end. -/
structure IsValue (value : CString) : Prop where
  ne_nil : value ≠ []
  no_cr : '\r' ∉ value
  no_lf : '\n' ∉ value
  no_nul : nul ∉ value
  no_space : value.getLast? ≠ some ' '

/-- An item as `linphone_config_set_string` makes it. -/
structure LpItem.Plain (item : LpItem) : Prop where
  key : IsKey item.key
  value : IsValue item.value
  entry : item.isComment = false

/-- A section as `linphone_config_set_string` makes it: entries only, with keys of their own. -/
structure LpSection.Plain (sec : LpSection) : Prop where
  name : IsSectionName sec.name
  items : ∀ item ∈ sec.items, item.Plain
  keys : (sec.items.map LpItem.key).Nodup
  params : sec.params = []

open LpSection

/-- Sections as `linphone_config_set_string` makes them, with names of their own. -/
structure Plain (sections : List LpSection) : Prop where
  each : ∀ sec ∈ sections, sec.Plain
  names : (sections.map LpSection.name).Nodup

/-! ### Lines -/

/-- The line of an item. -/
def LpItem.line (item : LpItem) : CString := item.key ++ '=' :: item.value

/-- The head of a section without parameters. -/
def headLine (name : CString) : CString := '[' :: name ++ [']']

/-- The lines of a section, the empty one behind it included. -/
def LpSection.lines (sec : LpSection) : List CString :=
  headLine sec.name :: sec.items.map LpItem.line ++ [[]]

/-- A text of lines. -/
def unlines (lines : List CString) : List Char := lines.flatMap (· ++ ['\n'])

variable {sec : LpSection}

theorem LpSection.Plain.write_eq (h : sec.Plain) : sec.write = unlines sec.lines := by
  have hitems : ∀ items : List LpItem, (∀ item ∈ items, item.Plain) →
      items.flatMap LpItem.write = unlines (items.map LpItem.line) := by
    intro items hplain
    induction items with
    | nil => rfl
    | cons item items ih =>
      obtain ⟨hitem, hrest⟩ := forall_mem_cons.mp hplain
      have hline : item.write = item.line ++ ['\n'] := by
        simp [LpItem.write, LpItem.line, hitem.entry, hitem.value.ne_nil]
      rw [flatMap_cons, ih hrest, hline]
      rfl
  simp [write, lines, h.params, hitems sec.items h.items, unlines, headLine]

@[simp] theorem LpConfig.parseLine_nil (lc : LpConfig) (cur : Option CString) :
    lc.parseLine [] cur = (lc, cur) := rfl

theorem IsWord.nextWord {w : List Char} (hw : IsWord w) : nextWord none w = w := by
  have h := (nextWord_append hw (show WordEnd [] by simp [WordEnd])
    (show ∀ n ∈ none, w.length ≤ n by simp)).1
  rwa [append_nil] at h

variable {lc : LpConfig}

theorem LpConfig.parseLine_head {name : CString} (hname : IsSectionName name)
    (hnew : lc.findSection name = none) (cur : Option CString) :
    lc.parseLine (headLine name) cur = (lc.addSection { name }, some name) := by
  have hfirst : isFirstChar '[' (headLine name) = true := by
    simp [isFirstChar, headLine, before]
  have hinner : behind '[' (headLine name) = name ++ [']'] :=
    behind_append (a := []) (name ++ [']']) (by simp)
  have hbefore : before ']' (name ++ [']']) = name := before_append [] hname.no_bracket
  have hword : nextWord none name = name := IsWord.nextWord ⟨hname.ne_nil, hname.no_space⟩
  simp [parseLine, hfirst, parseHead, hinner, hbefore, hword, hname.ne_nil,
    enterSection, hnew]

theorem LpConfig.parseLine_item {item : LpItem} (hitem : item.Plain) (name : CString) :
    lc.parseLine item.line (some name) =
      (lc.updateSection name (·.putEntry item.key item.value), some name) := by
  obtain ⟨hkey, hvalue, -⟩ := hitem
  obtain ⟨c, key', hc⟩ := exists_cons_of_ne_nil hkey.ne_nil
  have hcspace : isSpace c = false := hkey.no_space c (by simp [hc])
  have hne : c ≠ ' ' := by
    rintro rfl
    exact absurd hcspace (by decide)
  have hhead : c ≠ '[' := by
    intro h
    exact hkey.no_head (by simp [hc, h])
  have hcomment : c ≠ '#' := by
    intro h
    exact hkey.no_comment (by simp [hc, h])
  have hfirst : isFirstChar '[' item.line = false := by
    simp [isFirstChar, LpItem.line, hc, before, hhead, hne]
  have hnocomment : isAComment item.line = false := by
    simp [isAComment, LpItem.line, hc, hne, hcomment]
  have hbefore : before '=' item.line = item.key := before_append _ hkey.no_equal
  have hbehind : behind '=' item.line = item.value := behind_append _ hkey.no_equal
  have hword : nextWord none item.key = item.key :=
    IsWord.nextWord ⟨hkey.ne_nil, hkey.no_space⟩
  have hcut : cutAtEol item.value = item.value := by
    simp [cutAtEol, hvalue.no_cr, hvalue.no_lf]
  have htrim : trimEnd item.value = item.value := by
    apply rdropWhile_eq_self_iff.mpr
    intro hl
    have hlast := hvalue.no_space
    rw [List.getLast?_eq_some_getLast hl] at hlast
    simpa using hlast
  have hmem : '=' ∈ item.line := by simp [LpItem.line]
  simp [parseLine, hfirst, hnocomment, parseEntry, hmem, hbefore, hbehind, hword,
    hcut, htrim, hkey.ne_nil, hvalue.ne_nil]

variable (st : LpConfig × Option CString)

/-- Lines, one after the other. -/
def LpConfig.parseLines (lines : List CString) : LpConfig × Option CString :=
  lines.foldl (fun st l => st.1.parseLine l st.2) st

@[simp] theorem LpConfig.parseLines_nil : parseLines st [] = st := rfl

@[simp] theorem LpConfig.parseLines_cons (l : CString) (lines : List CString) :
    parseLines st (l :: lines) = parseLines (st.1.parseLine l st.2) lines := rfl

@[simp] theorem LpConfig.parseLines_append
    (lines lines' : List CString) : parseLines st (lines ++ lines') =
      parseLines (parseLines st lines) lines' := foldl_append

/-! ### The lines of a section -/

theorem LpConfig.updateSection_last {done : List LpSection}
    (hlc : lc.sections = done ++ [sec]) (hnew : ∀ s ∈ done, s.name ≠ sec.name)
    (f : LpSection → LpSection) :
    lc.updateSection sec.name f = { lc with sections := done ++ [f sec] } := by
  have hlist : (done ++ [sec]).replaceF (fun s => if s.name = sec.name then some (f s) else none) =
      done ++ [f sec] := by
    clear hlc
    induction done with
    | nil => simp
    | cons s done ih =>
      obtain ⟨hs, hrest⟩ := forall_mem_cons.mp hnew
      simp [hs, ih hrest]
  unfold updateSection
  rw [hlc, hlist]

theorem LpSection.putEntry_of_new {key : CString} (value : CString)
    (hnew : ∀ item ∈ sec.items, item.key ≠ key) :
    sec.putEntry key value = sec.addItem ⟨key, value, false⟩ := by
  have hnone : sec.findItem key = none := by
    apply List.find?_eq_none.mpr
    intro item hm
    simp [LpItem.hasKey, hnew item hm]
  simp [putEntry, hnone]

theorem LpConfig.parseLines_items (items : List LpItem) (lc : LpConfig) (done : List LpSection)
    (sec : LpSection) (hlc : lc.sections = done ++ [sec])
    (hname : ∀ s ∈ done, s.name ≠ sec.name) (hitems : ∀ item ∈ items, item.Plain)
    (hkeys : ((sec.items ++ items).map LpItem.key).Nodup) :
    parseLines (lc, some sec.name) (items.map LpItem.line) =
      ({ lc with sections := done ++ [{ sec with items := sec.items ++ items }] },
        some sec.name) := by
  induction items generalizing lc sec with
  | nil =>
    rw [append_nil, ← hlc]
    rfl
  | cons item items ih =>
    obtain ⟨hitem, hrest⟩ := forall_mem_cons.mp hitems
    have hnew : ∀ i ∈ sec.items, i.key ≠ item.key := by
      rw [map_append, nodup_append] at hkeys
      intro i hi
      exact hkeys.2.2 i.key (mem_map_of_mem hi) item.key (by simp)
    have hput : sec.putEntry item.key item.value = sec.addItem item := by
      rw [putEntry_of_new _ hnew, ← hitem.entry]
    have hstep : lc.parseLine item.line (some sec.name) =
        ({ lc with sections := done ++ [sec.addItem item] }, some (sec.addItem item).name) := by
      rw [parseLine_item hitem, updateSection_last hlc hname, hput]
      rfl
    have hih := ih { lc with sections := done ++ [sec.addItem item] } (sec.addItem item) rfl
      hname hrest (by simpa [LpSection.addItem] using hkeys)
    rw [map_cons, parseLines_cons, hstep, hih]
    simp [LpSection.addItem]

theorem LpConfig.parseLines_section (hsec : sec.Plain)
    (hnew : ∀ s ∈ lc.sections, s.name ≠ sec.name) (cur : Option CString) :
    parseLines (lc, cur) sec.lines =
      ({ lc with sections := lc.sections ++ [sec] }, some sec.name) := by
  have hnone : lc.findSection sec.name = none := by
    apply List.find?_eq_none.mpr
    intro s hs
    simpa using hnew s hs
  have hitems := parseLines_items sec.items (lc.addSection { name := sec.name })
    lc.sections { name := sec.name } rfl hnew hsec.items hsec.keys
  have hwhole : ({ name := sec.name, items := [] ++ sec.items } : LpSection) = sec := by
    rw [nil_append, ← hsec.params]
  rw [hwhole] at hitems
  rw [lines, cons_append, parseLines_cons,
    parseLine_head hsec.name hnone, parseLines_append, hitems]
  rfl

theorem LpConfig.parseLines_sections (sections : List LpSection) (lc : LpConfig)
    (cur : Option CString) (h : Plain sections)
    (hnew : ∀ s ∈ lc.sections, ∀ sec ∈ sections, s.name ≠ sec.name) :
    (parseLines (lc, cur) (sections.flatMap lines)).1 =
      { lc with sections := lc.sections ++ sections } := by
  induction sections generalizing lc cur with
  | nil => simp [parseLines]
  | cons sec sections ih =>
    obtain ⟨hsec, hrest⟩ := forall_mem_cons.mp h.each
    obtain ⟨hfresh, hnames⟩ := nodup_cons.mp h.names
    have hstep := parseLines_section hsec (fun s hs => hnew s hs sec (by simp)) cur
    have hih := ih { lc with sections := lc.sections ++ [sec] } (some sec.name) ⟨hrest, hnames⟩ (by
      intro s hs other hother
      rcases mem_append.mp hs with hs | hs
      · exact hnew s hs other (by simp [hother])
      · rw [mem_singleton.mp hs]
        rintro heq
        exact hfresh (mem_map.mpr ⟨other, hother, heq.symm⟩))
    rw [flatMap_cons, parseLines_append, hstep, hih]
    simp

/-! ### The reader -/

/-- A line the reader can take in one piece. -/
structure IsLine (l : CString) : Prop where
  no_cr : '\r' ∉ l
  no_lf : '\n' ∉ l
  no_nul : nul ∉ l
  short : l.length < maxLen - 1

theorem eolIndex_line {l : CString} (hl : IsLine l) (rest : List Char) :
    eolIndex ((l ++ '\n' :: rest).takeWhile (· ≠ nul)) = some l.length ∧
      ((l ++ '\n' :: rest).set l.length nul).takeWhile (· ≠ nul) = l := by
  have hnul : ∀ c ∈ l, decide (c ≠ nul) = true := by
    intro c hc
    simpa using ne_of_mem_of_not_mem hc hl.no_nul
  constructor
  · have htake : (l ++ '\n' :: rest).takeWhile (· ≠ nul) =
        l ++ '\n' :: rest.takeWhile (· ≠ nul) := by
      rw [takeWhile_append_of_pos hnul, takeWhile_cons_of_pos (by decide)]
    have hnone : l.findIdx? (fun c => c = '\r' ∨ c = '\n') = none := by
      apply List.findIdx?_eq_none_iff.mpr
      intro c hc
      simpa using ⟨ne_of_mem_of_not_mem hc hl.no_cr, ne_of_mem_of_not_mem hc hl.no_lf⟩
    unfold eolIndex
    rw [htake, List.findIdx?_append, hnone]
    simp [List.findIdx?_cons]
  · rw [set_append_right _ _ (Nat.le_refl _), Nat.sub_self, set_cons_zero,
      takeWhile_append_of_pos hnul, takeWhile_cons_of_neg (by simp), append_nil]

/-- One turn of the reader: it shows the next line and stands in front of the one behind it, or
of the one behind an empty one. -/
theorem LineReader.getLine_line {r : LineReader} {file : List Char} {l : CString}
    {rest : List CString} (hl : IsLine l) (hrest : ∀ l' ∈ rest, IsLine l')
    (hbuf : r.buffer.length = maxLen) (hfile : file.drop r.offset = unlines (l :: rest)) :
    (r.getLine file).1 ≠ 0 ∧ (r.getLine file).2.line = l ∧
      (r.getLine file).2.buffer.length = maxLen ∧
      ∃ rest', file.drop (r.getLine file).2.offset = unlines rest' ∧
        (rest' = rest ∨ rest = [] :: rest') := by
  have hmax : maxLen = 16384 := rfl
  have hshort := hl.short
  have hunlines : file.drop r.offset = l ++ '\n' :: unlines rest := by
    simpa [unlines] using hfile
  -- how much of the next lines is read now, and what is still there from before
  let k := maxLen - 1 - (l.length + 1)
  let old := (r.buffer.set (maxLen - 1) nul).drop (l.length + 1 + ((unlines rest).take k).length)
  have hchunk : (file.drop r.offset).take (maxLen - 1) = l ++ '\n' :: (unlines rest).take k := by
    rw [hunlines, take_append, take_of_length_le (by omega)]
    have hsucc : maxLen - 1 - l.length = k + 1 := by omega
    rw [hsucc, take_succ_cons]
  have hold : (r.buffer.set (maxLen - 1) nul).drop (l ++ '\n' :: (unlines rest).take k).length =
      old := by
    simp [old, Nat.add_assoc, Nat.add_comm]
  have hs : l ++ '\n' :: (unlines rest).take k ++ old =
      l ++ '\n' :: ((unlines rest).take k ++ old) := by simp
  obtain ⟨hindex, hline⟩ := eolIndex_line hl ((unlines rest).take k ++ old)
  have hnext : (l ++ '\n' :: ((unlines rest).take k ++ old))[l.length + 1]? =
      ((unlines rest).take k ++ old)[0]? := by
    rw [List.getElem?_append_right (by omega), Nat.add_sub_cancel_left, List.getElem?_cons_succ]
  have hget : r.getLine file =
      (if ((unlines rest).take k ++ old)[0]? = some '\n' then l.length + 2 else l.length + 1,
        { offset := r.offset + if ((unlines rest).take k ++ old)[0]? = some '\n' then l.length + 2
            else l.length + 1,
          buffer := (l ++ '\n' :: ((unlines rest).take k ++ old)).set l.length nul }) := by
    unfold LineReader.getLine
    simp only [hchunk, hold, hs, hindex, hnext]
    simp
  have hlen : (l ++ '\n' :: ((unlines rest).take k ++ old)).length = maxLen := by
    have hk : ((unlines rest).take k).length ≤ k := length_take_le _ _
    simp only [length_append, length_cons, old, length_drop, length_set, hbuf]
    omega
  rw [hget]
  refine ⟨?_, hline, by simpa using hlen, ?_⟩
  · dsimp only
    split <;> omega
  · dsimp only
    split
    · next hnl =>
      cases rest with
      | nil =>
        refine ⟨[], ?_, .inl rfl⟩
        rw [← drop_drop, hunlines]
        simp [unlines]
      | cons l' rest =>
        have hl' : IsLine l' := hrest l' (by simp)
        have hk : k ≠ 0 := by
          -- the last place of the buffer is a terminator
          intro hzero
          have hlast : l.length + 1 = maxLen - 1 := by omega
          have : old[0]? = some nul := by
            simp [old, hzero, hlast, hbuf, hmax]
          simp [hzero, this] at hnl
          exact absurd hnl (by decide)
        obtain ⟨k', hk'⟩ := Nat.exists_eq_succ_of_ne_zero hk
        have hempty : l' = [] := by
          cases l' with
          | nil => rfl
          | cons c l' =>
            have hc : c = '\n' := by simpa [unlines, hk'] using hnl
            exact absurd (by simp [hc]) hl'.no_lf
        refine ⟨rest, ?_, .inr (by rw [hempty])⟩
        rw [← drop_drop, hunlines, hempty]
        simp [unlines]
    · refine ⟨rest, ?_, .inl rfl⟩
      rw [← drop_drop, hunlines]
      simp

theorem LpConfig.parseFrom_lines (file : List Char) (n : Nat) (lines : List CString)
    (r : LineReader) (st : LpConfig × Option CString) (hlines : ∀ l ∈ lines, IsLine l)
    (hbuf : r.buffer.length = maxLen) (hfile : file.drop r.offset = unlines lines)
    (hn : lines.length < n) :
    parseFrom file n r st = (parseLines st lines).1 := by
  induction n generalizing lines r st with
  | zero => omega
  | succ n ih =>
    rw [parseFrom]
    cases lines with
    | nil =>
      have hend : (r.getLine file).1 = 0 := by
        unfold LineReader.getLine
        simp [hfile, unlines]
      simp [hend]
    | cons l rest =>
      obtain ⟨hl, hrest⟩ := forall_mem_cons.mp hlines
      obtain ⟨hsize, hline, hbuf', rest', hfile', hskip⟩ :=
        LineReader.getLine_line hl hrest hbuf hfile
      simp only [if_neg hsize, hline]
      rcases hskip with rfl | rfl
      · exact ih rest' _ _ hrest hbuf' hfile' (by simpa using hn)
      · exact ih rest' _ _ (fun l' hl' => hrest l' (by simp [hl'])) hbuf' hfile'
          (by simp at hn; omega)

theorem LpConfig.parse_unlines (lc : LpConfig) {lines : List CString}
    (hlines : ∀ l ∈ lines, IsLine l) :
    lc.parse (unlines lines) = (parseLines (lc, none) lines).1 := by
  apply parseFrom_lines _ _ lines _ _ hlines (length_replicate ..) rfl
  have hle : lines.length ≤ (unlines lines).length := by
    clear hlines
    induction lines with
    | nil => simp [unlines]
    | cons l lines ih =>
      simp only [unlines, flatMap_cons, length_append, length_cons] at ih ⊢
      omega
  omega

/-! ### What `linphone_config_set_string` builds -/

/-- A call of `linphone_config_set_string` with a value. -/
structure SetCall where
  sectionName : CString
  key : CString
  value : CString
  deriving DecidableEq, Repr

/-- The configuration that calls build from an empty one. -/
def built (calls : List SetCall) : LpConfig :=
  calls.foldl (fun lc c => lc.setString c.sectionName c.key (some c.value)) {}

/-- A call whose section, key and value can be written. -/
structure SetCall.Writable (c : SetCall) : Prop where
  sectionName : IsSectionName c.sectionName
  key : IsKey c.key
  value : IsValue c.value

theorem LpSection.Plain.addItem (h : sec.Plain) {item : LpItem} (hitem : item.Plain)
    (hnew : sec.findItem item.key = none) : (sec.addItem item).Plain := by
  refine ⟨h.name, ?_, ?_, h.params⟩
  · intro i hi
    rcases mem_append.mp hi with hi | hi
    · exact h.items i hi
    · rw [mem_singleton.mp hi]
      exact hitem
  · simp only [LpSection.addItem, map_append, map_cons, map_nil]
    apply nodup_append.mpr
    refine ⟨h.keys, nodup_singleton _, ?_⟩
    intro k hk k' hk' heq
    obtain ⟨i, hi, rfl⟩ := mem_map.mp hk
    have hnot := List.find?_eq_none.mp hnew i hi
    rw [mem_singleton.mp hk'] at heq
    simp [LpItem.hasKey, (h.items i hi).entry, heq] at hnot

theorem LpSection.Plain.setItemValue (h : sec.Plain) (key : CString) {value : CString}
    (hvalue : IsValue value) : (sec.setItemValue key value).Plain := by
  refine ⟨h.name, ?_, ?_, h.params⟩
  · intro i hi
    rcases mem_replaceF hi with hi | ⟨j, hj, -, rfl⟩
    · exact h.items i hi
    · exact ⟨(h.items j hj).key, hvalue, (h.items j hj).entry⟩
  · have hkeys : (sec.setItemValue key value).items.map LpItem.key = sec.items.map LpItem.key :=
      map_replaceF (f := fun i : LpItem => { i with value := value }) (fun _ => rfl) sec.items
    rw [hkeys]
    exact h.keys

theorem Plain.updateSection (h : Plain lc.sections) {name : CString}
    {f : LpSection → LpSection} (hname : ∀ s, (f s).name = s.name)
    (hf : ∀ s ∈ lc.sections, s.name = name → (f s).Plain) :
    Plain (lc.updateSection name f).sections := by
  constructor
  · intro s hs
    rcases mem_replaceF hs with hs | ⟨t, ht, hn, rfl⟩
    · exact h.each s hs
    · exact hf t ht hn
  · have hnames : (lc.updateSection name f).sections.map LpSection.name =
        lc.sections.map LpSection.name := map_replaceF hname lc.sections
    rw [hnames]
    exact h.names

theorem Plain.eq_of_name {sections : List LpSection} (h : Plain sections) {s s' : LpSection}
    (hs : s ∈ sections) (hs' : s' ∈ sections) (hname : s.name = s'.name) : s = s' :=
  inj_on_of_nodup_map h.names hs hs' hname

theorem Plain.setString (h : Plain lc.sections) {c : SetCall} (hc : c.Writable) :
    Plain (lc.setString c.sectionName c.key (some c.value)).sections := by
  have hgiven : given (some c.value) = some c.value := by
    simp [given, Option.filter, hc.value.ne_nil]
  have hitem : LpItem.Plain ⟨c.key, c.value, false⟩ := ⟨hc.key, hc.value, rfl⟩
  unfold LpConfig.setString
  rw [hgiven]
  cases hsec : lc.findSection c.sectionName with
  | none =>
    have hnew : ∀ s ∈ lc.sections, s.name ≠ c.sectionName := by
      intro s hs
      simpa using List.find?_eq_none.mp hsec s hs
    constructor
    · intro s hs
      rcases mem_append.mp hs with hs | hs
      · exact h.each s hs
      · rw [mem_singleton.mp hs]
        exact ⟨hc.sectionName, by simpa using hitem, by simp, rfl⟩
    · simp only [addSection, map_append, map_cons, map_nil]
      apply nodup_append.mpr
      refine ⟨h.names, nodup_singleton _, ?_⟩
      intro n hn n' hn' heq
      obtain ⟨s, hs, rfl⟩ := mem_map.mp hn
      exact hnew s hs (by simpa [heq] using hn')
  | some sec =>
    have hmem : sec ∈ lc.sections := mem_of_find?_eq_some hsec
    have hname : sec.name = c.sectionName := by simpa using List.find?_some hsec
    have hsame : ∀ s ∈ lc.sections, s.name = c.sectionName → s = sec := by
      intro s hs hn
      exact h.eq_of_name hs hmem (hn.trans hname.symm)
    dsimp only
    cases hfind : sec.findItem c.key with
    | none =>
      apply h.updateSection (f := (·.addItem ⟨c.key, c.value, false⟩)) (fun _ => rfl)
      intro s hs hn
      rw [hsame s hs hn]
      exact (h.each sec hmem).addItem hitem hfind
    | some item =>
      dsimp only
      split
      · exact h
      · apply h.updateSection (f := (·.setItemValue c.key c.value)) (fun _ => rfl)
        intro s hs hn
        exact (h.each s hs).setItemValue c.key hc.value

theorem plain_built {calls : List SetCall} (h : ∀ c ∈ calls, c.Writable) :
    Plain (built calls).sections := by
  have hfrom : ∀ (calls : List SetCall) (lc : LpConfig), (∀ c ∈ calls, c.Writable) →
      Plain lc.sections → Plain (calls.foldl (fun lc c =>
        lc.setString c.sectionName c.key (some c.value)) lc).sections := by
    intro calls
    induction calls with
    | nil => exact fun _ _ h => h
    | cons c calls ih =>
      intro lc hcalls hlc
      obtain ⟨hc, hrest⟩ := forall_mem_cons.mp hcalls
      exact ih _ hrest (hlc.setString hc)
  exact hfrom calls {} h ⟨by simp, by simp⟩

/-- The file of a configuration: its sections, one after the other. -/
def LpConfig.file (lc : LpConfig) : List Char := lc.sections.flatMap write

/-- Every line that is written is shorter than what the reader takes at once. -/
def LpConfig.ShortLines (lc : LpConfig) : Prop :=
  ∀ sec ∈ lc.sections, ∀ l ∈ sec.lines, l.length < maxLen - 1

instance (lc : LpConfig) : Decidable lc.ShortLines :=
  inferInstanceAs (Decidable (∀ sec ∈ lc.sections, ∀ l ∈ sec.lines, l.length < maxLen - 1))

theorem LpSection.Plain.isLine (h : sec.Plain) {l : CString} (hl : l ∈ sec.lines)
    (hshort : l.length < maxLen - 1) : IsLine l := by
  have hno : ∀ w : CString, (∀ c ∈ w, isSpace c = false) → '\r' ∉ w ∧ '\n' ∉ w := by
    intro w hw
    exact ⟨fun hm => absurd (hw _ hm) (by decide), fun hm => absurd (hw _ hm) (by decide)⟩
  rw [lines, cons_append, mem_cons, mem_append, mem_map, mem_singleton] at hl
  rcases hl with rfl | ⟨item, hi, rfl⟩ | rfl
  · obtain ⟨hcr, hlf⟩ := hno sec.name h.name.no_space
    have hnul := h.name.no_nul
    constructor
    · simpa [headLine] using hcr
    · simpa [headLine] using hlf
    · simpa [headLine, nul] using hnul
    · exact hshort
  · have hitem := h.items item hi
    obtain ⟨hcr, hlf⟩ := hno item.key hitem.key.no_space
    constructor
    · simp [LpItem.line, hcr, hitem.value.no_cr]
    · simp [LpItem.line, hlf, hitem.value.no_lf]
    · have hnul := hitem.key.no_nul
      have hnul' := hitem.value.no_nul
      simp only [LpItem.line, mem_append, mem_cons, not_or]
      exact ⟨hnul, by decide, hnul'⟩
    · exact hshort
  · exact ⟨by simp, by simp, by simp, hshort⟩

theorem Plain.parse_file (h : Plain lc.sections) (hshort : lc.ShortLines) :
    (parse {} lc.file).sections = lc.sections := by
  have hfile : lc.file = unlines (lc.sections.flatMap lines) := by
    unfold file unlines
    rw [flatMap_assoc]
    apply flatMap_congr
    intro sec hsec
    exact (h.each sec hsec).write_eq
  rw [hfile, parse_unlines]
  · rw [parseLines_sections lc.sections {} none h (by simp)]
    simp
  · intro l hl
    obtain ⟨sec, hsec, hl⟩ := mem_flatMap.mp hl
    exact (h.each sec hsec).isLine hl (hshort sec hsec l hl)

theorem LpConfig.getString_congr {lc' : LpConfig} (h : lc.sections = lc'.sections)
    (section' key : CString) (default : Option CString) :
    lc.getString section' key default = lc'.getString section' key default := by
  unfold getString findSection
  rw [h]

/-- What writable calls built is the same after it was written and read back, section by section
and item by item, and every lookup finds the same. -/
theorem built_readBack (calls : List SetCall) (hcalls : ∀ c ∈ calls, c.Writable)
    (hshort : (built calls).ShortLines) :
    (parse {} (built calls).file).sections = (built calls).sections ∧
      ∀ section' key default, (parse {} (built calls).file).getString section' key default =
        (built calls).getString section' key default := by
  have hsame := (plain_built hcalls).parse_file hshort
  exact ⟨hsame, getString_congr hsame⟩

theorem spaceless_of_any {s : CString} (h : s.any isSpace = false) :
    ∀ c ∈ s, isSpace c = false := by
  simpa using h

/-- Two sections, a value with brackets and one that starts with a space. -/
theorem built_readBack_sample :
    let calls : List SetCall := [⟨"net".toList, "mtu".toList, "1300".toList⟩,
      ⟨"sip".toList, "contact".toList, "[::1]=x".toList⟩,
      ⟨"net".toList, "note".toList, " a;b".toList⟩]
    (parse {} (built calls).file).sections = (built calls).sections ∧
      ∀ section' key default, (parse {} (built calls).file).getString section' key default =
        (built calls).getString section' key default := by
  apply built_readBack
  · intro c hc
    simp only [mem_cons, not_mem_nil, or_false] at hc
    rcases hc with rfl | rfl | rfl
    all_goals exact ⟨⟨by decide, spaceless_of_any (by decide), by decide, by decide⟩,
      ⟨by decide, spaceless_of_any (by decide), by decide, by decide, by decide, by decide⟩,
      ⟨by decide, by decide, by decide, by decide, by decide⟩⟩
  · decide

/-- An entry of a section without a name is lost on the way, and so is one without a key: the
parser asks for a word in both places. -/
theorem built_unnamed_lost :
    (parse {} (built [⟨[], "mtu".toList, "1300".toList⟩]).file).sections = [] ∧
      (built [⟨[], "mtu".toList, "1300".toList⟩]).sections =
        [⟨[], [⟨"mtu".toList, "1300".toList, false⟩], []⟩] ∧
      (parse {} (built [⟨"net".toList, [], "1300".toList⟩]).file).sections =
        [⟨"net".toList, [], []⟩] ∧ (built [⟨"net".toList, [], "1300".toList⟩]).sections =
        [⟨"net".toList, [⟨[], "1300".toList, false⟩], []⟩] := by
  decide

end GrooveIp.Config
