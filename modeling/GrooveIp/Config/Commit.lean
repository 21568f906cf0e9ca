import GrooveIp.Config.Parsing

/-!
# When a configuration needs a commit

The callers of `linphone_config_sync` skip it while `linphone_config_needs_commit` says `FALSE`.
A run starts where the files were read and goes on with setters and syncs in any order. Beside
the configuration it keeps the content that the last sync, or the reading of the files, left, and
the content that the files really stand for.
-/

namespace GrooveIp.Config

open GrooveIp.Lib GrooveIp.Sal

/-- The operations on a configuration that has a file. -/
inductive LpOp where
  | setString (section' key : CString) (value : Option CString)
  | setStringList (section' key : CString) (value : List CString)
  | setRange (section' key : CString) (minValue maxValue : Int)
  | setInt (section' key : CString) (value : Int)
  | setBool (section' key : CString) (value : Bool)
  | setIntHex (section' key : CString) (value : BitVec 32)
  | setFloat (section' key printed : CString)
  | cleanSection (section' : CString)
  | cleanEntry (section' key : CString)
  | sync (answer : SyncOutcome)
  deriving DecidableEq, Repr

/-- The configuration behind an operation. -/
def LpOp.apply (op : LpOp) (lc : LpConfig) : LpConfig :=
  match op with
  | .setString s k v => lc.setString s k v
  | .setStringList s k v => lc.setStringList s k v
  | .setRange s k lo hi => lc.setRange s k lo hi
  | .setInt s k v => lc.setInt s k v
  | .setBool s k v => lc.setBool s k v
  | .setIntHex s k v => lc.setIntHex s k v
  | .setFloat s k v => lc.setFloat s k v
  | .cleanSection s => lc.cleanSection s
  | .cleanEntry s k => lc.cleanEntry s k
  | .sync answer => (lc.sync answer).config

/-- A configuration with the content that the last sync or the reading of the files left, and the
content that the files stand for. -/
structure Kept where
  config : LpConfig
  left : List LpSection
  stored : List LpSection
  deriving DecidableEq, Repr

/-- The configuration of a file, just read. -/
def Kept.opened (filename : CString) (file factory : Option (List Char)) : Kept :=
  let lc := LpConfig.newWithFactory (some filename) file factory
  ⟨lc, lc.sections, lc.sections⟩

variable {lc : LpConfig} (ops : List LpOp) (s : Kept) {op : LpOp}

/-- One operation. A sync that gets as far as writing leaves what it wrote, in the file only
where the rename succeeds. -/
def Kept.step (op : LpOp) : Kept :=
  match op with
  | .sync answer =>
    let done := s.config.sync answer
    if done.written = none then { s with config := done.config }
    else ⟨done.config, done.config.sections,
      if answer.stored then done.config.sections else s.stored⟩
  | op => { s with config := op.apply s.config }

/-- A run of operations. -/
def Kept.run (ops : List LpOp) : Kept := ops.foldl Kept.step s

/-- Nothing that changed since the last sync is passed over. -/
def Kept.Announced : Prop :=
  s.config.sections ≠ s.left → s.config.needsCommit = true

instance (s : Kept) : Decidable s.Announced := inferInstanceAs (Decidable (_ → _))

/-- Nothing that the file lacks is passed over. -/
def Kept.AnnouncedToFile : Prop :=
  s.config.sections ≠ s.stored → s.config.needsCommit = true

/-- An entry is only removed by `linphone_config_clean_entry` while a commit is due anyway. -/
def LpOp.CarefulAt (op : LpOp) (lc : LpConfig) : Prop :=
  match op with
  | .cleanEntry s k => lc.hasEntry s k = true → lc.needsCommit = true
  | _ => True

/-- No sync loses what it wrote on the way to the file. -/
def LpOp.Stores (op : LpOp) : Prop :=
  match op with
  | .sync answer => answer.opened = true → answer.stored = true
  | _ => True

/-- Every operation of a run is careful where it is carried out. -/
def Careful : List LpOp → Kept → Prop
  | [], _ => True
  | op :: ops, s => op.CarefulAt s.config ∧ Careful ops (s.step op)

/-! ### What an operation does to the flag and the content -/

theorem LpConfig.setString_modified (lc : LpConfig) (section' key : CString)
    (value : Option CString) :
    lc.setString section' key value = lc ∨ (lc.setString section' key value).modified = true := by
  unfold LpConfig.setString
  cases lc.findSection section' with
  | none =>
    right
    cases given value <;> rfl
  | some sec =>
    dsimp only
    cases sec.findItem key with
    | none =>
      right
      cases given value <;> rfl
    | some item =>
      cases given value with
      | none => exact .inr rfl
      | some v =>
        by_cases h : v = item.value
        · exact .inl (if_pos h)
        · right
          simp only [if_neg h]

theorem LpConfig.updateSection_eq_self {name : CString} {f : LpSection → LpSection}
    (h : ∀ sec, lc.findSection name = some sec → f sec = sec) : lc.updateSection name f = lc := by
  have hsections : ∀ l : List LpSection, (∀ sec, l.find? (·.name == name) = some sec → f sec = sec) →
      (l.replaceF fun s => if s.name = name then some (f s) else none) = l := by
    intro l hl
    induction l with
    | nil => rfl
    | cons a l ih =>
      by_cases ha : a.name = name
      · have hfa : f a = a := hl a (by simp [ha])
        simp [ha, hfa]
      · have hrest := ih fun sec hsec => hl sec (by simpa [ha] using hsec)
        simp [ha, hrest]
  unfold LpConfig.updateSection
  rw [hsections lc.sections h]

theorem LpConfig.cleanEntry_of_not_hasEntry {section' key : CString}
    (h : lc.hasEntry section' key = false) : lc.cleanEntry section' key = lc := by
  apply LpConfig.updateSection_eq_self
  intro sec hsec
  have hnone : sec.items.find? (·.hasKey key) = none := by
    simpa [LpConfig.hasEntry, hsec, LpSection.findItem] using h
  have herase : sec.items.eraseP (·.hasKey key) = sec.items :=
    List.eraseP_of_forall_not fun a ha => List.find?_eq_none.mp hnone a ha
  unfold LpSection.removeItem
  rw [herase]

theorem LpOp.apply_cases (hsync : ∀ answer, op ≠ .sync answer)
    (h : op.CarefulAt lc) : op.apply lc = lc ∨ (op.apply lc).needsCommit = true := by
  cases op with
  | setString s k v => exact lc.setString_modified s k v
  | setStringList s k v => exact lc.setString_modified s k _
  | setRange s k lo hi => exact lc.setString_modified s k _
  | setInt s k v => exact lc.setString_modified s k _
  | setBool s k v => cases v <;> exact lc.setString_modified s k _
  | setIntHex s k v => exact lc.setString_modified s k _
  | setFloat s k v => exact lc.setString_modified s k _
  | cleanSection s => exact .inr rfl
  | cleanEntry s k =>
    by_cases hentry : lc.hasEntry s k = true
    · exact .inr (h hentry)
    · left
      exact LpConfig.cleanEntry_of_not_hasEntry (by simpa using hentry)
  | sync answer => exact absurd rfl (hsync answer)

theorem LpConfig.sync_cases (lc : LpConfig) (answer : SyncOutcome) :
    (lc.sync answer).config.sections = lc.sections ∧
      ((lc.sync answer).written = none ∧ (lc.sync answer).config.modified = lc.modified ∨
        (lc.sync answer).written ≠ none ∧ answer.opened = true) := by
  unfold LpConfig.sync
  split
  · exact ⟨rfl, .inl ⟨rfl, rfl⟩⟩
  · split
    · exact ⟨rfl, .inl ⟨rfl, rfl⟩⟩
    · split
      · exact ⟨rfl, .inl ⟨rfl, rfl⟩⟩
      · next hopen => exact ⟨rfl, .inr ⟨by simp, by simpa using hopen⟩⟩

/-! ### Runs -/

/-- What a careful operation does to a kept configuration: it raises the flag, moves nothing, or is
a sync that brings what is remembered up to date. -/
theorem Kept.step_cases {s : Kept} (hop : op.CarefulAt s.config) :
    ((s.step op).left = s.left ∧ (s.step op).stored = s.stored ∧
        ((s.step op).config.needsCommit = true ∨ (s.step op).config.sections = s.config.sections ∧
            (s.step op).config.needsCommit = s.config.needsCommit)) ∨
      ((s.step op).left = (s.step op).config.sections ∧
        (op.Stores → (s.step op).stored = (s.step op).config.sections)) := by
  by_cases hsync : ∃ answer, op = .sync answer
  · obtain ⟨answer, rfl⟩ := hsync
    obtain ⟨hsections, hway⟩ := s.config.sync_cases answer
    rcases hway with ⟨hnone, hflag⟩ | ⟨hsome, hopen⟩
    · left
      have hstep : s.step (.sync answer) = { s with config := (s.config.sync answer).config } :=
        if_pos hnone
      rw [hstep]
      exact ⟨rfl, rfl, .inr ⟨hsections, hflag⟩⟩
    · right
      have hstep : s.step (.sync answer) = ⟨(s.config.sync answer).config,
          (s.config.sync answer).config.sections,
          if answer.stored then (s.config.sync answer).config.sections else s.stored⟩ :=
        if_neg hsome
      rw [hstep]
      refine ⟨rfl, ?_⟩
      intro hstores
      exact if_pos (hstores hopen)
  · left
    have hne : ∀ answer, op ≠ .sync answer := by
      intro answer h
      exact hsync ⟨answer, h⟩
    have hstep : s.step op = { s with config := op.apply s.config } := by
      cases op with
      | sync answer => exact absurd rfl (hne answer)
      | _ => rfl
    rw [hstep]
    refine ⟨rfl, rfl, ?_⟩
    rcases LpOp.apply_cases hne hop with hsame | hflag
    · right
      rw [hsame]
      exact ⟨rfl, rfl⟩
    · exact .inl hflag

theorem Kept.announced_step {s : Kept} (hop : op.CarefulAt s.config)
    (h : s.Announced) : (s.step op).Announced := by
  intro hne
  rcases Kept.step_cases hop with ⟨hleft, -, hflag | ⟨hsections, hsame⟩⟩ | ⟨hleft, -⟩
  · exact hflag
  · rw [hsame]
    apply h
    rw [← hsections, ← hleft]
    exact hne
  · exact absurd hleft.symm hne

theorem Kept.announcedToFile_step {s : Kept} (hop : op.CarefulAt s.config)
    (hstores : op.Stores) (h : s.AnnouncedToFile) : (s.step op).AnnouncedToFile := by
  intro hne
  rcases Kept.step_cases hop with ⟨-, hstored, hflag | ⟨hsections, hsame⟩⟩ | ⟨-, hstored⟩
  · exact hflag
  · rw [hsame]
    apply h
    rw [← hsections, ← hstored]
    exact hne
  · exact absurd (hstored hstores).symm hne

theorem Kept.announced_run (hops : Careful ops s) (h : s.Announced) : (s.run ops).Announced := by
  induction ops generalizing s with
  | nil => exact h
  | cons op ops ih =>
    obtain ⟨hop, hrest⟩ := hops
    exact ih (s.step op) hrest (Kept.announced_step hop h)

theorem Kept.announcedToFile_run (hops : Careful ops s)
    (hstores : ∀ op ∈ ops, op.Stores) (h : s.AnnouncedToFile) : (s.run ops).AnnouncedToFile := by
  induction ops generalizing s with
  | nil => exact h
  | cons op ops ih =>
    obtain ⟨hop, hrest⟩ := hops
    obtain ⟨hstore, hstores⟩ := List.forall_mem_cons.mp hstores
    exact ih (s.step op) hrest hstores (Kept.announcedToFile_step hop hstore h)

/-- The run of a configuration read from its files: while every `linphone_config_clean_entry` that
finds its entry comes when a commit is due, what differs from the last sync is announced, and so is
what differs from the file if no sync failed. -/
theorem Kept.no_change_dropped (filename : CString) (file factory : Option (List Char))
    (ops : List LpOp) (hops : Careful ops (Kept.opened filename file factory)) :
    ((Kept.opened filename file factory).run ops).Announced ∧ ((∀ op ∈ ops, op.Stores) →
        ((Kept.opened filename file factory).run ops).AnnouncedToFile) := by
  constructor
  · apply Kept.announced_run ops _ hops
    intro hne
    exact absurd rfl hne
  · intro hstores
    apply Kept.announcedToFile_run ops _ hops hstores
    intro hne
    exact absurd rfl hne

/-- A run that sets, syncs and cleans with a commit due. -/
theorem Kept.no_change_dropped_sample :
    let ops := [.setString "net".toList "mtu".toList (some "1300".toList), .sync ⟨true, true⟩,
      .setInt "net".toList "port".toList 5060, .cleanEntry "net".toList "mtu".toList]
    ((Kept.opened "linphonerc".toList none none).run ops).Announced ∧ ((∀ op ∈ ops, op.Stores) →
        ((Kept.opened "linphonerc".toList none none).run ops).AnnouncedToFile) :=
  Kept.no_change_dropped "linphonerc".toList none none _
    ⟨trivial, trivial, trivial, fun _ => by decide, trivial⟩

/-- After a set and a sync, removing the entry changes the content and no commit is asked for. -/
theorem Kept.cleanEntry_dropped : ¬ ((Kept.opened "linphonerc".toList none none).run
      [.setString "net".toList "mtu".toList (some "1300".toList), .sync ⟨true, true⟩,
        .cleanEntry "net".toList "mtu".toList]).Announced := by
  decide

end GrooveIp.Config
