import ScriptLex.Command.Settings
import ScriptLex.Files.Tree

/-!
# Files and configurations read back

A file that was written is found again under its path with the text that was
written, and every directory is still one. Loading a configuration looks at
files and changes none.
-/

namespace ScriptLex

-- ---------------------------------------------------------------------------
-- Entries
-- ---------------------------------------------------------------------------

namespace Entry

theorem lookup_filter_of_ne {entries : List (String × Entry)} {name other : String}
    (h : other ≠ name) :
    (entries.filter (·.1 ≠ name)).lookup other = entries.lookup other := by
  induction entries with
  | nil => rfl
  | cons entry entries ih =>
    obtain ⟨key, e⟩ := entry
    by_cases hkey : key = name
    · subst hkey
      simpa [List.lookup_cons, beq_eq_false_iff_ne.mpr h] using ih
    · simp only [List.filter_cons, hkey, ne_eq, not_false_eq_true, decide_true, if_true,
        List.lookup_cons, ih]

theorem find?_put (e : Entry) (names : List String) (new : Entry) :
    (e.put names new).find? names = some new := by
  induction names generalizing e with
  | nil => rfl
  | cons name names ih => simp [put, find?, ih]

theorem find?_put_of_ne {name other : String} (h : other ≠ name) (more names : List String)
    (new : Entry) (entries : List (String × Entry)) :
    ((directory entries).put (name :: names) new).find? (other :: more) =
      (directory entries).find? (other :: more) := by
  simp only [put, find?, List.lookup_cons, beq_eq_false_iff_ne.mpr h, lookup_filter_of_ne h]

theorem exists_directory_put {e : Entry} {location target : List String}
    (hdirectory : e.find? location = some (directory entries))
    (htarget : ∀ entries, e.find? target ≠ some (directory entries)) (new : Entry) :
    ∃ entries, (e.put target new).find? location = some (directory entries) := by
  induction location generalizing e target with
  | nil =>
    obtain rfl : e = directory entries := Option.some.inj hdirectory
    cases target with
    | nil => exact absurd rfl (htarget entries)
    | cons name names => exact ⟨_, rfl⟩
  | cons name location ih =>
    cases e with
    | file => contradiction
    | directory inner =>
      cases target with
      | nil => exact absurd rfl (htarget inner)
      | cons other target =>
        by_cases hname : name = other
        · subst hname
          obtain ⟨below, hbelow, hfound⟩ := Option.bind_eq_some_iff.mp hdirectory
          have hfree : ∀ entries, below.find? target ≠ some (directory entries) := by
            intro entries h
            exact htarget entries (by rw [find?, hbelow, Option.bind_some, h])
          simpa [put, find?, hbelow] using ih hfound hfree
        · rw [find?_put_of_ne hname]
          exact ⟨entries, hdirectory⟩

end Entry

-- ---------------------------------------------------------------------------
-- Paths before and after a change
-- ---------------------------------------------------------------------------

namespace FileTree

variable {t changed : FileTree}

theorem follow_put {root : Entry} {target : List String}
    (htarget : ∀ entries, root.find? target ≠ some (.directory entries)) (new : Entry)
    (h : follow root location names = .ok there) :
    follow (root.put target new) location names = .ok there := by
  induction names generalizing location with
  | nil => exact h
  | cons name names ih =>
    rw [follow] at h ⊢
    cases hfound : root.find? location with
    | none => simp [hfound] at h
    | some e =>
      cases e with
      | file => simp [hfound] at h
      | directory entries =>
        obtain ⟨entries, hdirectory⟩ := Entry.exists_directory_put hfound htarget new
        simp only [hfound] at h
        simp only [hdirectory]
        split
        · next hdot => rw [if_pos hdot] at h; exact ih h
        next hdot =>
        rw [if_neg hdot] at h
        split
        · next hdots => rw [if_pos hdots] at h; exact ih h
        next hdots =>
        rw [if_neg hdots] at h
        split
        · next hlong => rw [if_pos hlong] at h; contradiction
        · next hlong => rw [if_neg hlong] at h; exact ih h

theorem locate_put (h : t.locate path = .ok location)
    (htarget : ∀ entries, t.root.find? target ≠ some (.directory entries)) (new : Entry) :
    ({ t with root := t.root.put target new } : FileTree).locate path = .ok location := by
  have hstart : start { t with root := t.root.put target new } path = t.start path := rfl
  rw [locate, hstart]
  rw [locate] at h
  cases hbegin : t.start path with
  | error e => rw [hbegin] at h; contradiction
  | ok begin =>
    rw [hbegin] at h
    exact follow_put htarget new h

/-- A file may be written there: the path leads somewhere and no directory is in the way. -/
def Fits (t : FileTree) (path : String) (location : List String) : Prop :=
  Path.endsInSlash path = false ∧ t.locate path = .ok location ∧
    ∀ entries, t.root.find? location ≠ some (.directory entries)

def withText (t : FileTree) (location : List String) (text : String) : FileTree :=
  { t with root := t.root.put location (.file (.text text)) }

theorem Fits.writeText_eq (h : t.Fits path location) (text : String) :
    t.writeText path text = .ok (t.withText location text) := by
  obtain ⟨hslash, hlocate, hfree⟩ := h
  simp only [writeText, hslash, Bool.false_eq_true, if_false, hlocate]
  cases hfound : t.root.find? location with
  | none => simp [bind, Except.bind, hfound, withText]
  | some e =>
    cases e with
    | file => simp [bind, Except.bind, hfound, withText]
    | directory entries => exact absurd hfound (hfree entries)

theorem fits_of_writeText (h : t.writeText path text = .ok changed) :
    ∃ location, t.Fits path location := by
  rw [writeText] at h
  split at h
  · cases hstart : t.start path with
    | error e => simp [hstart, bind, Except.bind] at h
    | ok begin =>
      simp only [hstart, bind, Except.bind] at h
      cases hfollow : follow t.root begin ((Path.names path).dropLast ++ ["."]) <;>
        rw [hfollow] at h <;> cases h
  next hslash =>
  cases hlocate : t.locate path with
  | error e => simp [hlocate, bind, Except.bind] at h
  | ok location =>
    refine ⟨location, by simpa using hslash, hlocate, ?_⟩
    intro entries hfound
    simp [hlocate, hfound, bind, Except.bind] at h

theorem Fits.readText_withText (h : t.Fits path location) (text : String) :
    (t.withText location text).readText path = .ok text := by
  obtain ⟨hslash, hlocate, hfree⟩ := h
  have hentry : (t.withText location text).entry path = .ok (.file (.text text)) := by
    simp [entry, withText, locate_put hlocate hfree, bind, Except.bind, Entry.find?_put, hslash]
  rw [readText, hentry]
  rfl

theorem pathExists_of_readText (h : t.readText path = .ok text) : t.pathExists path = true := by
  cases hentry : t.entry path with
  | error e => simp [readText, hentry, bind, Except.bind] at h
  | ok e => simp [pathExists, hentry, Except.toBool]

end FileTree

-- ---------------------------------------------------------------------------
-- Saving
-- ---------------------------------------------------------------------------

namespace FileAccess

variable {t tree after : FileTree}

inductive MadeAbove (tree : FileTree) (path : String) : FileTree → Prop where
  | nothing (hparents : Path.parents path = []) : MadeAbove tree path tree
  | directories (hparents : Path.parents path = parent :: above)
      (hmade : (makeDirectories (m := StateM FileTree) parent above).run tree = (.ok (), made)) :
      MadeAbove tree path made

/-- The path can be written: with the directories above it made, a file fits there. -/
def Writable (tree : FileTree) (path : String) : Prop :=
  ∃ made location, MadeAbove tree path made ∧ made.Fits path location

theorem run_writeText (h : t.Fits path location) (text : String) :
    (writeText (m := StateM FileTree) path text).run t =
      (.ok (), t.withText location text) := by
  change FileTree.change (·.writeText path text) t = _
  rw [FileTree.change, h.writeText_eq]

theorem fits_of_run_writeText
    (h : (writeText (m := StateM FileTree) path text).run t = (.ok (), after)) :
    ∃ location, t.Fits path location := by
  cases hwrite : t.writeText path text with
  | ok changed => exact FileTree.fits_of_writeText hwrite
  | error e =>
    change FileTree.change (·.writeText path text) t = _ at h
    rw [FileTree.change, hwrite] at h
    cases h

theorem MadeAbove.run_save {made : FileTree} (h : MadeAbove tree path made) (text : String) :
    (save (m := StateM FileTree) path text).run tree =
      (writeText (m := StateM FileTree) path text).run made := by
  cases h with
  | nothing hparents => rw [save, hparents]; rfl
  | directories hparents hmade =>
    rw [save, hparents]
    simp only [StateT.run_bind, hmade]
    rfl

theorem madeAbove_of_save
    (h : (save (m := StateM FileTree) path text).run tree = (.ok (), after)) :
    ∃ made, MadeAbove tree path made := by
  cases hparents : Path.parents path with
  | nil => exact ⟨tree, .nothing hparents⟩
  | cons parent above =>
    rcases hmade : (makeDirectories (m := StateM FileTree) parent above).run tree with
      ⟨result, made⟩
    cases result with
    | ok => exact ⟨made, .directories hparents hmade⟩
    | error e =>
      rw [save, hparents, StateT.run_bind, hmade] at h
      cases h

theorem Writable.run_save (h : Writable tree path) (text : String) :
    ∃ after, (save (m := StateM FileTree) path text).run tree = (.ok (), after) ∧
      after.readText path = .ok text := by
  obtain ⟨made, location, hmade, hfits⟩ := h
  exact ⟨_, by rw [hmade.run_save, run_writeText hfits], hfits.readText_withText text⟩

theorem writable_of_save
    (h : (save (m := StateM FileTree) path text).run tree = (.ok (), after)) :
    Writable tree path := by
  obtain ⟨made, hmade⟩ := madeAbove_of_save h
  rw [hmade.run_save] at h
  obtain ⟨location, hfits⟩ := fits_of_run_writeText h
  exact ⟨made, location, hmade, hfits⟩

end FileAccess

-- ---------------------------------------------------------------------------
-- Loading
-- ---------------------------------------------------------------------------

namespace Config

variable {tree : FileTree}

theorem run_pathExists (path : String) (tree : FileTree) :
    (FileAccess.pathExists (m := StateM FileTree) path).run tree =
      pure (tree.pathExists path, tree) := rfl

theorem run_readText (path : String) (tree : FileTree) :
    (FileAccess.readText (m := StateM FileTree) path).run tree =
      pure (tree.readText path, tree) := rfl

theorem run_loadFrom (hread : tree.readText path = .ok text) (hparse : parse? text = some config) :
    (loadFrom (m := StateM FileTree) path).run tree = (.ok config, tree) := by
  simp only [loadFrom, StateT.run_bind, run_pathExists, pure_bind,
    FileTree.pathExists_of_readText hread, if_true, run_readText, hread, hparse]
  rfl

theorem loadFrom_keeps (path : String) (tree : FileTree) :
    ((loadFrom (m := StateM FileTree) path).run tree).2 = tree := by
  simp only [loadFrom, StateT.run_bind, run_pathExists, pure_bind]
  cases tree.pathExists path with
  | false => rfl
  | true =>
    simp only [if_true, StateT.run_bind, run_readText, pure_bind]
    cases tree.readText path with
    | error cause => rfl
    | ok text =>
      simp only
      split <;> rfl

theorem loadFirst_keeps (paths : List String) (tree : FileTree) :
    ((loadFirst (m := StateM FileTree) paths).run tree).2 = tree := by
  induction paths with
  | nil => rfl
  | cons path paths ih =>
    simp only [loadFirst, StateT.run_bind, run_pathExists, pure_bind]
    cases tree.pathExists path with
    | false => exact ih
    | true => exact loadFrom_keeps path tree

theorem load_keeps (dirs : UserDirectories) (path? : Option String) (tree : FileTree) :
    ((load (m := StateM FileTree) dirs path?).run tree).2 = tree := by
  cases path? with
  | none => exact loadFirst_keeps _ tree
  | some path => exact loadFrom_keeps path tree

end Config
end ScriptLex
