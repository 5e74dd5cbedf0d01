import Northwind.Sources.Disk

/-!
# Changes to a tree of directories

`FileOp` lists what a process can do to the tree: publish a file over its name,
write into a file that is there, remove a file, make and remove a directory.
Each gives the directory whose entries it changes, or the file it writes into, a
fresh modification time.

`Disk.Rooted` says that everything hangs below directories and that nothing is
newer than the clock, `Disk.LeadsTo` what the modification times remember: a
directory that is no newer than an earlier tree has the files it had there.
-/

namespace Northwind
namespace Disk

/-- `Path.is_dir`; the root of the file system is one. -/
def isDir (d : Disk) (p : Path) : Bool :=
  p.isEmpty || (d.dirs.lookup p).isSome

/-- Open the file at `p` and write other rows into it. -/
def rewrite (d : Disk) (p : Path) (rows : List Row) : Disk :=
  { d with
    files := d.files.insert p ⟨rows, d.clock + 1⟩
    clock := d.clock + 1 }

/-- Every file and directory lies in a directory, under a name of its own, and
nothing is newer than the clock. -/
structure Rooted (d : Disk) : Prop where
  stamped : d.Stamped
  dirsStamped : ∀ p m, d.dirs.lookup p = some m → m ≤ d.clock
  apart : ∀ p, d.isFile p = true → d.isDir p = false
  below : ∀ p, d.isFile p = true ∨ d.isDir p = true → d.isDir p.parent = true

/-- `now` comes after `past`: what is not newer than `past` is as it was. -/
structure LeadsTo (past now : Disk) : Prop where
  follows : Follows past now
  dirs : ∀ p m, now.dirs.lookup p = some m → m ≤ past.clock →
    past.dirs.lookup p = some m ∧
      ∀ q : Path, q.parent = p → now.isFile q = past.isFile q

theorem LeadsTo.refl (d : Disk) : LeadsTo d d :=
  ⟨Follows.refl d, fun _ _ h _ => ⟨h, fun _ _ => rfl⟩⟩

theorem LeadsTo.trans
    {past between now : Disk}
    (h : LeadsTo past between) (h' : LeadsTo between now) :
    LeadsTo past now := by
  refine ⟨h.follows.trans h'.follows, ?_⟩
  intro p m hlookup hold
  obtain ⟨hbetween, hkept'⟩ := h'.dirs p m hlookup (hold.trans h.follows.clock)
  obtain ⟨hpast, hkept⟩ := h.dirs p m hbetween hold
  exact ⟨hpast, fun q hq => (hkept' q hq).trans (hkept q hq)⟩

theorem Rooted.isFile_of_isDir
    {d : Disk} (h : d.Rooted) {p : Path} (hdir : d.isDir p = true) :
    d.isFile p = false := by
  cases hfile : d.isFile p with
  | false => rfl
  | true =>
      rw [h.apart p hfile] at hdir
      cases hdir

end Disk

/-- A change some process makes to the tree. -/
inductive FileOp where
  /-- Write a temporary file and `os.replace` it over the path. -/
  | replace (path : Path) (rows : List Row)
  | rewrite (path : Path) (rows : List Row)
  | unlink (path : Path)
  | mkdir (path : Path)
  | rmdir (path : Path)

namespace FileOp

/-- The system call succeeds. -/
def Allowed (d : Disk) : FileOp → Prop
  | .replace path _ => path ≠ [] ∧ d.isDir path.parent = true ∧ d.isDir path = false
  | .rewrite path _ => d.isFile path = true
  | .unlink path => d.isFile path = true
  | .mkdir path => path ≠ [] ∧ d.isDir path.parent = true ∧ d.pathExists path = false
  | .rmdir path => path ≠ [] ∧ d.isDir path = true ∧ d.entries path = []

def run (d : Disk) : FileOp → Disk
  | .replace path rows => d.replace path rows
  | .rewrite path rows => d.rewrite path rows
  | .unlink path => d.unlink path
  | .mkdir path => d.mkdir path
  | .rmdir path => d.rmdir path

/-! ## What one change does -/

section Steps

variable {d : Disk} {p q : Path} {rows : List Row}

theorem isDir_insert (dirs : AList (fun _ : Path => Nat)) (m : Nat) :
    ((dirs.insert p m).lookup q).isSome = (decide (q = p) || (dirs.lookup q).isSome) := by
  by_cases h : q = p
  · subst h
    simp
  · simp [AList.lookup_insert_ne h, h]

/-- Stamping a directory that is there makes none. -/
theorem isDir_stamp (d : Disk) (m : Nat) (hdir : d.isDir p = true) :
    (q.isEmpty || ((d.dirs.insert p m).lookup q).isSome) = d.isDir q := by
  rw [isDir_insert]
  by_cases h : q = p
  · subst h
    unfold Disk.isDir at hdir
    simp [Disk.isDir, hdir]
  · simp [Disk.isDir, h]

theorem isFile_replace (d : Disk) (p : Path) (rows : List Row) (q : Path) :
    (d.replace p rows).isFile q = (decide (q = p) || d.isFile q) := by
  by_cases h : q = p
  · subst h
    simp
  · simp [Disk.read_replace_of_ne d rows h, h]

theorem isDir_replace (d : Disk) (rows : List Row) (hdir : d.isDir p.parent = true) :
    (d.replace p rows).isDir q = d.isDir q :=
  isDir_stamp d (d.clock + 1) hdir

theorem isFile_rewrite (d : Disk) (rows : List Row) (hfile : d.isFile p = true) :
    (d.rewrite p rows).isFile q = d.isFile q := by
  by_cases h : q = p
  · subst h
    rw [hfile]
    simp [Disk.isFile, Disk.rewrite]
  · simp [Disk.isFile, Disk.rewrite, AList.lookup_insert_ne h]

theorem isFile_unlink (d : Disk) (p q : Path) :
    (d.unlink p).isFile q = (decide (q ≠ p) && d.isFile q) := by
  by_cases h : q = p
  · subst h
    simp
  · simp [Disk.read_unlink_of_ne d h, h]

theorem isDir_unlink (d : Disk) (hdir : d.isDir p.parent = true) :
    (d.unlink p).isDir q = d.isDir q :=
  isDir_stamp d (d.clock + 1) hdir

theorem dirs_mkdir (h : d.pathExists p = false) :
    d.mkdir p =
      { d with
        dirs := (d.dirs.insert p (d.clock + 1)).insert p.parent (d.clock + 1)
        clock := d.clock + 1 } := by
  unfold Disk.pathExists at h
  simp only [Bool.or_eq_false_iff] at h
  unfold Disk.mkdir
  rw [h.1.2]
  simp

theorem isFile_mkdir (d : Disk) (p q : Path) : (d.mkdir p).isFile q = d.isFile q := by
  rw [Disk.isFile_eq_read, Disk.isFile_eq_read, Disk.read_mkdir]

theorem isDir_mkdir (hdir : d.isDir p.parent = true) (h : d.pathExists p = false) :
    (d.mkdir p).isDir q = (decide (q = p) || d.isDir q) := by
  rw [dirs_mkdir h]
  unfold Disk.isDir at hdir ⊢
  simp only [isDir_insert]
  by_cases hparent : q = p.parent
  · subst hparent
    simp [hdir]
  · simp [hparent, Bool.or_left_comm]

theorem isDir_rmdir (hne : p ≠ []) (hparent : p.parent ≠ p) (hdir : d.isDir p.parent = true) :
    (d.rmdir p).isDir q = (decide (q ≠ p) && d.isDir q) := by
  unfold Disk.isDir at hdir ⊢
  simp only [Disk.rmdir, isDir_insert]
  by_cases h : q = p
  · subst h
    simp [hne, Ne.symm hparent]
  · by_cases hq : q = p.parent
    · subst hq
      simp [hdir, h]
    · simp [AList.lookup_erase_ne h, h, hq]

end Steps

theorem parent_ne_self {p : Path} (h : p ≠ []) : p.parent ≠ p := by
  intro heq
  have hlength := congrArg List.length heq
  have hpos := List.length_pos_iff.mpr h
  rw [Path.parent, List.length_dropLast] at hlength
  omega

theorem lookup_stamp
    {dirs : AList (fun _ : Path => Nat)} {p q : Path} {m stamp : Nat}
    (h : (dirs.insert p stamp).lookup q = some m) :
    m = stamp ∨ q ≠ p ∧ dirs.lookup q = some m := by
  by_cases heq : q = p
  · subst heq
    rw [AList.lookup_insert] at h
    exact Or.inl (Option.some.inj h).symm
  · rw [AList.lookup_insert_ne heq] at h
    exact Or.inr ⟨heq, h⟩

theorem follows_rewrite (d : Disk) (p : Path) (rows : List Row) :
    Disk.Follows d (d.rewrite p rows) :=
  -- The files are those of a publication; only the directory is not stamped.
  ⟨(Disk.follows_replace d p rows).clock, (Disk.follows_replace d p rows).stamped,
    (Disk.follows_replace d p rows).files⟩

theorem follows_run (d : Disk) (op : FileOp) : Disk.Follows d (op.run d) := by
  cases op with
  | replace p rows => exact Disk.follows_replace d p rows
  | rewrite p rows => exact follows_rewrite d p rows
  | unlink p => exact Disk.follows_unlink d p
  | mkdir p => exact Disk.follows_mkdir d p
  | rmdir p => exact Disk.follows_rmdir d p

theorem clock_run {d : Disk} {op : FileOp} (h : op.Allowed d) :
    (op.run d).clock = d.clock + 1 := by
  cases op with
  | mkdir p => rw [run, dirs_mkdir h.2.2]
  | _ => rfl

/-- A directory is stamped, or it has the time and the files it had. -/
theorem dirs_run
    {d : Disk} {op : FileOp} (h : op.Allowed d) {q : Path} {m : Nat}
    (hlookup : (op.run d).dirs.lookup q = some m) :
    m = (op.run d).clock ∨
      d.dirs.lookup q = some m ∧
        ∀ r : Path, r.parent = q → (op.run d).isFile r = d.isFile r := by
  cases op with
  | replace p rows =>
      rcases lookup_stamp hlookup with hnew | ⟨hne, hold⟩
      · exact Or.inl hnew
      · refine Or.inr ⟨hold, fun r hr => ?_⟩
        have hother : r ≠ p := fun heq => hne (by rw [← hr, heq])
        simp only [run]
        rw [isFile_replace, decide_eq_false hother, Bool.false_or]
  | rewrite p rows =>
      exact Or.inr ⟨hlookup, fun r _ => isFile_rewrite d rows h⟩
  | unlink p =>
      rcases lookup_stamp hlookup with hnew | ⟨hne, hold⟩
      · exact Or.inl hnew
      · refine Or.inr ⟨hold, fun r hr => ?_⟩
        have hother : r ≠ p := fun heq => hne (by rw [← hr, heq])
        simp only [run]
        rw [isFile_unlink, decide_eq_true hother, Bool.true_and]
  | mkdir p =>
      have hclock := clock_run h
      rw [hclock]
      rw [run, dirs_mkdir h.2.2] at hlookup
      rcases lookup_stamp hlookup with hnew | ⟨_, hold⟩
      · exact Or.inl hnew
      · rcases lookup_stamp hold with hnew | ⟨_, hold'⟩
        · exact Or.inl hnew
        · refine Or.inr ⟨hold', fun r _ => ?_⟩
          exact isFile_mkdir d p r
  | rmdir p =>
      rcases lookup_stamp hlookup with hnew | ⟨_, hold⟩
      · exact Or.inl hnew
      · refine Or.inr ⟨?_, fun r _ => rfl⟩
        by_cases heq : q = p
        · subst heq
          rw [AList.lookup_erase] at hold
          cases hold
        · rwa [AList.lookup_erase_ne heq] at hold

/-- One change leads to a tree where what is not newer is as it was. -/
theorem leadsTo_run {d : Disk} {op : FileOp} (h : op.Allowed d) :
    Disk.LeadsTo d (op.run d) := by
  refine ⟨follows_run d op, fun p m hlookup hold => ?_⟩
  rcases dirs_run h hlookup with hnew | hkept
  · have hclock := clock_run h
    omega
  · exact hkept

end FileOp

namespace Disk

/-- The entries of a directory are the files and directories right below it. -/
theorem mem_entries (d : Disk) (p : Path) (entry : String × Nat) :
    entry ∈ d.entries p ↔
      ∃ q : Path, q ≠ [] ∧ q.parent = p ∧ q.name = entry.1 ∧
        ((d.files.lookup q).map File.mtime = some entry.2 ∨ d.dirs.lookup q = some entry.2) := by
  unfold entries
  simp only [List.mem_append, List.mem_filterMap, Option.ite_none_right_eq_some,
    Option.some.injEq, Sigma.exists, Option.map_eq_some_iff]
  constructor
  · rintro (⟨q, f, hmem, ⟨hne, hparent⟩, rfl⟩ | ⟨q, m, hmem, ⟨hne, hparent⟩, rfl⟩)
    · exact ⟨q, hne, hparent, rfl, Or.inl ⟨f, AList.mem_lookup_iff.mpr hmem, rfl⟩⟩
    · exact ⟨q, hne, hparent, rfl, Or.inr (AList.mem_lookup_iff.mpr hmem)⟩
  · rintro ⟨q, hne, hparent, hname, ⟨f, hlookup, htime⟩ | hlookup⟩
    · exact Or.inl ⟨q, f, AList.mem_lookup_iff.mp hlookup, ⟨hne, hparent⟩, by rw [hname, htime]⟩
    · exact Or.inr ⟨q, _, AList.mem_lookup_iff.mp hlookup, ⟨hne, hparent⟩, by rw [hname]⟩

theorem eq_of_parent_of_name
    {p q : Path} (hp : p ≠ []) (hq : q ≠ [])
    (hparent : p.parent = q.parent) (hname : p.name = q.name) : p = q := by
  rw [Path.name, Path.name, List.getLast?_eq_getLast_of_ne_nil hp,
    List.getLast?_eq_getLast_of_ne_nil hq] at hname
  rw [← List.dropLast_append_getLast hp, ← List.dropLast_append_getLast hq]
  exact congrArg₂ (fun front last => front ++ [last]) hparent hname

/-- What the entry of one path says. -/
theorem mem_entries_parent (d : Disk) {p : Path} (hne : p ≠ []) (m : Nat) :
    (p.name, m) ∈ d.entries p.parent ↔
      (d.files.lookup p).map File.mtime = some m ∨ d.dirs.lookup p = some m := by
  rw [mem_entries]
  constructor
  · rintro ⟨q, hq, hparent, hname, htime⟩
    rwa [eq_of_parent_of_name hq hne hparent hname] at htime
  · exact fun htime => ⟨p, hne, rfl, rfl, htime⟩

/-- A directory without entries has nothing below it. -/
theorem ne_parent_of_entries_eq_nil
    {d : Disk} {p q : Path} (h : d.entries p = []) (hne : q ≠ [])
    (hq : d.isFile q = true ∨ d.isDir q = true) : q.parent ≠ p := by
  intro hparent
  have hnone : ∀ entry, entry ∉ d.entries p := by simp [h]
  rcases hq with hfile | hdir
  · obtain ⟨f, hf⟩ := Option.isSome_iff_exists.mp hfile
    refine hnone (q.name, f.mtime) ((mem_entries d p _).mpr
      ⟨q, hne, hparent, rfl, Or.inl ?_⟩)
    rw [hf, Option.map_some]
  · have hlookup : (d.dirs.lookup q).isSome = true := by
      simpa [isDir, hne] using hdir
    obtain ⟨m, hm⟩ := Option.isSome_iff_exists.mp hlookup
    exact hnone (q.name, m) ((mem_entries d p _).mpr ⟨q, hne, hparent, rfl, Or.inr hm⟩)

/-! ## What a directory's entries remember -/

section Entries

variable {past now : Disk} {p : Path}

/-- The entries are no newer than the clock. -/
theorem Rooted.le_clock {d : Disk} (hd : d.Rooted) (hne : p ≠ []) {m : Nat}
    (hentry : (p.name, m) ∈ d.entries p.parent) : m ≤ d.clock := by
  rcases (d.mem_entries_parent hne m).mp hentry with hfile | hdir
  · obtain ⟨f, hlookup, rfl⟩ := Option.map_eq_some_iff.mp hfile
    exact hd.stamped p f hlookup
  · exact hd.dirsStamped p m hdir

theorem Rooted.not_both {d : Disk} (hd : d.Rooted) {f : File} {m : Nat}
    (hfile : d.files.lookup p = some f) (hdir : d.dirs.lookup p = some m) : False := by
  have hapart := hd.apart p (by rw [isFile, hfile, Option.isSome_some])
  unfold isDir at hapart
  rw [hdir] at hapart
  simp at hapart

theorem Rooted.isFile_nil {d : Disk} (hd : d.Rooted) : d.isFile [] = false :=
  hd.isFile_of_isDir rfl

/-- A directory whose entries are the same has the same files. -/
theorem LeadsTo.isFile_eq_of_entries
    (h : LeadsTo past now) (hpast : past.Rooted) (hnow : now.Rooted)
    (hentries : ∀ entry, entry ∈ past.entries p.parent ↔ entry ∈ now.entries p.parent) :
    now.isFile p = past.isFile p := by
  by_cases hne : p = []
  · subst hne
    rw [hpast.isFile_nil, hnow.isFile_nil]
  rw [Bool.eq_iff_iff]
  constructor
  · intro hfile
    obtain ⟨f, hf⟩ := Option.isSome_iff_exists.mp hfile
    have hentry := (hentries _).mpr ((now.mem_entries_parent hne f.mtime).mpr
      (Or.inl (by rw [hf, Option.map_some])))
    have hkept := h.follows.files p f hf (hpast.le_clock hne hentry)
    rw [isFile, hkept, Option.isSome_some]
  · intro hfile
    obtain ⟨f, hf⟩ := Option.isSome_iff_exists.mp hfile
    have hentry := (past.mem_entries_parent hne f.mtime).mpr
      (Or.inl (by rw [hf, Option.map_some]))
    rcases (now.mem_entries_parent hne f.mtime).mp ((hentries _).mp hentry) with hsame | hdir
    · obtain ⟨g, hg, _⟩ := Option.map_eq_some_iff.mp hsame
      rw [isFile, hg, Option.isSome_some]
    · have hold := (h.dirs p _ hdir (hpast.le_clock hne hentry)).1
      exact (hpast.not_both hf hold).elim

/-- A directory whose entries are the same has the same directories, with the
same times. -/
theorem LeadsTo.dirs_eq_of_entries
    (h : LeadsTo past now) (hpast : past.Rooted) (hne : p ≠ [])
    (hentries : ∀ entry, entry ∈ past.entries p.parent ↔ entry ∈ now.entries p.parent) :
    now.dirs.lookup p = past.dirs.lookup p := by
  cases hdir : now.dirs.lookup p with
  | some m =>
      have hentry := (hentries _).mpr ((now.mem_entries_parent hne m).mpr (Or.inr hdir))
      exact (h.dirs p m hdir (hpast.le_clock hne hentry)).1.symm
  | none =>
      cases hold : past.dirs.lookup p with
      | none => rfl
      | some m =>
          have hentry := (past.mem_entries_parent hne m).mpr (Or.inr hold)
          rcases (now.mem_entries_parent hne m).mp ((hentries _).mp hentry) with hfile | hsame
          · obtain ⟨f, hf, rfl⟩ := Option.map_eq_some_iff.mp hfile
            have hkept := h.follows.files p f hf (hpast.le_clock hne hentry)
            exact (hpast.not_both hkept hold).elim
          · rw [hdir] at hsame
            cases hsame

/-- A directory of the same time has the same files. -/
theorem LeadsTo.isFile_eq_of_dirs_eq
    (h : LeadsTo past now) (hpast : past.Rooted) (hnow : now.Rooted)
    (hne : p.parent ≠ [])
    (hdirs : now.dirs.lookup p.parent = past.dirs.lookup p.parent) :
    now.isFile p = past.isFile p := by
  have hchild : ∀ {d : Disk}, d.Rooted → d.dirs.lookup p.parent = none →
      d.isFile p = false := by
    intro d hd hnone
    cases hfile : d.isFile p with
    | false => rfl
    | true =>
        have hdir := hd.below p (Or.inl hfile)
        simp [isDir, hne, hnone] at hdir
  cases hlookup : now.dirs.lookup p.parent with
  | some m =>
      have hold := hdirs.symm.trans hlookup
      exact (h.dirs _ m hlookup (hpast.dirsStamped _ m hold)).2 p rfl
  | none => rw [hchild hnow hlookup, hchild hpast (hdirs.symm.trans hlookup)]

end Entries

end Disk

namespace FileOp

/-- Every change keeps a well-formed tree. -/
theorem rooted_run {d : Disk} {op : FileOp} (hd : d.Rooted) (h : op.Allowed d) :
    (op.run d).Rooted := by
  have hdirs : ∀ p m, (op.run d).dirs.lookup p = some m → m ≤ (op.run d).clock := by
    intro p m hlookup
    have hclock := clock_run h
    rcases dirs_run h hlookup with hnew | ⟨hold, _⟩
    · exact hnew.le
    · have hle := hd.dirsStamped p m hold
      omega
  refine ⟨(follows_run d op).stamped hd.stamped, hdirs, ?_, ?_⟩
  · intro p hfile
    cases op with
    | replace q rows =>
        simp only [run] at hfile ⊢
        rw [isFile_replace, Bool.or_eq_true, decide_eq_true_iff] at hfile
        rw [isDir_replace d rows h.2.1]
        rcases hfile with rfl | hold
        · exact h.2.2
        · exact hd.apart p hold
    | rewrite q rows =>
        simp only [run] at hfile ⊢
        rw [isFile_rewrite d rows h] at hfile
        exact hd.apart p hfile
    | unlink q =>
        simp only [run] at hfile ⊢
        rw [isFile_unlink, Bool.and_eq_true] at hfile
        rw [isDir_unlink d (hd.below q (Or.inl h))]
        exact hd.apart p hfile.2
    | mkdir q =>
        simp only [run] at hfile ⊢
        rw [isFile_mkdir] at hfile
        rw [isDir_mkdir h.2.1 h.2.2, hd.apart p hfile, Bool.or_false, decide_eq_false_iff_not]
        rintro rfl
        have hnone := h.2.2
        unfold Disk.pathExists at hnone
        rw [hfile] at hnone
        cases hnone
    | rmdir q =>
        simp only [run] at hfile ⊢
        rw [isDir_rmdir h.1 (parent_ne_self h.1) (hd.below q (Or.inr h.2.1)),
          hd.apart p hfile, Bool.and_false]
  · intro p hthere
    cases op with
    | replace q rows =>
        simp only [run] at hthere ⊢
        rw [isFile_replace, isDir_replace d rows h.2.1, Bool.or_eq_true,
          decide_eq_true_iff] at hthere
        rw [isDir_replace d rows h.2.1]
        rcases hthere with (rfl | hfile) | hdir
        · exact h.2.1
        · exact hd.below p (Or.inl hfile)
        · exact hd.below p (Or.inr hdir)
    | rewrite q rows =>
        simp only [run] at hthere ⊢
        rw [isFile_rewrite d rows h] at hthere
        exact hd.below p hthere
    | unlink q =>
        have hparent := hd.below q (Or.inl h)
        simp only [run] at hthere ⊢
        rw [isFile_unlink, isDir_unlink d hparent, Bool.and_eq_true] at hthere
        rw [isDir_unlink d hparent]
        exact hd.below p (hthere.imp And.right id)
    | mkdir q =>
        simp only [run] at hthere ⊢
        rw [isFile_mkdir, isDir_mkdir h.2.1 h.2.2, Bool.or_eq_true, decide_eq_true_iff] at hthere
        rw [isDir_mkdir h.2.1 h.2.2, Bool.or_eq_true]
        rcases hthere with hfile | rfl | hdir
        · exact Or.inr (hd.below p (Or.inl hfile))
        · exact Or.inr h.2.1
        · exact Or.inr (hd.below p (Or.inr hdir))
    | rmdir q =>
        have hparent := hd.below q (Or.inr h.2.1)
        simp only [run] at hthere ⊢
        rw [isDir_rmdir h.1 (parent_ne_self h.1) hparent, Bool.and_eq_true] at hthere ⊢
        have hold : d.isFile p = true ∨ d.isDir p = true := hthere.imp id And.right
        refine ⟨decide_eq_true ?_, hd.below p hold⟩
        by_cases hroot : p = []
        · rw [hroot]
          exact h.1.symm
        · exact Disk.ne_parent_of_entries_eq_nil h.2.2 hroot hold

instance (d : Disk) : (op : FileOp) → Decidable (op.Allowed d)
  | .replace _ _ => inferInstanceAs (Decidable (_ ∧ _))
  | .rewrite _ _ => inferInstanceAs (Decidable (_ = _))
  | .unlink _ => inferInstanceAs (Decidable (_ = _))
  | .mkdir _ => inferInstanceAs (Decidable (_ ∧ _))
  | .rmdir path =>
      decidable_of_iff (path ≠ [] ∧ d.isDir path = true ∧ (d.entries path).isEmpty = true)
        (by rw [List.isEmpty_iff, Allowed])

/-- The changes succeed one after the other. -/
def AllAllowed : Disk → List FileOp → Prop
  | _, [] => True
  | d, op :: ops => op.Allowed d ∧ AllAllowed (op.run d) ops

instance : (d : Disk) → (ops : List FileOp) → Decidable (AllAllowed d ops)
  | _, [] => inferInstanceAs (Decidable True)
  | d, op :: ops =>
      have := instDecidableAllAllowed (op.run d) ops
      inferInstanceAs (Decidable (_ ∧ _))

end FileOp

/-- A tree without files and directories. -/
def Disk.bare : Disk :=
  ⟨∅, ∅, 0⟩

theorem Disk.rooted_bare : Disk.bare.Rooted := by
  have hfiles : ∀ p, Disk.bare.files.lookup p = none := fun p => AList.lookup_empty p
  have hdirs : ∀ p, Disk.bare.dirs.lookup p = none := fun p => AList.lookup_empty p
  refine ⟨?_, ?_, ?_, ?_⟩
  · intro p f hlookup
    rw [hfiles] at hlookup
    cases hlookup
  · intro p m hlookup
    rw [hdirs] at hlookup
    cases hlookup
  · intro p hfile
    rw [Disk.isFile, hfiles] at hfile
    cases hfile
  · rintro p (hfile | hdir)
    · rw [Disk.isFile, hfiles] at hfile
      cases hfile
    · have hroot : p = [] := by
        rw [Disk.isDir, hdirs] at hdir
        simpa using hdir
      rw [hroot]
      rfl

end Northwind
