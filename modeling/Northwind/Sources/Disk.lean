import Northwind.Sources.Rows
import Mathlib.Data.List.AList

/-!
# The directory tree the Parquet files live in

`Disk` holds the regular files and the directories with their modification
times.  Every operation that changes a directory's entries stamps that
directory, and every file it writes, with a fresh time.

Publishing a file is one operation, `Disk.replace`: the sources write a
temporary file next to the target and `os.replace` it, so no reader sees a
partial one.  The size of a file is left out: a rewritten file always has a
fresh modification time, so a signature never needs the size to move.
-/

namespace Northwind

/-- A regular Parquet file. -/
structure File where
  rows : List Row
  mtime : Nat

/-- Files and directories, each with its modification time. -/
structure Disk where
  files : AList (fun _ : Path => File)
  dirs : AList (fun _ : Path => Nat)
  clock : Nat

namespace Disk

/-- The rows of the file at `p`; `none` is `FileNotFoundError`. -/
def read (d : Disk) (p : Path) : Option (List Row) :=
  (d.files.lookup p).map File.rows

/-- `Path.is_file`. -/
def isFile (d : Disk) (p : Path) : Bool :=
  (d.files.lookup p).isSome

/-- `Path.exists`. -/
def pathExists (d : Disk) (p : Path) : Bool :=
  d.isFile p || (d.dirs.lookup p).isSome || p.isEmpty

/-- Create the directory `p` unless it is there, stamping its parent. -/
def mkdir (d : Disk) (p : Path) : Disk :=
  if (d.dirs.lookup p).isSome then d
  else
    { d with
      dirs := (d.dirs.insert p (d.clock + 1)).insert p.parent (d.clock + 1)
      clock := d.clock + 1 }

/-- `Path.mkdir(parents=True, exist_ok=True)`: outermost directory first. -/
def mkdirs (d : Disk) (p : Path) : Disk :=
  p.inits.tail.foldl mkdir d

/-- Publish a file through a temporary one and `os.replace`. -/
def replace (d : Disk) (p : Path) (rows : List Row) : Disk :=
  { files := d.files.insert p ⟨rows, d.clock + 1⟩
    dirs := d.dirs.insert p.parent (d.clock + 1)
    clock := d.clock + 1 }

/-- `Path.unlink`. -/
def unlink (d : Disk) (p : Path) : Disk :=
  { files := d.files.erase p
    dirs := d.dirs.insert p.parent (d.clock + 1)
    clock := d.clock + 1 }

/-- `Path.rmdir`. -/
def rmdir (d : Disk) (p : Path) : Disk :=
  { d with
    dirs := (d.dirs.erase p).insert p.parent (d.clock + 1)
    clock := d.clock + 1 }

/-- Names and modification times of the entries of a directory. -/
def entries (d : Disk) (p : Path) : List (String × Nat) :=
  d.files.entries.filterMap
      (fun e => if e.1 ≠ [] ∧ e.1.parent = p then some (e.1.name, e.2.mtime) else none)
    ++ d.dirs.entries.filterMap
      (fun e => if e.1 ≠ [] ∧ e.1.parent = p then some (e.1.name, e.2) else none)

/-- All regular files. -/
def paths (d : Disk) : List Path :=
  d.files.keys

@[simp] theorem isFile_eq_read (d : Disk) (p : Path) :
    d.isFile p = (d.read p).isSome := by
  simp [isFile, read]

theorem mem_paths (d : Disk) (p : Path) :
    p ∈ d.paths ↔ (d.read p).isSome = true := by
  rw [paths, ← AList.mem_keys, ← AList.lookup_isSome]
  simp [read]

@[simp] theorem read_mkdir (d : Disk) (p : Path) :
    (d.mkdir p).read = d.read := by
  funext q
  unfold mkdir
  split <;> rfl

@[simp] theorem read_mkdirs (d : Disk) (p : Path) :
    (d.mkdirs p).read = d.read := by
  unfold mkdirs
  induction p.inits.tail generalizing d with
  | nil => rfl
  | cons q rest ih =>
      rw [List.foldl_cons, ih, read_mkdir]

@[simp] theorem read_rmdir (d : Disk) (p : Path) :
    (d.rmdir p).read = d.read :=
  rfl

@[simp] theorem read_replace_self (d : Disk) (p : Path) (rows : List Row) :
    (d.replace p rows).read p = some rows := by
  simp [read, replace]

theorem read_replace_of_ne
    (d : Disk) {p q : Path} (rows : List Row) (h : q ≠ p) :
    (d.replace p rows).read q = d.read q := by
  simp [read, replace, AList.lookup_insert_ne h]

@[simp] theorem read_unlink_self (d : Disk) (p : Path) :
    (d.unlink p).read p = none := by
  simp [read, unlink]

theorem read_unlink_of_ne (d : Disk) {p q : Path} (h : q ≠ p) :
    (d.unlink p).read q = d.read q := by
  simp [read, unlink, AList.lookup_erase_ne h]

/-! ## Trees of one run -/

/-- No file is stamped later than the clock shows. -/
def Stamped (d : Disk) : Prop :=
  ∀ p f, d.files.lookup p = some f → f.mtime ≤ d.clock

/-- Operations lead from `past` to `now`: what is not newer than `past` was
there before. -/
structure Follows (past now : Disk) : Prop where
  clock : past.clock ≤ now.clock
  stamped : past.Stamped → now.Stamped
  files : ∀ p f, now.files.lookup p = some f → f.mtime ≤ past.clock →
    past.files.lookup p = some f

theorem Follows.refl (d : Disk) : Follows d d :=
  ⟨le_rfl, id, fun _ _ h _ => h⟩

theorem Follows.trans
    {past between now : Disk}
    (h : Follows past between) (h' : Follows between now) :
    Follows past now := by
  refine ⟨h.clock.trans h'.clock, fun hpast => h'.stamped (h.stamped hpast), ?_⟩
  intro p f hlookup hold
  have hbetween := h'.files p f hlookup (hold.trans h.clock)
  exact h.files p f hbetween hold

/-- Changing directories and the clock only. -/
theorem Follows.of_files_eq
    {past now : Disk}
    (hclock : past.clock ≤ now.clock) (hfiles : now.files = past.files) :
    Follows past now := by
  refine ⟨hclock, ?_, ?_⟩
  · intro hpast p f hlookup
    rw [hfiles] at hlookup
    exact (hpast p f hlookup).trans hclock
  · intro p f hlookup _
    rw [← hfiles]
    exact hlookup

theorem follows_mkdir (d : Disk) (p : Path) : Follows d (d.mkdir p) := by
  unfold mkdir
  split
  · exact Follows.refl d
  · exact Follows.of_files_eq (Nat.le_succ _) rfl

theorem follows_mkdirs (d : Disk) (p : Path) : Follows d (d.mkdirs p) := by
  unfold mkdirs
  induction p.inits.tail generalizing d with
  | nil => exact Follows.refl d
  | cons q rest ih => exact (follows_mkdir d q).trans (ih (d.mkdir q))

theorem follows_rmdir (d : Disk) (p : Path) : Follows d (d.rmdir p) :=
  Follows.of_files_eq (Nat.le_succ _) rfl

theorem follows_replace (d : Disk) (p : Path) (rows : List Row) :
    Follows d (d.replace p rows) := by
  have hlookup : ∀ q f, (d.replace p rows).files.lookup q = some f →
      f.mtime = d.clock + 1 ∨ d.files.lookup q = some f := by
    intro q f hq
    by_cases heq : q = p
    · subst heq
      rw [replace, AList.lookup_insert] at hq
      left
      rw [← Option.some.inj hq]
    · rw [replace, AList.lookup_insert_ne heq] at hq
      exact Or.inr hq
  have hclock : (d.replace p rows).clock = d.clock + 1 := rfl
  refine ⟨Nat.le_succ _, ?_, ?_⟩
  · intro hd q f hq
    rcases hlookup q f hq with hnew | hold
    · omega
    · have hle := hd q f hold
      omega
  · intro q f hq hold
    rcases hlookup q f hq with hnew | hkept
    · omega
    · exact hkept

theorem follows_unlink (d : Disk) (p : Path) : Follows d (d.unlink p) := by
  have hlookup : ∀ q f, (d.unlink p).files.lookup q = some f →
      d.files.lookup q = some f := by
    intro q f hq
    by_cases heq : q = p
    · subst heq
      rw [unlink, AList.lookup_erase] at hq
      cases hq
    · rw [unlink, AList.lookup_erase_ne heq] at hq
      exact hq
  refine ⟨Nat.le_succ _, ?_, ?_⟩
  · intro hd q f hq
    exact (hd q f (hlookup q f hq)).trans (Nat.le_succ _)
  · intro q f hq _
    exact hlookup q f hq

/-- A modification time names one content within a run. -/
theorem Follows.read_eq
    {past now : Disk} (h : Follows past now) (hpast : past.Stamped) {p : Path}
    (hsame : (now.files.lookup p).map File.mtime = (past.files.lookup p).map File.mtime) :
    now.read p = past.read p := by
  cases hnow : now.files.lookup p with
  | none =>
      rw [hnow, Option.map_none, eq_comm, Option.map_eq_none_iff] at hsame
      simp only [read, hnow, hsame]
  | some f =>
      rw [hnow, Option.map_some, eq_comm, Option.map_eq_some_iff] at hsame
      obtain ⟨g, hg, hmtime⟩ := hsame
      have hle := hpast p g hg
      have hfile := h.files p f hnow (by omega)
      simp only [read, hnow, hfile]

end Disk
end Northwind
