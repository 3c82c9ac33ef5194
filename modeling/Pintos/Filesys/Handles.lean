import Pintos.Filesys.Directory
import Pintos.Filesys.Path

/-!
**Directory handles, and the open counts of inodes.**

`directory.c` works on `struct dir` handles, each holding one reference to an open inode.  The
reference counts are kept by `inode.c`, which is not part of the source modelled here; we count
them as the directory layer uses them: `inode_open` and `inode_reopen` add a reference to the
inode of a sector, `inode_close` drops one, `dir_open` takes over the reference it is given, and
`dir_close` drops it.  `inode_open` and the `calloc` of `dir_open` are taken to succeed.

`dir_add` and `dir_create` drop every reference they take, and `dir_lookup` hands its caller one
reference on the inode it returns.  So does `dir_open_path`, whose loop closes each directory as
it opens the next.  `dir_remove` of a directory drops one reference too many: it hands the
reference of its `inode_open` to `dir_open`, drops it with `dir_close`, and then closes the inode
again on its way out.

`dir_open_path` opens whatever inode the lookup of a token returns as the next directory, with no
`inode_is_dir` check, so a path that names a regular file yields a directory handle on the file.
Each call of `dir_lookup` has its own uninitialised local `e`, which a `..` in a file shorter than
one record reads: the `i`-th call of a resolution finds `es i` there.

Main definitions:

* `Pintos.Filesys.Volume`, `Pintos.Filesys.Dir` — the file system with its open counts, and a
  handle;
* `Pintos.Filesys.dirLookupI`, `Pintos.Filesys.dirAddI`, `Pintos.Filesys.dirRemoveI`,
  `Pintos.Filesys.dirCreateI`, `Pintos.Filesys.dirOpenPath` — the functions of `directory.c` with
  the references they take and drop.

Main results:

* `Pintos.Filesys.dirAddI_eq` and its siblings — on the file system they act as `dir_add`,
  `dir_remove`, `dir_create` and `dir_lookup` of `Pintos.Filesys.Directory`;
* `Pintos.Filesys.openCnt_dirAddI`, `Pintos.Filesys.openCnt_dirCreateI` — they leave every count as
  they found it;
* `Pintos.Filesys.openCnt_dirLookupI`, `Pintos.Filesys.openCnt_dirOpenPath` — one reference more
  on the inode they return, and none on failure;
* `Pintos.Filesys.openCnt_dirRemoveI` — one reference fewer on the directory `dir_remove` finds;
* `Pintos.Filesys.dirOpenPath_snd` — what `dir_open_path` returns: the end of
  `Pintos.Filesys.lookupTokens`, the lookups of the tokens one after the other;
* `Pintos.Filesys.dir_remove_over_releases`, `Pintos.Filesys.dir_open_path_opens_file`.
-/

set_option autoImplicit false

namespace Pintos.Filesys

/-- `ROOT_DIR_SECTOR`. -/
def rootDirSector : ℕ := 1

/-- The file system as the directory layer sees it, with the open count of the inode of each
sector and whether `inode_remove` has marked it removed. -/
structure Volume where
  fs : FileSys
  openCnt : ℕ → ℤ
  removed : ℕ → Bool

/-- `struct dir`: its inode, named by the inode's sector, and `pos`, in records. -/
structure Dir where
  inode : ℕ
  pos : ℕ
  deriving DecidableEq, Repr

namespace Volume

/-- `k` more references on the inode of `sector`. -/
def addCnt (v : Volume) (sector : ℕ) (k : ℤ) : Volume :=
  { v with openCnt := fun x => if x = sector then v.openCnt x + k else v.openCnt x }

/-- `inode_write_at` of one record. -/
def write (v : Volume) (sector ofs : ℕ) (e : DirEntry) : Volume :=
  { v with fs := v.fs.write sector ofs e }

@[simp] theorem addCnt_fs (v : Volume) (s : ℕ) (k : ℤ) : (v.addCnt s k).fs = v.fs := rfl

@[simp] theorem addCnt_removed (v : Volume) (s : ℕ) (k : ℤ) :
    (v.addCnt s k).removed = v.removed := rfl

@[simp] theorem addCnt_openCnt (v : Volume) (s x : ℕ) (k : ℤ) :
    (v.addCnt s k).openCnt x = v.openCnt x + if x = s then k else 0 := by
  simp only [addCnt]; split_ifs <;> simp

@[simp] theorem write_fs (v : Volume) (s ofs : ℕ) (e : DirEntry) :
    (v.write s ofs e).fs = v.fs.write s ofs e := rfl

@[simp] theorem write_openCnt (v : Volume) (s ofs : ℕ) (e : DirEntry) :
    (v.write s ofs e).openCnt = v.openCnt := rfl

@[simp] theorem write_removed (v : Volume) (s ofs : ℕ) (e : DirEntry) :
    (v.write s ofs e).removed = v.removed := rfl

end Volume

/-! ### The calls on inodes and handles -/

/-- `inode_open (sector)`. -/
def inodeOpen (v : Volume) (sector : ℕ) : Volume := v.addCnt sector 1

/-- `inode_reopen (inode)`. -/
def inodeReopen (v : Volume) (inode : ℕ) : Volume := v.addCnt inode 1

/-- `inode_close (inode)`. -/
def inodeClose (v : Volume) (inode : ℕ) : Volume := v.addCnt inode (-1)

/-- `inode_remove (inode)`: the inode is marked removed. -/
def inodeRemove (v : Volume) (inode : ℕ) : Volume :=
  { v with removed := fun x => if x = inode then true else v.removed x }

/-- `dir_open (inode)`: a handle that takes over the reference, at `pos` one record in, past the
parent link. -/
def dirOpen (inode : ℕ) : Dir := ⟨inode, 1⟩

@[simp] theorem dirOpen_inode (inode : ℕ) : (dirOpen inode).inode = inode := rfl

/-- `dir_close (dir)`. -/
def dirClose (v : Volume) (dir : Dir) : Volume := inodeClose v dir.inode

/-- `dir_open_root ()`. -/
def dirOpenRoot (v : Volume) : Volume × Dir := (inodeOpen v rootDirSector, dirOpen rootDirSector)

/-- `dir_reopen (dir)`. -/
def dirReopen (v : Volume) (dir : Dir) : Volume × Dir := (inodeReopen v dir.inode, dirOpen dir.inode)

@[simp] theorem inodeOpen_fs (v : Volume) (i : ℕ) : (inodeOpen v i).fs = v.fs := rfl

@[simp] theorem inodeOpen_removed (v : Volume) (i : ℕ) : (inodeOpen v i).removed = v.removed := rfl

/-- `inode_open` adds a reference to its inode. -/
@[simp] theorem inodeOpen_openCnt (v : Volume) (i x : ℕ) :
    (inodeOpen v i).openCnt x = v.openCnt x + if x = i then 1 else 0 :=
  Volume.addCnt_openCnt v i x 1

@[simp] theorem inodeClose_fs (v : Volume) (i : ℕ) : (inodeClose v i).fs = v.fs := rfl

@[simp] theorem inodeClose_removed (v : Volume) (i : ℕ) :
    (inodeClose v i).removed = v.removed := rfl

/-- `inode_close` drops a reference to its inode. -/
@[simp] theorem inodeClose_openCnt (v : Volume) (i x : ℕ) :
    (inodeClose v i).openCnt x = v.openCnt x - if x = i then 1 else 0 := by
  rw [inodeClose, Volume.addCnt_openCnt]; split_ifs <;> rfl

@[simp] theorem inodeRemove_fs (v : Volume) (i : ℕ) : (inodeRemove v i).fs = v.fs := rfl

@[simp] theorem inodeRemove_openCnt (v : Volume) (i : ℕ) :
    (inodeRemove v i).openCnt = v.openCnt := rfl

/-! ### The functions of `directory.c` with their references -/

/-- `dir_lookup (dir, name, &inode)`: the volume with the reference it opens, and the inode it
returns.  `e` is what the local `struct dir_entry e` holds before the call. -/
def dirLookupI (v : Volume) (dir : Dir) (name : String) (e : DirEntry) : Volume × Option ℕ :=
  if name = "." then (inodeReopen v dir.inode, some dir.inode)
  else if name = ".." then
    (inodeOpen v ((v.fs.data dir.inode).head?.getD e).inodeSector,
      some ((v.fs.data dir.inode).head?.getD e).inodeSector)
  else
    match lookup (v.fs.data dir.inode) name with
    | some (e, _) => (inodeOpen v e.inodeSector, some e.inodeSector)
    | none => (v, none)

/-- `dir_add (dir, name, inode_sector, is_dir)`.  An added directory is opened with
`dir_open (inode_open (inode_sector))`, its parent link written, and closed. -/
def dirAddI (v : Volume) (dir : Dir) (name : String) (inodeSector : ℕ) (isDir : Bool)
    (e : DirEntry) : Volume × Bool :=
  if name = "" ∨ nameMax < name.length then (v, false)
  else if (lookup (v.fs.data dir.inode) name).isSome then (v, false)
  else
    let v := if isDir then
        dirClose ((inodeOpen v inodeSector).write (dirOpen inodeSector).inode 0
          { e with inodeSector := dir.inode }) (dirOpen inodeSector)
      else v
    (v.write dir.inode (freeSlot (v.fs.data dir.inode)) ⟨inodeSector, name, true⟩, true)

/-- `dir_remove (dir, name)`.  The inode of the entry is opened; a directory is opened on it,
checked for emptiness and closed; and the inode is closed once more at `done`. -/
def dirRemoveI (v : Volume) (dir : Dir) (name : String) : Volume × Bool :=
  match lookup (v.fs.data dir.inode) name with
  | none => (v, false)
  | some (e, ofs) =>
      let v := inodeOpen v e.inodeSector
      let erase (v : Volume) : Volume × Bool :=
        (inodeClose (inodeRemove (v.write dir.inode ofs { e with inUse := false }) e.inodeSector)
          e.inodeSector, true)
      if v.fs.isDir e.inodeSector then
        let isEmpty := dirIsEmpty (v.fs.data e.inodeSector)
        let v := dirClose v (dirOpen e.inodeSector)
        if !isEmpty then (inodeClose v e.inodeSector, false) else erase v
      else erase v

/-- `dir_create (sector, entry_cnt)`: `inode_create` of a directory of `entry_cnt` zeroed records,
and its parent link written through `dir_open (inode_open (sector))`, closed after. -/
def dirCreateI (v : Volume) (sector entryCnt : ℕ) (e : DirEntry) : Volume × Bool :=
  let v : Volume := { v with fs :=
    { data := fun x => if x = sector then List.replicate entryCnt .zero else v.fs.data x
      isDir := fun x => if x = sector then true else v.fs.isDir x } }
  (dirClose ((inodeOpen v sector).write (dirOpen sector).inode 0 { e with inodeSector := sector })
    (dirOpen sector), true)

/-- The loop of `dir_open_path` over the tokens left, from the handle `dir` it holds: a token is
looked up in `dir`, the inode found is opened as the next `dir`, and `dir` is closed.  A failed
lookup closes `dir` and gives `NULL`.  `es i` is what the local `e` of the `i`-th call of
`dir_lookup` from here holds. -/
def openPathLoop (es : ℕ → DirEntry) : Volume → Dir → List (List Char) → Volume × Option Dir
  | v, dir, [] => (v, some dir)
  | v, dir, token :: tokens =>
      match dirLookupI v dir ⟨token⟩ (es 0) with
      | (v, none) => (dirClose v dir, none)
      | (v, some inode) =>
          openPathLoop (fun i => es (i + 1)) (dirClose v dir) (dirOpen inode) tokens

/-- `dir_open_path (path)` run by a thread whose `cwd` is `cwd`: the root for an absolute path or
a thread without `cwd`, a reopened `cwd` otherwise; then the token loop, and a removed directory
refused at the end.  `es i` is what the local `e` of its `i`-th call of `dir_lookup` holds. -/
def dirOpenPath (v : Volume) (cwd : Option Dir) (path : List Char) (es : ℕ → DirEntry) :
    Volume × Option Dir :=
  let (v, dir) :=
    if path.head? = some '/' then dirOpenRoot v
    else match cwd with
      | none => dirOpenRoot v
      | some cwd => dirReopen v cwd
  match openPathLoop es v dir (strtokTokens path) with
  | (v, none) => (v, none)
  | (v, some dir) => if v.removed dir.inode then (dirClose v dir, none) else (v, some dir)

/-! ### What the calls do to the file system -/

section Calls

variable (v : Volume) (dir : Dir) (name : String) (e : DirEntry)

@[simp] theorem dirClose_fs (d : Dir) : (dirClose v d).fs = v.fs := rfl

@[simp] theorem dirClose_removed (d : Dir) : (dirClose v d).removed = v.removed := rfl

@[simp] theorem dirClose_openCnt (d : Dir) (x : ℕ) :
    (dirClose v d).openCnt x = v.openCnt x - if x = d.inode then 1 else 0 :=
  inodeClose_openCnt v d.inode x

/-- `dir_lookup` leaves the file system as it was, and answers as `Pintos.Filesys.dirLookup`. -/
theorem dirLookupI_fst : (dirLookupI v dir name e).1 =
    match (dirLookupI v dir name e).2 with
    | some x => inodeOpen v x
    | none => v := by
  unfold dirLookupI
  split_ifs
  · rfl
  · rfl
  · rcases lookup (v.fs.data dir.inode) name with _ | ⟨_, _⟩ <;> rfl

theorem dirLookupI_snd : (dirLookupI v dir name e).2 = dirLookup v.fs dir.inode name e := by
  unfold dirLookupI dirLookup
  split_ifs
  · rfl
  · rfl
  · rcases lookup (v.fs.data dir.inode) name with _ | ⟨_, _⟩ <;> rfl

@[simp] theorem dirLookupI_fs : (dirLookupI v dir name e).1.fs = v.fs := by
  rw [dirLookupI_fst]; split <;> rfl

@[simp] theorem dirLookupI_removed : (dirLookupI v dir name e).1.removed = v.removed := by
  rw [dirLookupI_fst]; split <;> rfl

/-- **`dir_lookup` opens one reference on the inode it returns**, and none when it fails. -/
theorem openCnt_dirLookupI (x : ℕ) : (dirLookupI v dir name e).1.openCnt x =
    v.openCnt x + if some x = (dirLookupI v dir name e).2 then 1 else 0 := by
  rw [dirLookupI_fst]
  split
  · next y hy => simp [hy]
  · next hy => simp [hy]

variable (s : ℕ) (isDir : Bool)

/-- `dir_add` writes as `Pintos.Filesys.dirAdd` and answers as it does. -/
theorem dirAddI_eq : ((dirAddI v dir name s isDir e).1.fs, (dirAddI v dir name s isDir e).2) =
    dirAdd v.fs dir.inode name s isDir e := by
  unfold dirAddI dirAdd
  split_ifs <;> rfl

/-- **`dir_add` leaves every open count as it found it.** -/
theorem openCnt_dirAddI : (dirAddI v dir name s isDir e).1.openCnt = v.openCnt := by
  unfold dirAddI
  split_ifs with h₁ h₂ h₃
  · rfl
  · rfl
  · funext x
    simp
  · rfl

theorem dirAddI_removed : (dirAddI v dir name s isDir e).1.removed = v.removed := by
  unfold dirAddI
  split_ifs <;> rfl

variable (entryCnt : ℕ)

/-- `dir_create` builds the directory of `Pintos.Filesys.dirCreate`. -/
theorem dirCreateI_eq : ((dirCreateI v s entryCnt e).1.fs, (dirCreateI v s entryCnt e).2) =
    dirCreate v.fs s entryCnt e := rfl

/-- **`dir_create` leaves every open count as it found it.** -/
theorem openCnt_dirCreateI : (dirCreateI v s entryCnt e).1.openCnt = v.openCnt := by
  funext x
  simp [dirCreateI]

/-- `dir_remove` writes as `Pintos.Filesys.dirRemove` and answers as it does. -/
theorem dirRemoveI_eq : ((dirRemoveI v dir name).1.fs, (dirRemoveI v dir name).2) =
    dirRemove v.fs dir.inode name := by
  unfold dirRemoveI dirRemove
  rcases lookup (v.fs.data dir.inode) name with _ | ⟨r, ofs⟩
  · rfl
  · dsimp only
    by_cases hd : v.fs.isDir r.inodeSector <;> by_cases he : dirIsEmpty (v.fs.data r.inodeSector) <;>
      simp [hd, he, inodeOpen, dirClose, inodeClose]

/-- **`dir_remove` drops one reference on a directory it finds**, whether it removes it or not,
and leaves every other count as it found it. -/
theorem openCnt_dirRemoveI (x : ℕ) : (dirRemoveI v dir name).1.openCnt x = v.openCnt x -
    if some x = ((lookup (v.fs.data dir.inode) name).map (·.1.inodeSector)).filter v.fs.isDir
    then 1 else 0 := by
  unfold dirRemoveI
  rcases lookup (v.fs.data dir.inode) name with _ | ⟨r, ofs⟩
  · simp
  · dsimp only
    by_cases hd : v.fs.isDir r.inodeSector <;> by_cases he : dirIsEmpty (v.fs.data r.inodeSector) <;>
      simp [hd, he, Option.filter]

end Calls

/-! ### `dir_open_path` -/

section OpenPath

variable (es : ℕ → DirEntry)

/-- The lookups of `tokens` one after the other from the directory in `sector`, the `i`-th call of
`dir_lookup` finding `es i` in its local `e`: the sector they reach, unless one fails. -/
def lookupTokens (fs : FileSys) (es : ℕ → DirEntry) : ℕ → List (List Char) → Option ℕ
  | sector, [] => some sector
  | sector, token :: tokens =>
      (dirLookup fs sector ⟨token⟩ (es 0)).bind fun s =>
        lookupTokens fs (fun i => es (i + 1)) s tokens

/-- Resolving two runs of tokens one after the other: the calls of the second run come after those
of the first. -/
theorem lookupTokens_append (fs : FileSys) :
    ∀ (es : ℕ → DirEntry) (sector : ℕ) (l₁ l₂ : List (List Char)),
      lookupTokens fs es sector (l₁ ++ l₂) =
        (lookupTokens fs es sector l₁).bind fun s =>
          lookupTokens fs (fun i => es (i + l₁.length)) s l₂
  | es, sector, [], l₂ => by simp [lookupTokens]
  | es, sector, t :: l₁, l₂ => by
      simp only [List.cons_append, lookupTokens.eq_2, Option.bind_assoc, List.length_cons]
      congr 1
      funext s
      rw [lookupTokens_append fs _ s l₁ l₂]
      simp only [Nat.add_assoc]

/-- The sector of the directory `dir_open_path` starts from: the root for an absolute path or a
thread without `cwd`, and `cwd` otherwise. -/
def startSector (cwd : Option Dir) (path : List Char) : ℕ :=
  if path.head? = some '/' then rootDirSector else (cwd.map Dir.inode).getD rootDirSector

/-- The token loop leaves the file system as it was, ends on the directory the lookups of the
tokens lead to, and moves the one reference it holds from the first directory to the last. -/
theorem openPathLoop_spec :
    ∀ (tokens : List (List Char)) (es : ℕ → DirEntry) (v : Volume) (sector : ℕ),
    (openPathLoop es v (dirOpen sector) tokens).1.fs = v.fs ∧
      (openPathLoop es v (dirOpen sector) tokens).1.removed = v.removed ∧
      (openPathLoop es v (dirOpen sector) tokens).2 =
        (lookupTokens v.fs es sector tokens).map dirOpen ∧
      ∀ x, (openPathLoop es v (dirOpen sector) tokens).1.openCnt x + (if x = sector then 1 else 0) =
        v.openCnt x +
          if some x = (openPathLoop es v (dirOpen sector) tokens).2.map Dir.inode then 1 else 0
  | [], es, v, sector => by simp [openPathLoop, lookupTokens]
  | token :: tokens, es, v, sector => by
      have hfst := dirLookupI_fst v (dirOpen sector) ⟨token⟩ (es 0)
      have hsnd := dirLookupI_snd v (dirOpen sector) ⟨token⟩ (es 0)
      rw [openPathLoop, lookupTokens]
      rcases h : dirLookupI v (dirOpen sector) ⟨token⟩ (es 0) with ⟨v₁, _ | i⟩ <;>
        rw [h] at hfst hsnd <;> dsimp only at hfst hsnd ⊢ <;> subst hfst <;>
        rw [dirOpen_inode] at hsnd <;> rw [← hsnd]
      · -- the lookup fails: `dir` is closed
        exact ⟨rfl, rfl, rfl, fun x => by simp⟩
      · -- the lookup opens `i`: the next `dir`, after `dir` is closed
        obtain ⟨hfs, hrem, hres, hcnt⟩ := openPathLoop_spec tokens (fun i => es (i + 1))
          (dirClose (inodeOpen v i) (dirOpen sector)) i
        refine ⟨hfs, hrem, by rw [hres]; rfl, fun x => ?_⟩
        have := hcnt x
        simp only [dirClose_openCnt, inodeOpen_openCnt, dirOpen_inode] at this
        omega

/-- What `dir_open_path` does: it leaves the file system as it was; it returns a handle on the
directory that the lookups of the tokens of the path lead to from the start directory, with no
check that any inode on the way is a directory, unless a lookup fails or the last inode is
removed; and it holds one reference on what it returns. -/
theorem dirOpenPath_spec (v : Volume) (cwd : Option Dir) (path : List Char) :
    (dirOpenPath v cwd path es).1.fs = v.fs ∧ (dirOpenPath v cwd path es).1.removed = v.removed ∧
      (dirOpenPath v cwd path es).2 =
        (lookupTokens v.fs es (startSector cwd path) (pathTokens path)).bind
          (fun sector => if v.removed sector then none else some (dirOpen sector)) ∧
      ∀ x, (dirOpenPath v cwd path es).1.openCnt x =
        v.openCnt x + if some x = (dirOpenPath v cwd path es).2.map Dir.inode then 1 else 0 := by
  have hs : (if path.head? = some '/' then dirOpenRoot v
      else match cwd with
        | none => dirOpenRoot v
        | some cwd => dirReopen v cwd) =
      (inodeOpen v (startSector cwd path), dirOpen (startSector cwd path)) := by
    unfold startSector
    split_ifs
    · rfl
    · cases cwd <;> rfl
  unfold dirOpenPath
  rw [hs, ← strtokTokens_eq_pathTokens]
  dsimp only
  obtain ⟨hfs, hrem, hres, hcnt⟩ := openPathLoop_spec (strtokTokens path) es
    (inodeOpen v (startSector cwd path)) (startSector cwd path)
  rcases hl : openPathLoop es (inodeOpen v (startSector cwd path)) (dirOpen (startSector cwd path))
    (strtokTokens path) with ⟨v₁, _ | d⟩ <;> rw [hl] at hfs hrem hres hcnt <;>
    dsimp only at hfs hrem hres hcnt ⊢ <;> simp only [inodeOpen_fs] at hres
  · -- a lookup failed
    refine ⟨hfs, hrem, by rw [Option.map_eq_none'.1 hres.symm]; rfl, fun x => ?_⟩
    have := hcnt x
    simp only [inodeOpen_openCnt, Option.map_none', reduceCtorEq, if_false] at this ⊢
    omega
  · -- the lookups led to `j`, refused if removed
    obtain ⟨j, hj, rfl⟩ := Option.map_eq_some'.1 hres.symm
    rw [hj, Option.some_bind]
    simp only [dirOpen_inode, hrem, inodeOpen_removed] at hcnt ⊢
    by_cases hr : v.removed j
    · simp only [hr, if_true, dirClose_fs, dirClose_removed, Option.map_none', reduceCtorEq,
        if_false, true_and, hfs, inodeOpen_fs]
      refine ⟨hrem, fun x => ?_⟩
      have := hcnt x
      simp only [dirClose_openCnt, inodeOpen_openCnt, dirOpen_inode, Option.map_some',
        Option.some.injEq] at this ⊢
      omega
    · simp only [hr, Bool.false_eq_true, if_false, hfs, inodeOpen_fs, true_and]
      refine ⟨hrem, fun x => ?_⟩
      have := hcnt x
      simp only [inodeOpen_openCnt, dirOpen_inode, Option.map_some', Option.some.injEq] at this ⊢
      omega

/-- **`dir_open_path` opens one reference on the directory it returns**, and none when it returns
`NULL`. -/
theorem openCnt_dirOpenPath (v : Volume) (cwd : Option Dir) (path : List Char) (x : ℕ) :
    (dirOpenPath v cwd path es).1.openCnt x =
      v.openCnt x + if some x = (dirOpenPath v cwd path es).2.map Dir.inode then 1 else 0 :=
  (dirOpenPath_spec es v cwd path).2.2.2 x

/-- **What `dir_open_path` returns**: the directory that the lookups of the tokens of the path lead
to from the start directory, unless a lookup fails or that inode is removed.  No inode on the way,
nor the last, is checked to be a directory. -/
theorem dirOpenPath_snd (v : Volume) (cwd : Option Dir) (path : List Char) :
    (dirOpenPath v cwd path es).2 =
      (lookupTokens v.fs es (startSector cwd path) (pathTokens path)).bind
        (fun sector => if v.removed sector then none else some (dirOpen sector)) :=
  (dirOpenPath_spec es v cwd path).2.2.1

end OpenPath

/-! ### Splitting a path, then resolving it -/

/-- The directory `dir_parser` writes is resolved from the same start directory as the path. -/
theorem startSector_dirParser (cwd : Option Dir) (p : List Char) :
    startSector cwd (dirParser p).1 = startSector cwd p := by
  unfold startSector
  rw [if_congr (head?_dirParser_fst p) rfl rfl]

/-- **Opening the directory that `dir_parser` writes with `dir_open_path`, and then looking up its
`name` there, reaches the inode that the lookups of all the tokens of the path reach**, for every
path with a token, while no inode is removed.  The `i`-th lookup finds the same bytes in its local
`e` in both resolutions, whatever they are: the calls of `dir_open_path` come first, and the
lookup of `name` is the last. -/
theorem dir_parser_then_lookup (v : Volume) (cwd : Option Dir) (p : List Char)
    (es : ℕ → DirEntry) (hp : pathTokens p ≠ []) (hv : ∀ s, v.removed s = false) :
    (dirOpenPath v cwd (dirParser p).1 es).2.bind
        (fun dir => dirLookup v.fs dir.inode ⟨(dirParser p).2⟩ (es ((pathTokens p).length - 1))) =
      lookupTokens v.fs es (startSector cwd p) (pathTokens p) := by
  rw [dirOpenPath_snd, pathTokens_dirParser_fst, startSector_dirParser, dirParser_snd,
    List.getLastD_eq_getLast?, List.getLast?_eq_getLast _ hp, Option.getD_some]
  conv_rhs => rw [← List.dropLast_append_getLast hp, lookupTokens_append]
  simp [hv, Option.bind_assoc, lookupTokens]

/-- The root holds `d` in sector 7, which holds `f` in sector 5: `dir_parser ("/d/f")` gives
`/d/` and `f`, and the two steps reach `f` as the whole path does, whatever each lookup's local
`e` holds, here the address of the call. -/
theorem dir_parser_then_lookup_example :
    let e : DirEntry := ⟨0, "", true⟩
    let es : ℕ → DirEntry := fun i => ⟨i, "", false⟩
    let v₀ : Volume := ⟨⟨fun _ => [], fun _ => false⟩, fun _ => 0, fun _ => false⟩
    let root := dirOpenRoot (dirCreateI (dirCreateI v₀ rootDirSector 16 e).1 7 16 e).1
    let v := (dirAddI (dirAddI root.1 root.2 "d" 7 true e).1 (dirOpen 7) "f" 5 false e).1
    (pathTokens "/d/f".toList ≠ [] ∧ ∀ s, v.removed s = false) ∧
      (dirOpenPath v none (dirParser "/d/f".toList).1 es).2.bind
          (fun dir => dirLookup v.fs dir.inode ⟨(dirParser "/d/f".toList).2⟩
            (es ((pathTokens "/d/f".toList).length - 1))) =
        lookupTokens v.fs es (startSector none "/d/f".toList) (pathTokens "/d/f".toList) :=
  ⟨⟨by decide, fun _ => rfl⟩, dir_parser_then_lookup _ none _ _ (by decide) fun _ => rfl⟩

/-! ### Two runs from an empty disk -/

/-- `mkdir ("/d")` and `rmdir ("/d")` while a handle on `/d` is open: the root and the directory
in sector 7 are made by `dir_create`, `/d` is added with `dir_add` and opened with
`dir_open_path`, which holds the one reference on it.  `dir_remove` of `d` then leaves that count
at 0, with the handle still open. -/
theorem dir_remove_over_releases :
    let e : DirEntry := ⟨0, "", true⟩
    let v₀ : Volume := ⟨⟨fun _ => [], fun _ => false⟩, fun _ => 0, fun _ => false⟩
    let root := dirOpenRoot (dirCreateI (dirCreateI v₀ rootDirSector 16 e).1 7 16 e).1
    let added := dirAddI root.1 root.2 "d" 7 true e
    ∀ es : ℕ → DirEntry, let opened := dirOpenPath added.1 none "/d".toList es
    added.2 = true ∧ opened.2 = some (dirOpen 7) ∧ opened.1.openCnt 7 = 1 ∧
      (dirRemoveI opened.1 root.2 "d").2 = true ∧
        (dirRemoveI opened.1 root.2 "d").1.openCnt 7 = 0 := by
  intro e v₀ root added es opened
  obtain ⟨hfs, -, hsnd, hcnt⟩ := dirOpenPath_spec es added.1 none "/d".toList
  have hopened : opened.2 = some (dirOpen 7) := hsnd.trans rfl
  have hcnt₇ : opened.1.openCnt 7 = 1 := by rw [hcnt, hopened]; rfl
  refine ⟨rfl, hopened, hcnt₇, ?_, ?_⟩
  · exact (congrArg Prod.snd (dirRemoveI_eq opened.1 root.2 "d")).trans (by rw [hfs]; rfl)
  · rw [openCnt_dirRemoveI, hcnt₇, hfs]; rfl

/-- A regular file `f` in sector 5 added to the root with `dir_add`: `dir_open_path ("/f")` returns
a directory handle on it. -/
theorem dir_open_path_opens_file :
    let e : DirEntry := ⟨0, "", true⟩
    let v₀ : Volume := ⟨⟨fun _ => [], fun _ => false⟩, fun _ => 0, fun _ => false⟩
    let root := dirOpenRoot (dirCreateI v₀ rootDirSector 16 e).1
    let v := (dirAddI root.1 root.2 "f" 5 false e).1
    v.fs.isDir 5 = false ∧
      ∀ es : ℕ → DirEntry, (dirOpenPath v none "/f".toList es).2 = some (dirOpen 5) :=
  ⟨rfl, fun _ => (dirOpenPath_snd _ _ _ _).trans rfl⟩

end Pintos.Filesys
