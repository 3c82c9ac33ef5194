import Mathlib.Data.List.Basic

/-!
**Directories of `filesys/directory.c`.**

A directory is a file of `struct dir_entry` records.  The record at offset 0 is the link to the
parent directory: `dir_create` writes the directory's own sector there, and `dir_add` writes the
parent's sector into the first record of a directory it adds.  Only `inode_sector` of that record
is ever set; its `name` and `in_use` hold whatever bytes the local `struct dir_entry e` held on the
stack.  `lookup` and `dir_is_empty` start at the record after the link, but the scan of `dir_add`
for a free record starts at offset 0, so a parent link whose `in_use` byte reads as false is taken
for a free record and overwritten.

The inode layer is not part of the source modelled here: a file is the list of the whole records
it holds, a read past the last of them is short, and a write at or past the end extends the file by
the record written.

Main definitions:

* `Pintos.Filesys.lookup`, `Pintos.Filesys.dirLookup`, `Pintos.Filesys.dirAdd`,
  `Pintos.Filesys.dirRemove`, `Pintos.Filesys.dirCreate` — the functions of `directory.c`;
* `Pintos.Filesys.entryOf` — the map from names to sectors that a directory file stands for;
* `Pintos.Filesys.DirOk` — the parent link reads as in use and the names in use are distinct;
* `Pintos.Filesys.DirRun` — runs of `dir_add` and `dir_remove` on one directory, beside the map
  that the calls should have made.

Main results:

* `Pintos.Filesys.entryOf_run` — what one call does to the map of a directory with `DirOk`;
* `Pintos.Filesys.DirRun.dirLookup_eq` — **on such a directory `dir_lookup` answers from the map
  model throughout any run** of calls whose names are not `.` or `..`;
* `Pintos.Filesys.dirAdd_of_link_free` — on a directory whose parent link reads as free, `dir_add`
  of a new name writes over the link;
* `Pintos.Filesys.dir_add_overwrites_parent_link` — so a directory fresh from `dir_create` can
  lose both its parent and the entry `dir_add` reported as added.
-/

set_option autoImplicit false

namespace Pintos.Filesys

/-- `NAME_MAX`. -/
def nameMax : ℕ := 14

/-- `struct dir_entry`.  A name is a C string of at most `NAME_MAX` bytes, written here as a string
of that many characters. -/
structure DirEntry where
  inodeSector : ℕ
  name : String
  inUse : Bool
  deriving DecidableEq, Repr

/-- A record of zero bytes, as `inode_create` leaves the records of a new file. -/
def DirEntry.zero : DirEntry := ⟨0, "", false⟩

/-- The inodes as the directory layer reads them: the whole records of the file in each sector,
and `inode_is_dir`. -/
structure FileSys where
  data : ℕ → List DirEntry
  isDir : ℕ → Bool

/-! ### The functions of `directory.c` -/

/-- `inode_write_at (inode, &e, sizeof e, ofs)` at record `ofs`: a write at or past the end of the
file extends it by the record. -/
def writeAt : List DirEntry → ℕ → DirEntry → List DirEntry
  | [], _, e => [e]
  | _ :: l, 0, e => e :: l
  | x :: l, ofs + 1, e => x :: writeAt l ofs e

/-- Writing record `ofs` of the file in `sector`. -/
def FileSys.write (fs : FileSys) (sector ofs : ℕ) (e : DirEntry) : FileSys :=
  { fs with data := fun x => if x = sector then writeAt (fs.data sector) ofs e else fs.data x }

/-- The test of `lookup`: `e.in_use && !strcmp (name, e.name)`. -/
def DirEntry.named (name : String) (e : DirEntry) : Bool := e.inUse && decide (name = e.name)

/-- The loop of `lookup`, from record `ofs` on. -/
def lookupFrom (name : String) : List DirEntry → ℕ → Option (DirEntry × ℕ)
  | [], _ => none
  | e :: l, ofs => if e.named name then some (e, ofs) else lookupFrom name l (ofs + 1)

/-- `lookup (dir, name, &e, &ofs)`: the first record in use with the name, and its offset in
records.  Offset 0 is the parent link, so the scan starts at 1. -/
def lookup (l : List DirEntry) (name : String) : Option (DirEntry × ℕ) :=
  lookupFrom name l.tail 1

/-- `dir_is_empty`: no record after the parent link is in use. -/
def dirIsEmpty (l : List DirEntry) : Bool := l.tail.all fun e => !e.inUse

/-- `dir_lookup (dir, name, &inode)` on the directory in `sector`, as the sector of the inode it
opens.  `e` is what the local `struct dir_entry e` holds before the call: a short read of the
parent link leaves it in place. -/
def dirLookup (fs : FileSys) (sector : ℕ) (name : String) (e : DirEntry) : Option ℕ :=
  if name = "." then some sector
  else if name = ".." then some ((fs.data sector).head?.getD e).inodeSector
  else (lookup (fs.data sector) name).map fun r => r.1.inodeSector

/-- The free-record scan of `dir_add`: the first record not in use, from offset 0, or the end of
the file. -/
def freeSlot (l : List DirEntry) : ℕ := l.findIdx fun e => !e.inUse

/-- `dir_add (dir, name, inode_sector, is_dir)` on the directory in `sector`.  `e` is what the
local `struct dir_entry e` holds before the call: the parent link of an added directory takes its
`name` and `in_use`. -/
def dirAdd (fs : FileSys) (sector : ℕ) (name : String) (inodeSector : ℕ) (isDir : Bool)
    (e : DirEntry) : FileSys × Bool :=
  if name = "" ∨ nameMax < name.length then (fs, false)
  else if (lookup (fs.data sector) name).isSome then (fs, false)
  else
    let fs := if isDir then fs.write inodeSector 0 { e with inodeSector := sector } else fs
    (fs.write sector (freeSlot (fs.data sector)) ⟨inodeSector, name, true⟩, true)

/-- `dir_remove (dir, name)` on the directory in `sector`: a directory that still has an entry in
use is not removed. -/
def dirRemove (fs : FileSys) (sector : ℕ) (name : String) : FileSys × Bool :=
  match lookup (fs.data sector) name with
  | none => (fs, false)
  | some (e, ofs) =>
      if fs.isDir e.inodeSector && !dirIsEmpty (fs.data e.inodeSector) then (fs, false)
      else (fs.write sector ofs { e with inUse := false }, true)

/-- `dir_create (sector, entry_cnt)`: a directory file of `entry_cnt` zeroed records whose first
record links to the directory itself.  `e` is what the local `struct dir_entry e` holds: only its
`inode_sector` is set. -/
def dirCreate (fs : FileSys) (sector entryCnt : ℕ) (e : DirEntry) : FileSys × Bool :=
  let fs : FileSys :=
    { data := fun x => if x = sector then List.replicate entryCnt .zero else fs.data x
      isDir := fun x => if x = sector then true else fs.isDir x }
  (fs.write sector 0 { e with inodeSector := sector }, true)

/-! ### Records written into a file -/

section Write

variable {p : DirEntry → Bool} {R : DirEntry → DirEntry → Prop}

@[simp] theorem FileSys.write_data_self (fs : FileSys) (sector ofs : ℕ) (e : DirEntry) :
    (fs.write sector ofs e).data sector = writeAt (fs.data sector) ofs e := by
  simp [FileSys.write]

theorem FileSys.write_data_of_ne (fs : FileSys) {sector x : ℕ} (ofs : ℕ) (e : DirEntry)
    (hx : x ≠ sector) : (fs.write sector ofs e).data x = fs.data x := by
  simp [FileSys.write, hx]

theorem mem_writeAt : ∀ {l : List DirEntry} {ofs : ℕ} {e y : DirEntry},
    y ∈ writeAt l ofs e → y ∈ l ∨ y = e
  | [], _, _, _, h => .inr (List.mem_singleton.1 h)
  | _ :: _, 0, _, _, h => (List.mem_cons.1 h).elim .inr fun h => .inl (List.mem_cons_of_mem _ h)
  | _ :: _, _ + 1, _, _, h => (List.mem_cons.1 h).elim (fun h => .inl (h ▸ List.mem_cons_self _ _))
      fun h => (mem_writeAt h).imp (List.mem_cons_of_mem _) id

/-- A write that neither removes nor adds a match leaves the first match where it was. -/
theorem find?_writeAt_of_not : ∀ {l : List DirEntry} {ofs : ℕ} {e : DirEntry},
    (∀ y ∈ l[ofs]?, p y = false) → p e = false → (writeAt l ofs e).find? p = l.find? p
  | [], _, _, _, he => by simp [writeAt, he]
  | x :: l, 0, _, hx, he => by simp [writeAt, List.find?_cons, he, hx x (by simp)]
  | x :: l, ofs + 1, _, hx, he => by
      simp only [writeAt, List.find?_cons]
      rw [find?_writeAt_of_not (by simpa using hx) he]

/-- A match written into a file that had none is the first match. -/
theorem find?_writeAt_of_none : ∀ {l : List DirEntry} {ofs : ℕ} {e : DirEntry},
    l.find? p = none → p e = true → (writeAt l ofs e).find? p = some e
  | [], _, _, _, he => by simp [writeAt, he]
  | _ :: _, 0, _, _, he => by simp [writeAt, he]
  | x :: l, ofs + 1, _, hl, he => by
      rw [List.find?_eq_none] at hl
      have hx : p x = false := by simpa using hl x (List.mem_cons_self _ _)
      have hl' : l.find? p = none :=
        List.find?_eq_none.2 fun y hy => hl y (List.mem_cons_of_mem _ hy)
      simp only [writeAt, List.find?_cons, hx, find?_writeAt_of_none hl' he]

theorem pairwise_writeAt : ∀ {l : List DirEntry} {ofs : ℕ} {e : DirEntry},
    l.Pairwise R → (∀ y ∈ l, R e y ∧ R y e) → (writeAt l ofs e).Pairwise R
  | [], _, _, _, _ => List.pairwise_singleton _ _
  | _ :: _, 0, _, hl, he =>
      List.pairwise_cons.2 ⟨fun y hy => (he y (List.mem_cons_of_mem _ hy)).1, hl.of_cons⟩
  | x :: _, _ + 1, _, hl, he => by
      refine List.pairwise_cons.2 ⟨fun y hy => ?_, pairwise_writeAt hl.of_cons
        fun y hy => he y (List.mem_cons_of_mem _ hy)⟩
      rcases mem_writeAt hy with hy | rfl
      · exact List.rel_of_pairwise_cons hl hy
      · exact (he x (List.mem_cons_self _ _)).2

end Write

/-! ### `lookup` and the map a directory stands for -/

section Lookup

variable {name : String} {l : List DirEntry} {e : DirEntry} {ofs i : ℕ}

theorem map_fst_lookupFrom (name : String) :
    ∀ (l : List DirEntry) (ofs : ℕ), (lookupFrom name l ofs).map Prod.fst = l.find? (·.named name)
  | [], _ => rfl
  | x :: l, ofs => by
      rw [lookupFrom, List.find?_cons]
      cases x.named name
      · exact map_fst_lookupFrom name l (ofs + 1)
      · rfl

theorem lookupFrom_eq_some : ∀ {l : List DirEntry} {ofs : ℕ},
    lookupFrom name l ofs = some (e, i) → ofs ≤ i ∧ l[i - ofs]? = some e ∧ e.named name = true
  | [], _, h => by cases h
  | x :: l, ofs, h => by
      rw [lookupFrom] at h
      split_ifs at h with hx
      · cases h; simpa using hx
      · obtain ⟨hle, hi, hn⟩ := lookupFrom_eq_some h
        refine ⟨by omega, ?_, hn⟩
        rw [show i - ofs = i - (ofs + 1) + 1 by omega]
        simpa using hi

theorem named_iff : e.named name = true ↔ e.inUse = true ∧ e.name = name := by
  simp only [DirEntry.named, Bool.and_eq_true, decide_eq_true_eq]
  exact and_congr_right fun _ => eq_comm

/-- Two records in use do not carry one name. -/
def Distinct (a b : DirEntry) : Prop := a.inUse = true → b.inUse = true → a.name ≠ b.name

/-- Clearing the record `lookup` found leaves no record in use with its name, where names in use
are distinct. -/
theorem find?_writeAt_lookupFrom : ∀ {l : List DirEntry} {ofs : ℕ}, l.Pairwise Distinct →
    lookupFrom name l ofs = some (e, i) →
      (writeAt l (i - ofs) { e with inUse := false }).find? (·.named name) = none
  | [], _, _, h => by cases h
  | x :: l, ofs, hl, h => by
      rw [lookupFrom] at h
      split_ifs at h with hx
      · cases h
        rw [Nat.sub_self, writeAt, List.find?_cons,
          show ({ e with inUse := false } : DirEntry).named name = false by simp [DirEntry.named]]
        refine List.find?_eq_none.2 fun y hy hny => ?_
        rw [named_iff] at hx hny
        exact List.rel_of_pairwise_cons hl hy hx.1 hny.1 (hx.2.trans hny.2.symm)
      · obtain ⟨hle, -⟩ := lookupFrom_eq_some h
        rw [Bool.not_eq_true] at hx
        rw [show i - ofs = i - (ofs + 1) + 1 by omega, writeAt, List.find?_cons, hx]
        exact find?_writeAt_lookupFrom hl.of_cons h

/-- The map from names to sectors that a directory file stands for: where `dir_lookup` leads a
name other than `.` and `..`. -/
def entryOf (l : List DirEntry) (name : String) : Option ℕ :=
  (l.tail.find? (·.named name)).map DirEntry.inodeSector

theorem lookup_eq_none_iff : lookup l name = none ↔ l.tail.find? (·.named name) = none := by
  rw [lookup, ← map_fst_lookupFrom name l.tail 1, Option.map_eq_none']

theorem dirLookup_of_ne {fs : FileSys} {sector : ℕ} (h₁ : name ≠ ".") (h₂ : name ≠ "..") :
    dirLookup fs sector name e = entryOf (fs.data sector) name := by
  rw [dirLookup, if_neg h₁, if_neg h₂, entryOf, lookup, ← map_fst_lookupFrom, Option.map_map]
  rfl

end Lookup

/-! ### A directory on which the code acts as a map -/

/-- A directory file on which `directory.c` acts as a map: the parent link reads as in use, so that
the free-record scan of `dir_add` passes it, and no two records in use after it carry one name. -/
structure DirOk (l : List DirEntry) : Prop where
  link_inUse : ∃ link rest, l = link :: rest ∧ link.inUse = true
  names_distinct : l.tail.Pairwise Distinct

/-- A directory from `dir_create` whose parent link's junk `in_use` byte reads as true has
`DirOk`. -/
theorem dirOk_dirCreate (fs : FileSys) (d n : ℕ) {e : DirEntry} (h : e.inUse = true) :
    DirOk ((dirCreate fs d n e).1.data d) := by
  have hdata : (dirCreate fs d n e).1.data d =
      { e with inodeSector := d } :: List.replicate (n - 1) .zero := by
    cases n <;> simp [dirCreate, writeAt]
  rw [hdata]
  exact ⟨⟨_, _, rfl, h⟩, List.pairwise_replicate.2 (.inr fun h => by simp [DirEntry.zero] at h)⟩

section Calls

variable {fs : FileSys} {d s : ℕ} {name : String} {isDir : Bool} {e : DirEntry}

theorem dirAdd_eq_of_false (h : (dirAdd fs d name s isDir e).2 = false) :
    (dirAdd fs d name s isDir e).1 = fs := by
  unfold dirAdd at h ⊢
  split_ifs at h ⊢
  · rfl
  · rfl

theorem dirAdd_data_of_true (hs : isDir = true → s ≠ d) (h : (dirAdd fs d name s isDir e).2 = true) :
    lookup (fs.data d) name = none ∧
      (dirAdd fs d name s isDir e).1.data d =
        writeAt (fs.data d) (freeSlot (fs.data d)) ⟨s, name, true⟩ := by
  have hd : (if isDir then fs.write s 0 { e with inodeSector := d } else fs).data d = fs.data d := by
    split_ifs with hi
    · exact fs.write_data_of_ne _ _ (hs hi).symm
    · rfl
  unfold dirAdd at h ⊢
  by_cases hv : name = "" ∨ nameMax < name.length
  · rw [if_pos hv] at h; cases h
  by_cases hl : (lookup (fs.data d) name).isSome
  · rw [if_neg hv, if_pos hl] at h; cases h
  rw [if_neg hv, if_neg hl]
  exact ⟨Option.not_isSome_iff_eq_none.1 hl, by simp only [FileSys.write_data_self, hd]⟩

theorem dirRemove_eq_of_false (h : (dirRemove fs d name).2 = false) : (dirRemove fs d name).1 = fs := by
  unfold dirRemove at h ⊢
  cases hl : lookup (fs.data d) name with
  | none => rfl
  | some r =>
      obtain ⟨r, ofs⟩ := r
      rw [hl] at h
      dsimp only at h ⊢
      split_ifs at h ⊢
      rfl

theorem dirRemove_data_of_true (h : (dirRemove fs d name).2 = true) :
    ∃ r, lookup (fs.data d) name = some r ∧
      (dirRemove fs d name).1.data d = writeAt (fs.data d) r.2 { r.1 with inUse := false } := by
  unfold dirRemove at h ⊢
  cases hl : lookup (fs.data d) name with
  | none => rw [hl] at h; cases h
  | some r =>
      obtain ⟨r, ofs⟩ := r
      rw [hl] at h
      dsimp only at h ⊢
      split_ifs at h ⊢
      exact ⟨(r, ofs), rfl, FileSys.write_data_self _ _ _ _⟩

theorem freeSlot_cons_of_inUse {link : DirEntry} (l : List DirEntry) (h : link.inUse = true) :
    freeSlot (link :: l) = freeSlot l + 1 := by
  simp [freeSlot, List.findIdx_cons, h]

theorem inUse_of_freeSlot : ∀ {l : List DirEntry}, ∀ y ∈ l[freeSlot l]?, y.inUse = false
  | [], _, h => by simp at h
  | x :: l, y, h => by
      cases hx : x.inUse
      · simp_all [freeSlot, List.findIdx_cons]
      · rw [freeSlot_cons_of_inUse l hx] at h
        exact inUse_of_freeSlot y (by simpa using h)

/-- **What `dir_add` and `dir_remove` do to the map of a directory with `DirOk`**: a call that
succeeds binds or unbinds its name and changes no other, the parent link stays, and so does
`DirOk`. -/
theorem entryOf_dirAdd {link : DirEntry} {rest : List DirEntry} (hl : fs.data d = link :: rest)
    (hu : link.inUse = true) (hn : rest.Pairwise Distinct) (hs : isDir = true → s ≠ d)
    (h : (dirAdd fs d name s isDir e).2 = true) :
    (dirAdd fs d name s isDir e).1.data d =
        link :: writeAt rest (freeSlot rest) ⟨s, name, true⟩ ∧
      (∀ n, entryOf ((dirAdd fs d name s isDir e).1.data d) n =
        if n = name then some s else entryOf (fs.data d) n) ∧
      (writeAt rest (freeSlot rest) ⟨s, name, true⟩).Pairwise Distinct := by
  obtain ⟨hnone, hdata⟩ := dirAdd_data_of_true hs h
  rw [hl, freeSlot_cons_of_inUse rest hu, writeAt] at hdata
  rw [lookup_eq_none_iff, hl, List.tail_cons] at hnone
  have hfresh : ∀ y ∈ rest, y.inUse = true → y.name ≠ name := fun y hy hu hny =>
    List.find?_eq_none.1 hnone y hy (named_iff.2 ⟨hu, hny⟩)
  refine ⟨hdata, fun n => ?_, pairwise_writeAt hn fun y hy =>
    ⟨fun _ hy' hny => hfresh y hy hy' hny.symm, fun hy' _ hny => hfresh y hy hy' hny⟩⟩
  rw [entryOf, hdata, entryOf, hl]
  split_ifs with hn
  · subst hn
    rw [List.tail_cons, find?_writeAt_of_none hnone (by simp [DirEntry.named])]
    rfl
  · rw [List.tail_cons, List.tail_cons,
      find?_writeAt_of_not (fun y hy => by simp [DirEntry.named, inUse_of_freeSlot y hy])
        (by simp [DirEntry.named, hn])]

theorem entryOf_dirRemove {link : DirEntry} {rest : List DirEntry} (hl : fs.data d = link :: rest)
    (hn : rest.Pairwise Distinct) (h : (dirRemove fs d name).2 = true) :
    ∃ ofs x, (dirRemove fs d name).1.data d = link :: writeAt rest ofs x ∧ x.inUse = false ∧
      (∀ n, entryOf ((dirRemove fs d name).1.data d) n =
        if n = name then none else entryOf (fs.data d) n) := by
  obtain ⟨⟨r, i⟩, hr, hdata⟩ := dirRemove_data_of_true h
  rw [lookup, hl, List.tail_cons] at hr
  obtain ⟨hle, hri, hnamed⟩ := lookupFrom_eq_some hr
  rw [hl, show i = i - 1 + 1 by omega, writeAt] at hdata
  refine ⟨i - 1, _, hdata, rfl, fun n => ?_⟩
  rw [entryOf, hdata, entryOf, hl, List.tail_cons, List.tail_cons]
  split_ifs with hn'
  · subst hn'
    rw [find?_writeAt_lookupFrom hn hr]
    rfl
  · rw [named_iff] at hnamed
    rw [find?_writeAt_of_not (fun y hy => by
        obtain rfl : y = r := Option.some.inj (hri.symm.trans hy).symm
        simp [DirEntry.named, hnamed.2, hn']) (by simp [DirEntry.named])]

end Calls

/-! ### Runs of calls on one directory -/

/-- A call on a directory: `dir_add`, with the bytes its local `e` holds, or `dir_remove`. -/
inductive DirOp
  | add (name : String) (inodeSector : ℕ) (isDir : Bool) (e : DirEntry)
  | remove (name : String)

/-- The call on the directory in `sector`, and what it returns. -/
def DirOp.run (sector : ℕ) (fs : FileSys) : DirOp → FileSys × Bool
  | .add name inodeSector isDir e => dirAdd fs sector name inodeSector isDir e
  | .remove name => dirRemove fs sector name

/-- What a call should do to a directory seen as a map from names to sectors: a successful
`dir_add` binds its name, a successful `dir_remove` unbinds it, and a failed call does nothing. -/
def DirOp.apply (op : DirOp) (ok : Bool) (m : String → Option ℕ) : String → Option ℕ :=
  if ok then
    match op with
    | .add name inodeSector _ _ => fun n => if n = name then some inodeSector else m n
    | .remove name => fun n => if n = name then none else m n
  else m

theorem DirOp.apply_congr (op : DirOp) (ok : Bool) {m₁ m₂ : String → Option ℕ} {n : String}
    (h : m₁ n = m₂ n) : op.apply ok m₁ n = op.apply ok m₂ n := by
  cases ok <;> cases op <;> simp [DirOp.apply, h]

/-- A call that does not add the directory into itself, whose effect the map model states. -/
def DirOp.Plain (sector : ℕ) : DirOp → Prop
  | .add _ inodeSector isDir _ => isDir = true → inodeSector ≠ sector
  | .remove _ => True

/-- One call on a directory with `DirOk`: the map moves as the model says, the parent link stays,
and `DirOk` holds after it. -/
theorem entryOf_run {fs : FileSys} {d : ℕ} {op : DirOp} (h : DirOk (fs.data d))
    (hp : op.Plain d) :
    DirOk ((op.run d fs).1.data d) ∧ ((op.run d fs).1.data d).head? = (fs.data d).head? ∧
      entryOf ((op.run d fs).1.data d) = op.apply (op.run d fs).2 (entryOf (fs.data d)) := by
  obtain ⟨⟨link, rest, hl, hu⟩, hn⟩ := h
  rw [hl, List.tail_cons] at hn
  cases hok : (op.run d fs).2
  · have he : (op.run d fs).1 = fs := by
      cases op with
      | add => exact dirAdd_eq_of_false hok
      | remove => exact dirRemove_eq_of_false hok
    rw [he, hl]
    exact ⟨⟨⟨link, rest, rfl, hu⟩, hn⟩, rfl, rfl⟩
  · cases op with
    | add name s isDir e =>
        dsimp only [DirOp.run] at hok ⊢
        obtain ⟨hdata, hmap, hpw⟩ := entryOf_dirAdd hl hu hn hp hok
        rw [hdata] at hmap ⊢
        exact ⟨⟨⟨link, _, rfl, hu⟩, hpw⟩, by rw [hl]; rfl, funext hmap⟩
    | remove name =>
        dsimp only [DirOp.run] at hok ⊢
        obtain ⟨ofs, x, hdata, hx, hmap⟩ := entryOf_dirRemove hl hn hok
        rw [hdata] at hmap ⊢
        refine ⟨⟨⟨link, _, rfl, hu⟩, pairwise_writeAt hn fun y _ => ?_⟩, by rw [hl]; rfl,
          funext hmap⟩
        exact ⟨fun h => absurd h (by simp [hx]), fun _ h => absurd h (by simp [hx])⟩

/-- The states that a run of plain calls on the directory in `sector` reaches from `fs₀`, beside
the map that the calls should have made of the directory's map at `fs₀`. -/
inductive DirRun (sector : ℕ) (fs₀ : FileSys) : FileSys → (String → Option ℕ) → Prop
  | start : DirRun sector fs₀ fs₀ (entryOf (fs₀.data sector))
  | step {fs : FileSys} {m : String → Option ℕ} (op : DirOp) :
      DirRun sector fs₀ fs m → op.Plain sector →
      DirRun sector fs₀ (op.run sector fs).1 (op.apply (op.run sector fs).2 m)

/-- Along a run from a directory with `DirOk`, the directory keeps `DirOk` and its parent link,
and its map agrees with the map model on every name but `.` and `..`. -/
theorem DirRun.entryOf_eq {d : ℕ} {fs₀ fs : FileSys} {m : String → Option ℕ}
    (hr : DirRun d fs₀ fs m) (h₀ : DirOk (fs₀.data d)) :
    DirOk (fs.data d) ∧ (fs.data d).head? = (fs₀.data d).head? ∧
      ∀ n, n ≠ "." → n ≠ ".." → entryOf (fs.data d) n = m n := by
  induction hr with
  | start => exact ⟨h₀, rfl, fun _ _ _ => rfl⟩
  | step op _ hp ih =>
      obtain ⟨h, hhead, hm⟩ := ih
      obtain ⟨h', hhead', hmap⟩ := entryOf_run h hp
      exact ⟨h', hhead'.trans hhead, fun n h₁ h₂ => by rw [hmap]; exact op.apply_congr _ (hm n h₁ h₂)⟩

/-- **On a directory whose parent link reads as in use and whose names are distinct, `dir_lookup`
answers from the map model throughout any run of `dir_add` and `dir_remove`**: `..` keeps its
sector, and every other name but `.` is bound exactly as the successful calls bound it. -/
theorem DirRun.dirLookup_eq {d : ℕ} {fs₀ fs : FileSys} {m : String → Option ℕ}
    (hr : DirRun d fs₀ fs m) (h₀ : DirOk (fs₀.data d)) :
    DirOk (fs.data d) ∧ (∀ e, dirLookup fs d ".." e = dirLookup fs₀ d ".." e) ∧
      ∀ (n : String) (e : DirEntry), n ≠ "." → n ≠ ".." → dirLookup fs d n e = m n := by
  obtain ⟨h, hhead, hm⟩ := hr.entryOf_eq h₀
  exact ⟨h, fun e => by simp [dirLookup, hhead],
    fun n e h₁ h₂ => (dirLookup_of_ne h₁ h₂).trans (hm n h₁ h₂)⟩

/-- A directory from `dir_create` whose parent link reads as in use, after `dir_add` of a file. -/
theorem dirLookup_after_add :
    dirLookup (DirOp.run 20 (dirCreate ⟨fun _ => [], fun _ => false⟩ 20 2 ⟨0, "", true⟩).1
      (.add "a" 7 false .zero)).1 20 "a" .zero = some 7 := by
  rw [(DirRun.dirLookup_eq (.step (.add "a" 7 false .zero) .start (by intro h; cases h))
    (dirOk_dirCreate _ 20 2 rfl)).2.2 "a" .zero (by decide) (by decide)]
  rfl

/-! ### A parent link that reads as free -/

/-- **On a directory whose parent link reads as free, `dir_add` of a new file writes its entry over
the link.** -/
theorem dirAdd_of_link_free {fs : FileSys} {d s : ℕ} {name : String} {e link : DirEntry}
    {rest : List DirEntry} (hl : fs.data d = link :: rest) (hu : link.inUse = false)
    (hv : name ≠ "" ∧ name.length ≤ nameMax) (hn : lookup (fs.data d) name = none) :
    dirAdd fs d name s false e = (fs.write d 0 ⟨s, name, true⟩, true) := by
  have h0 : freeSlot (fs.data d) = 0 := by simp [freeSlot, hl, List.findIdx_cons, hu]
  rw [dirAdd, if_neg (not_or.2 ⟨hv.1, Nat.not_lt.2 hv.2⟩), hn, if_neg (by simp)]
  simp only [Bool.false_eq_true, ↓reduceIte, h0]

/-- A directory fresh from `dir_create` whose parent link's junk `in_use` byte reads as false:
`dir_add` of a file reports success, the file is not found, and `..` leads to the file. -/
theorem dir_add_overwrites_parent_link (fs : FileSys) (junk : String) (e : DirEntry) :
    (dirAdd (dirCreate fs 20 2 ⟨0, junk, false⟩).1 20 "a" 7 false e).2 = true ∧
      dirLookup (dirAdd (dirCreate fs 20 2 ⟨0, junk, false⟩).1 20 "a" 7 false e).1 20 "a" e =
        none ∧
      dirLookup (dirAdd (dirCreate fs 20 2 ⟨0, junk, false⟩).1 20 "a" 7 false e).1 20 ".." e =
        some 7 := by
  have hl : (dirCreate fs 20 2 ⟨0, junk, false⟩).1.data 20 = ⟨20, junk, false⟩ :: [.zero] := rfl
  have hadd : dirAdd (dirCreate fs 20 2 ⟨0, junk, false⟩).1 20 "a" 7 false e = (_, true) :=
    dirAdd_of_link_free hl rfl (by decide) rfl
  rw [hadd]
  exact ⟨rfl, rfl, rfl⟩

end Pintos.Filesys
