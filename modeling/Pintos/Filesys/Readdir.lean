import Pintos.Filesys.Handles

/-!
**Listing a directory: `dir_readdir`, and its agreement with `dir_is_empty` and `lookup`.**

A directory file is a sequence of `struct dir_entry` records, possibly followed by a partial
record; a read of the partial record comes back short, so that the file, as the scans see it, is
the list of its whole records.  `dir_readdir`, `dir_is_empty` and `lookup` each scan the records
from slot 1, past the parent link, until a short read: `dir_readdir` from the `pos` of its
handle, which `dir_open` sets to slot 1 and each call moves past the records it reads.

The three scans agree on what a directory holds: the names of its records in use from slot 1
on, in slot order (`Pintos.Filesys.dirNames`).  Successive `dir_readdir` calls on a fresh handle
return these names one by one and then `false`; `dir_is_empty` is true exactly when there are
none; and `dir_lookup` of a name other than `.` and `..` succeeds exactly when the name is among
them, opening the sector of the record of its first occurrence.

Main definitions:

* `Pintos.Filesys.dirReaddir`, `Pintos.Filesys.readdirCalls` — `dir_readdir`, and successive
  calls on one handle;
* `Pintos.Filesys.dirNames` — the names of the records in use from slot 1 on.

Main results:

* `Pintos.Filesys.readdirCalls_eq` — what successive calls return from any `pos`;
* `Pintos.Filesys.dir_scans_agree` — **`dir_readdir`, `dir_is_empty` and `dir_lookup` agree on
  the names of a directory**;
* `Pintos.Filesys.readdir_lists_bound_names` — **along any run of `dir_add` and `dir_remove`,
  `dir_readdir` lists each name the map model of `Pintos.Filesys.DirRun` binds, once**.
-/

set_option autoImplicit false

namespace Pintos.Filesys

/-- The loop of `dir_readdir` over the records from `pos` on: `pos` moves past each record read,
and the loop stops after the first one in use, whose name it returns. -/
def readdirLoop : List DirEntry → ℕ → Option String × ℕ
  | [], pos => (none, pos)
  | e :: l, pos => if e.inUse then (some e.name, pos + 1) else readdirLoop l (pos + 1)

/-- `dir_readdir (dir, name)`: the name it copies out, `none` when it returns `false`, and the
handle with its new `pos`.  A name in use holds at most `NAME_MAX` characters, so the `strlcpy`
copies all of it. -/
def dirReaddir (fs : FileSys) (dir : Dir) : Option String × Dir :=
  ((readdirLoop ((fs.data dir.inode).drop dir.pos) dir.pos).1,
    { dir with pos := (readdirLoop ((fs.data dir.inode).drop dir.pos) dir.pos).2 })

/-- `k` successive calls of `dir_readdir` on one handle. -/
def readdirCalls (fs : FileSys) : Dir → ℕ → List (Option String)
  | _, 0 => []
  | dir, k + 1 => (dirReaddir fs dir).1 :: readdirCalls fs (dirReaddir fs dir).2 k

/-- The records in use from slot 1 on. -/
def inUseEntries (l : List DirEntry) : List DirEntry := l.tail.filter (·.inUse)

/-- The names of a directory: those of its records in use from slot 1 on, in slot order. -/
def dirNames (l : List DirEntry) : List String := (inUseEntries l).map (·.name)

/-! ### `dir_readdir` -/

/-- One call returns the first name in use from `pos` on, and moves `pos` past its record, so
that the names from the new `pos` are the ones after it. -/
theorem readdirLoop_spec : ∀ (m : List DirEntry) (pos : ℕ),
    (readdirLoop m pos).1 = ((m.filter (·.inUse)).map (·.name)).head? ∧
      ∃ j, (readdirLoop m pos).2 = pos + j ∧
        ((m.drop j).filter (·.inUse)).map (·.name) = ((m.filter (·.inUse)).map (·.name)).tail
  | [], pos => ⟨rfl, 0, rfl, rfl⟩
  | e :: m, pos => by
      rw [readdirLoop]
      cases he : e.inUse
      · obtain ⟨h₁, j, h₂, h₃⟩ := readdirLoop_spec m (pos + 1)
        simp only [Bool.false_eq_true, if_false]
        exact ⟨by simpa [he] using h₁, j + 1, by omega, by simpa [he] using h₃⟩
      · exact ⟨by simp [he], 1, rfl, by simp [he]⟩

/-- **Successive `dir_readdir` calls** from a handle at `pos` return the names in use from `pos`
on, the `i`-th call the `i`-th name, and `false` once they are all returned. -/
theorem readdirCalls_eq (fs : FileSys) : ∀ (k : ℕ) (dir : Dir),
    readdirCalls fs dir k = (List.range k).map
      fun i => (((fs.data dir.inode).drop dir.pos |>.filter (·.inUse)).map (·.name))[i]?
  | 0, _ => rfl
  | k + 1, dir => by
      obtain ⟨h₁, j, h₂, h₃⟩ := readdirLoop_spec ((fs.data dir.inode).drop dir.pos) dir.pos
      rw [readdirCalls, readdirCalls_eq fs k, List.range_succ_eq_map, List.map_cons, List.map_map]
      refine congrArg₂ _ (by rw [dirReaddir, h₁, List.head?_eq_getElem?]) (List.map_congr_left ?_)
      intro i _
      simp only [dirReaddir, Function.comp, h₂, ← List.drop_drop, h₃, List.getElem?_tail]

/-- From a handle fresh from `dir_open`, the `i`-th call returns the `i`-th name of the
directory. -/
theorem readdirCalls_dirOpen (fs : FileSys) (sector k : ℕ) :
    readdirCalls fs (dirOpen sector) k =
      (List.range k).map (fun i => (dirNames (fs.data sector))[i]?) := by
  rw [readdirCalls_eq]
  simp only [dirOpen, List.drop_one]
  rfl

/-! ### `dir_is_empty` and `lookup` -/

theorem dirIsEmpty_iff (l : List DirEntry) : dirIsEmpty l = true ↔ dirNames l = [] := by
  simp [dirIsEmpty, dirNames, inUseEntries, List.filter_eq_nil_iff]

/-- A name is bound in the map of a directory exactly when it is among its names. -/
theorem isSome_entryOf_iff (l : List DirEntry) (n : String) :
    (entryOf l n).isSome ↔ n ∈ dirNames l := by
  simp [entryOf, dirNames, inUseEntries, List.find?_isSome, named_iff, and_assoc]

theorem length_dirNames_le (l : List DirEntry) : (dirNames l).length ≤ l.length :=
  calc (dirNames l).length = (l.tail.filter (·.inUse)).length := List.length_map _ _
    _ ≤ l.tail.length := List.length_filter_le _ _
    _ ≤ l.length := by simp

/-- On a directory with `DirOk` no name is listed twice. -/
theorem DirOk.nodup_dirNames {l : List DirEntry} (h : DirOk l) : (dirNames l).Nodup :=
  List.pairwise_map.2 <| (h.names_distinct.filter _).imp_of_mem fun ha hb hab =>
    hab (List.mem_filter.1 ha).2 (List.mem_filter.1 hb).2

/-- The first record named `n` is the one at the first occurrence of `n` among the names. -/
theorem find?_name_eq (n : String) : ∀ L : List DirEntry,
    L.find? (fun x => x.name = n) = L[(L.map (·.name)).indexOf n]?
  | [] => rfl
  | x :: L => by
      by_cases h : x.name = n
      · rw [List.find?_cons_of_pos _ (by simpa using h), List.map_cons, List.indexOf_cons_eq _ h,
          List.getElem?_cons_zero]
      · rw [List.find?_cons_of_neg _ (by simpa using h), List.map_cons, List.indexOf_cons_ne _ h,
          find?_name_eq n L, Nat.succ_eq_add_one, List.getElem?_cons_succ]

/-- `dir_lookup` of a name other than `.` and `..` opens the sector of the first record in use
from slot 1 on that carries the name. -/
theorem dirLookup_eq_indexOf {fs : FileSys} {sector : ℕ} {n : String} (e : DirEntry)
    (h₁ : n ≠ ".") (h₂ : n ≠ "..") :
    dirLookup fs sector n e =
      ((inUseEntries (fs.data sector))[(dirNames (fs.data sector)).indexOf n]?).map
        (·.inodeSector) := by
  rw [dirLookup_of_ne h₁ h₂, entryOf, dirNames, ← find?_name_eq, inUseEntries, List.find?_filter]
  congr 2
  funext x
  simp only [DirEntry.named, @eq_comm _ n x.name]
  simp

/-- **`dir_readdir`, `dir_is_empty` and `dir_lookup` agree on the names of a directory**: the
names of its records in use from slot 1 on, in slot order.  The `i`-th `dir_readdir` call on a
handle fresh from `dir_open` returns the `i`-th name, and `false` once all are returned;
`dir_is_empty` is true exactly when there is none; and `dir_lookup` of a name `n` other than `.`
and `..` succeeds exactly when `n` is among them, and opens the sector of the record of its first
occurrence. -/
theorem dir_scans_agree (fs : FileSys) (sector k : ℕ) (n : String) (e : DirEntry)
    (h₁ : n ≠ ".") (h₂ : n ≠ "..") :
    readdirCalls fs (dirOpen sector) k =
        (List.range k).map (fun i => (dirNames (fs.data sector))[i]?) ∧
      (dirIsEmpty (fs.data sector) = true ↔ dirNames (fs.data sector) = []) ∧
      ((dirLookup fs sector n e).isSome ↔ n ∈ dirNames (fs.data sector)) ∧
      dirLookup fs sector n e =
        ((inUseEntries (fs.data sector))[(dirNames (fs.data sector)).indexOf n]?).map
          (·.inodeSector) :=
  ⟨readdirCalls_dirOpen fs sector k, dirIsEmpty_iff _,
    by rw [dirLookup_of_ne h₁ h₂, isSome_entryOf_iff], dirLookup_eq_indexOf e h₁ h₂⟩

/-- A root directory with `a` in slot 1, a free slot 2 and `b` in slot 3: three `dir_readdir`
calls return `a`, `b` and `false`, and `b` is found in sector 6. -/
theorem dir_scans_agree_example :
    ("b" ≠ "." ∧ "b" ≠ "..") ∧
    let fs : FileSys := ⟨fun _ => [⟨1, "", true⟩, ⟨5, "a", true⟩, ⟨0, "", false⟩, ⟨6, "b", true⟩],
      fun _ => true⟩
    readdirCalls fs (dirOpen 1) 3 = (List.range 3).map (fun i => (dirNames (fs.data 1))[i]?) ∧
      (dirIsEmpty (fs.data 1) = true ↔ dirNames (fs.data 1) = []) ∧
      ((dirLookup fs 1 "b" .zero).isSome ↔ "b" ∈ dirNames (fs.data 1)) ∧
      dirLookup fs 1 "b" .zero =
        ((inUseEntries (fs.data 1))[(dirNames (fs.data 1)).indexOf "b"]?).map (·.inodeSector) :=
  ⟨⟨by decide, by decide⟩, dir_scans_agree _ 1 3 "b" .zero (by decide) (by decide)⟩

/-! ### Listing a directory along a run -/

/-- The names that `k` successive `dir_readdir` calls on a fresh handle return are the first `k`
names of the directory. -/
theorem filterMap_readdirCalls (fs : FileSys) (sector k : ℕ) :
    (readdirCalls fs (dirOpen sector) k).filterMap id = (dirNames (fs.data sector)).take k := by
  rw [readdirCalls_dirOpen]
  induction k with
  | zero => rfl
  | succ k ih =>
      rw [List.range_succ, List.map_append, List.filterMap_append, ih, List.take_succ]
      cases h : (dirNames (fs.data sector))[k]? <;> simp [h]

/-- **Along any run of `dir_add` and `dir_remove` on a directory with `DirOk`, `dir_readdir` lists
every name the map model binds, and each once**: as many calls on a fresh handle as the directory
has records return no name twice, and return a name other than `.` and `..` exactly when the
successful calls left it bound. -/
theorem readdir_lists_bound_names {d : ℕ} {fs₀ fs : FileSys} {m : String → Option ℕ}
    (hr : DirRun d fs₀ fs m) (h₀ : DirOk (fs₀.data d)) :
    ((readdirCalls fs (dirOpen d) (fs.data d).length).filterMap id).Nodup ∧
      ∀ n, n ≠ "." → n ≠ ".." →
        (n ∈ (readdirCalls fs (dirOpen d) (fs.data d).length).filterMap id ↔ (m n).isSome) := by
  obtain ⟨h, -, hm⟩ := hr.entryOf_eq h₀
  rw [filterMap_readdirCalls, List.take_of_length_le (length_dirNames_le _)]
  exact ⟨h.nodup_dirNames, fun n h₁ h₂ => by rw [← hm n h₁ h₂, isSome_entryOf_iff]⟩

/-- A directory from `dir_create`, after `dir_add` of `a` and `b` and `dir_remove` of `a`: its
records are the parent link, the freed record of `a` and `b`, and `dir_readdir` lists `b` alone. -/
theorem readdir_lists_bound_names_example :
    let fs₀ := (dirCreate ⟨fun _ => [], fun _ => false⟩ 20 4 ⟨0, "", true⟩).1
    let fs₁ := (DirOp.run 20 fs₀ (.add "a" 7 false .zero)).1
    let fs₂ := (DirOp.run 20 fs₁ (.add "b" 8 false .zero)).1
    let fs := (DirOp.run 20 fs₂ (.remove "a")).1
    (readdirCalls fs (dirOpen 20) (fs.data 20).length).filterMap id = ["b"] ∧
      ∃ m, DirRun 20 fs₀ fs m ∧ DirOk (fs₀.data 20) ∧
        ((readdirCalls fs (dirOpen 20) (fs.data 20).length).filterMap id).Nodup ∧
        ∀ n, n ≠ "." → n ≠ ".." →
          (n ∈ (readdirCalls fs (dirOpen 20) (fs.data 20).length).filterMap id ↔ (m n).isSome) := by
  intro fs₀ fs₁ fs₂ fs
  have hr : DirRun 20 fs₀ fs _ := .step (.remove "a")
    (.step (.add "b" 8 false .zero) (.step (.add "a" 7 false .zero) .start (by intro h; cases h))
      (by intro h; cases h)) trivial
  have h₀ : DirOk (fs₀.data 20) := dirOk_dirCreate _ 20 4 rfl
  exact ⟨by decide, _, hr, h₀, readdir_lists_bound_names hr h₀⟩

end Pintos.Filesys
