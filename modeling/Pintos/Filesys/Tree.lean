import Pintos.Filesys.Readdir

/-!
**The volume as a tree of directories.**

`Pintos.Filesys.DirRun.dirLookup_eq` follows one directory through calls made on it.  The calls of
`directory.c` also reach across directories: `dir_create` makes a sector a directory afresh,
`dir_add` of a directory writes the parent link of the directory it adds, and `dir_remove` reads
the directory it would remove to refuse one that is not empty.  This module states what the three
calls are for on a whole volume — each directory a finite map from names to sectors, hanging from
a parent — and proves that the code refines it: from a volume that stands for a tree, every call
returns what the tree's operation returns and leaves a volume that stands for the tree the
operation leaves.

The calls are the ones the bugs of `Pintos.Filesys.dir_add_overwrites_parent_link` do not reach:
the local `struct dir_entry e` of `dir_create` and of a `dir_add` of a directory reads as in use,
and no directory is added into itself.

Main definitions:

* `Pintos.Filesys.DirTree` — the tree, with `DirTree.create`, `DirTree.add` and `DirTree.remove`,
  and `DirTree.walk`, the walk of a path through it;
* `Pintos.Filesys.Refines` — a volume stands for a tree;
* `Pintos.Filesys.VolOp` — a call of `directory.c` on the volume, beside the tree operation it
  refines;
* `Pintos.Filesys.VolRun` — the volumes and trees a run of such calls reaches.

Main results:

* `Pintos.Filesys.VolOp.run_refines` — one call returns what the tree returns and keeps the
  refinement;
* `Pintos.Filesys.volume_follows_tree` — **along every run, every call returns what the tree
  returns, and `dir_lookup` answers from the tree**: `..` from the parent, every other name but
  `.` from the map of the directory;
* `Pintos.Filesys.open_path_follows_tree` — **`dir_open_path` resolves a path by the walk through
  the tree**, for every path whose walk passes only directories.
-/

set_option autoImplicit false

namespace Pintos.Filesys

/-! ### The tree -/

/-- A volume as the directory layer means it: the sectors that hold directories, the bindings of
each directory from names to sectors, and the directory each one hangs from. -/
structure DirTree where
  entries : ℕ → List (String × ℕ)
  parent : ℕ → ℕ
  isDir : ℕ → Bool

namespace DirTree

/-- The sector that directory `d` binds `name` to. -/
def lookupIn (T : DirTree) (d : ℕ) (name : String) : Option ℕ :=
  ((T.entries d).find? (·.1 = name)).map Prod.snd

/-- A new empty directory in `sector`, its own parent until it is added to another. -/
def create (T : DirTree) (sector : ℕ) : DirTree where
  entries x := if x = sector then [] else T.entries x
  parent x := if x = sector then sector else T.parent x
  isDir x := if x = sector then true else T.isDir x

/-- Binding `name` to `s` in directory `d`, refused for an empty or overlong name and for a name
that `d` binds already.  An added directory hangs from `d`. -/
def add (T : DirTree) (d : ℕ) (name : String) (s : ℕ) (isDir : Bool) : DirTree × Bool :=
  if name = "" ∨ nameMax < name.length ∨ (T.lookupIn d name).isSome then (T, false)
  else
    ({ T with
        entries := fun x => if x = d then (name, s) :: T.entries d else T.entries x
        parent := fun x => if isDir = true ∧ x = s then d else T.parent x }, true)

/-- Unbinding `name` in directory `d`, refused for a name that `d` does not bind and for a
directory that is not empty. -/
def remove (T : DirTree) (d : ℕ) (name : String) : DirTree × Bool :=
  match T.lookupIn d name with
  | none => (T, false)
  | some s =>
      if T.isDir s = true ∧ T.entries s ≠ [] then (T, false)
      else
        ({ T with
            entries := fun x => if x = d then (T.entries d).filter (·.1 ≠ name)
              else T.entries x }, true)

/-- Where one token of a path leads from directory `d`: `.` stays, `..` goes to the parent, and any
other name to its binding. -/
def step (T : DirTree) (d : ℕ) (name : String) : Option ℕ :=
  if name = "." then some d else if name = ".." then some (T.parent d) else T.lookupIn d name

/-- The walk of a path's tokens through the tree from directory `d`. -/
def walk (T : DirTree) : ℕ → List String → Option ℕ
  | d, [] => some d
  | d, name :: names => (T.step d name).bind fun d' => T.walk d' names

/-- Every sector in which the walk looks up a token is a directory of the tree. -/
def walksDirs (T : DirTree) : ℕ → List String → Bool
  | _, [] => true
  | d, name :: names => T.isDir d && (T.step d name).all fun d' => T.walksDirs d' names

theorem entries_eq_nil_iff (T : DirTree) (d : ℕ) :
    T.entries d = [] ↔ ∀ n, T.lookupIn d n = none := by
  simp only [lookupIn, Option.map_eq_none', List.find?_eq_none, decide_eq_true_eq]
  exact ⟨fun h n x hx => by simp [h] at hx, fun h => List.eq_nil_iff_forall_not_mem.2 fun x hx =>
    h x.1 x hx rfl⟩

theorem lookupIn_congr {T T' : DirTree} {x : ℕ} (h : T'.entries x = T.entries x) :
    T'.lookupIn x = T.lookupIn x := by
  funext n
  rw [lookupIn, lookupIn, h]

theorem lookupIn_filter (T : DirTree) (d : ℕ) (name n : String) :
    (((T.entries d).filter (·.1 ≠ name)).find? (·.1 = n)).map Prod.snd =
      if n = name then none else T.lookupIn d n := by
  rw [List.find?_filter]
  split_ifs with h
  · subst h
    simp
  · rw [lookupIn]
    congr 2
    funext p
    by_cases hp : p.1 = n
    · simp [hp, h]
    · simp [hp]

section Ops

variable (T : DirTree) (d : ℕ) (name : String) (s : ℕ) (isDir : Bool)

theorem add_isDir : (T.add d name s isDir).1.isDir = T.isDir := by
  unfold add
  split_ifs <;> rfl

theorem add_eq_of_false {T : DirTree} {d : ℕ} {name : String} {s : ℕ} {isDir : Bool}
    (h : (T.add d name s isDir).2 = false) : (T.add d name s isDir).1 = T := by
  unfold add at h ⊢
  split_ifs at h ⊢
  rfl

theorem add_of_true {T : DirTree} {d : ℕ} {name : String} {s : ℕ} {isDir : Bool}
    (h : (T.add d name s isDir).2 = true) :
    (T.add d name s isDir).1 =
      ⟨fun x => if x = d then (name, s) :: T.entries d else T.entries x,
        fun x => if isDir = true ∧ x = s then d else T.parent x, T.isDir⟩ := by
  unfold add at h ⊢
  split_ifs at h ⊢
  rfl

/-- In the directory it is made on, `DirTree.add` does what `DirOp.apply` says of a `dir_add`. -/
theorem lookupIn_add_self (e : DirEntry) :
    (T.add d name s isDir).1.lookupIn d =
      (DirOp.add name s isDir e).apply (T.add d name s isDir).2 (T.lookupIn d) := by
  cases h : (T.add d name s isDir).2
  · rw [add_eq_of_false h]
    rfl
  · rw [add_of_true h]
    funext n
    by_cases hn : n = name
    · simp [lookupIn, DirOp.apply, hn]
    · simp [lookupIn, DirOp.apply, hn, Ne.symm hn]

theorem remove_isDir : (T.remove d name).1.isDir = T.isDir := by
  unfold remove
  split
  · rfl
  · split_ifs <;> rfl

theorem remove_parent : (T.remove d name).1.parent = T.parent := by
  unfold remove
  split
  · rfl
  · split_ifs <;> rfl

theorem remove_entries_of_ne {x : ℕ} (hx : x ≠ d) :
    (T.remove d name).1.entries x = T.entries x := by
  unfold remove
  split
  · rfl
  · split_ifs
    · rfl
    · exact if_neg hx

/-- In the directory it is made on, `DirTree.remove` does what `DirOp.apply` says of a
`dir_remove`. -/
theorem lookupIn_remove_self :
    (T.remove d name).1.lookupIn d =
      (DirOp.remove name).apply (T.remove d name).2 (T.lookupIn d) := by
  unfold remove
  split
  · rfl
  · split_ifs
    · rfl
    · funext n
      simpa only [lookupIn, DirOp.apply, eq_self_iff_true, if_true] using T.lookupIn_filter d name n

end Ops

end DirTree

/-! ### What the calls leave in other sectors -/

section Calls

variable {fs : FileSys} {d s x : ℕ} {name : String} {isDir : Bool} {e : DirEntry}

theorem dirCreate_data (fs : FileSys) (sector n : ℕ) (e : DirEntry) (x : ℕ) :
    (dirCreate fs sector n e).1.data x =
      if x = sector then { e with inodeSector := sector } :: List.replicate (n - 1) .zero
      else fs.data x := by
  split_ifs with h
  · subst h
    cases n <;> simp [dirCreate, writeAt]
  · simp [dirCreate, FileSys.write, h]

theorem dirAdd_isDir : (dirAdd fs d name s isDir e).1.isDir = fs.isDir := by
  unfold dirAdd
  split_ifs <;> cases isDir <;> rfl

theorem dirAdd_data_of_ne (hx : x ≠ d) (h : (dirAdd fs d name s isDir e).2 = true) :
    (dirAdd fs d name s isDir e).1.data x =
      if isDir = true ∧ x = s then writeAt (fs.data s) 0 { e with inodeSector := d }
      else fs.data x := by
  unfold dirAdd at h ⊢
  by_cases hv : name = "" ∨ nameMax < name.length
  · rw [if_pos hv] at h; cases h
  by_cases hl : (lookup (fs.data d) name).isSome
  · rw [if_neg hv, if_pos hl] at h; cases h
  rw [if_neg hv, if_neg hl]
  cases isDir <;> simp [FileSys.write, hx]

theorem dirRemove_isDir : (dirRemove fs d name).1.isDir = fs.isDir := by
  unfold dirRemove
  split
  · rfl
  · split_ifs <;> rfl

theorem dirRemove_data_of_ne (hx : x ≠ d) : (dirRemove fs d name).1.data x = fs.data x := by
  unfold dirRemove
  split
  · rfl
  · split_ifs
    · rfl
    · exact fs.write_data_of_ne _ _ hx

theorem entryOf_eq_map_lookup (l : List DirEntry) (name : String) :
    entryOf l name = (lookup l name).map fun r => r.1.inodeSector := by
  rw [entryOf, lookup, ← map_fst_lookupFrom, Option.map_map]
  rfl

/-- `dir_is_empty` holds of a directory file exactly when its map binds no name. -/
theorem dirIsEmpty_iff_entryOf (l : List DirEntry) :
    dirIsEmpty l = true ↔ ∀ n, entryOf l n = none := by
  simp only [dirIsEmpty_iff, List.eq_nil_iff_forall_not_mem, ← isSome_entryOf_iff,
    Option.not_isSome_iff_eq_none]

end Calls

/-! ### The refinement -/

/-- A directory file stands for the map `m` and the parent `p`: it has `DirOk`, binds the names
that `m` binds, and its parent link holds `p`. -/
structure DirRefines (l : List DirEntry) (m : String → Option ℕ) (p : ℕ) : Prop where
  dirOk : DirOk l
  entryOf_eq : entryOf l = m
  parent_eq : l.head?.map DirEntry.inodeSector = some p

/-- The volume `fs` stands for the tree `T`: the sectors that hold directories agree, and the file
of each directory stands for its map and its parent in `T`. -/
structure Refines (fs : FileSys) (T : DirTree) : Prop where
  isDir_eq : fs.isDir = T.isDir
  dir : ∀ d, T.isDir d = true → DirRefines (fs.data d) (T.lookupIn d) (T.parent d)

section DirRefines

variable {fs : FileSys} {d p : ℕ} {m : String → Option ℕ}

/-- A directory fresh from `dir_create` whose local `e` reads as in use stands for the empty map,
and is its own parent. -/
theorem dirRefines_dirCreate (fs : FileSys) (d n : ℕ) {e : DirEntry} (he : e.inUse = true) :
    DirRefines ((dirCreate fs d n e).1.data d) (fun _ => none) d := by
  refine ⟨dirOk_dirCreate fs d n he, funext fun name => ?_, ?_⟩ <;>
    simp [dirCreate_data, entryOf, List.find?_eq_none, DirEntry.named, DirEntry.zero]

/-- A call on the directory moves its map as `DirOp.apply` says, and keeps its parent. -/
theorem DirRefines.run (op : DirOp) (h : DirRefines (fs.data d) m p) (hp : op.Plain d) :
    DirRefines ((op.run d fs).1.data d) (op.apply (op.run d fs).2 m) p := by
  obtain ⟨hok, hhead, hmap⟩ := entryOf_run h.dirOk hp
  exact ⟨hok, by rw [hmap, h.entryOf_eq], by rw [hhead, h.parent_eq]⟩

/-- Writing a parent link whose bytes read as in use over the link of a directory gives it the new
parent and keeps its map. -/
theorem DirRefines.relink {l : List DirEntry} {e : DirEntry} (h : DirRefines l m p)
    (he : e.inUse = true) (q : ℕ) : DirRefines (writeAt l 0 { e with inodeSector := q }) m q := by
  obtain ⟨⟨link, rest, rfl, -⟩, hn⟩ := h.dirOk
  exact ⟨⟨⟨_, rest, rfl, he⟩, hn⟩, h.entryOf_eq, rfl⟩

/-- On a directory that stands for a map and a parent, `dir_lookup` answers from them. -/
theorem DirRefines.dirLookup_follows (h : DirRefines (fs.data d) m p) (e : DirEntry) :
    dirLookup fs d ".." e = some p ∧
      ∀ n, n ≠ "." → n ≠ ".." → dirLookup fs d n e = m n := by
  refine ⟨?_, fun n h₁ h₂ => by rw [dirLookup_of_ne h₁ h₂, h.entryOf_eq]⟩
  obtain ⟨⟨link, rest, hl, -⟩, -⟩ := h.dirOk
  have hp := h.parent_eq
  rw [hl] at hp
  simpa [dirLookup, hl] using hp

end DirRefines

/-- A call of `directory.c` on the volume: `dir_create`, or `dir_add` and `dir_remove` on the
directory in `dir`, with the bytes the local `e` holds. -/
inductive VolOp
  | create (sector entryCnt : ℕ) (e : DirEntry)
  | add (dir : ℕ) (name : String) (inodeSector : ℕ) (isDir : Bool) (e : DirEntry)
  | remove (dir : ℕ) (name : String)

namespace VolOp

/-- The call, and what it returns. -/
def run (fs : FileSys) : VolOp → FileSys × Bool
  | .create sector entryCnt e => dirCreate fs sector entryCnt e
  | .add d name s isDir e => dirAdd fs d name s isDir e
  | .remove d name => dirRemove fs d name

/-- The operation of the tree that the call stands for. -/
def apply (T : DirTree) : VolOp → DirTree × Bool
  | .create sector _ _ => (T.create sector, true)
  | .add d name s isDir _ => T.add d name s isDir
  | .remove d name => T.remove d name

/-- The call is made on a directory of the tree, its local `e` reads as in use wherever the code
writes it as a parent link, and it adds no directory into itself. -/
def Ok (T : DirTree) : VolOp → Prop
  | .create _ _ e => e.inUse = true
  | .add d _ s isDir e => T.isDir d = true ∧ (isDir = true → s ≠ d ∧ e.inUse = true)
  | .remove d _ => T.isDir d = true

end VolOp

/-! ### One call -/

section Steps

variable {fs : FileSys} {T : DirTree} {d s : ℕ} {name : String} {isDir : Bool} {e : DirEntry}

theorem Refines.create (h : Refines fs T) (sector n : ℕ) (he : e.inUse = true) :
    Refines (dirCreate fs sector n e).1 (T.create sector) := by
  refine ⟨funext fun x => ?_, fun x hx => ?_⟩
  · simp [dirCreate, FileSys.write, DirTree.create, h.isDir_eq]
  by_cases hs : x = sector
  · subst hs
    have hm : (T.create x).lookupIn x = fun _ => none := by
      funext m
      simp [DirTree.lookupIn, DirTree.create]
    rw [hm, show (T.create x).parent x = x from if_pos rfl]
    exact dirRefines_dirCreate fs x n he
  · have hx' : T.isDir x = true := by simpa [DirTree.create, hs] using hx
    rw [dirCreate_data, if_neg hs, DirTree.lookupIn_congr (if_neg hs)]
    simpa [DirTree.create, hs] using h.dir x hx'

/-- `dir_add` refuses a call exactly when the tree does: the name that the directory's file binds
are the names the tree binds. -/
theorem Refines.dirAdd_flag (h : Refines fs T) (hd : T.isDir d = true) :
    (dirAdd fs d name s isDir e).2 = (T.add d name s isDir).2 := by
  have hl : (lookup (fs.data d) name).isSome = (T.lookupIn d name).isSome := by
    rw [← (h.dir d hd).entryOf_eq, entryOf_eq_map_lookup, Option.isSome_map']
  unfold dirAdd DirTree.add
  by_cases hv : name = "" ∨ nameMax < name.length
  · rw [if_pos hv, if_pos (or_assoc.1 (.inl hv))]
  by_cases hc : (T.lookupIn d name).isSome = true
  · rw [if_neg hv, if_pos (hl.trans hc), if_pos (or_assoc.1 (.inr hc))]
  · rw [if_neg hv, if_neg (by rwa [hl]), if_neg fun h => (or_assoc.2 h).elim hv hc]

/-- `dir_remove` refuses a call exactly when the tree does: a directory's file is empty exactly
when the tree's map of it is. -/
theorem Refines.dirRemove_flag (h : Refines fs T) (hd : T.isDir d = true) :
    (dirRemove fs d name).2 = (T.remove d name).2 := by
  have hm := congrFun (h.dir d hd).entryOf_eq name
  rw [entryOf_eq_map_lookup] at hm
  unfold dirRemove DirTree.remove
  cases hl : lookup (fs.data d) name with
  | none => rw [← hm, hl]; rfl
  | some r =>
      rw [← hm, hl, Option.map_some']
      dsimp only
      have hc : (fs.isDir r.1.inodeSector && !dirIsEmpty (fs.data r.1.inodeSector)) = true ↔
          T.isDir r.1.inodeSector = true ∧ T.entries r.1.inodeSector ≠ [] := by
        rw [h.isDir_eq, Bool.and_eq_true]
        refine and_congr_right fun hs => ?_
        rw [Ne, T.entries_eq_nil_iff, ← (h.dir _ hs).entryOf_eq, ← dirIsEmpty_iff_entryOf]
        simp
      by_cases hr : T.isDir r.1.inodeSector = true ∧ T.entries r.1.inodeSector ≠ []
      · rw [if_pos (hc.2 hr), if_pos hr]
      · rw [if_neg (mt hc.1 hr), if_neg hr]

theorem Refines.add (h : Refines fs T) (hd : T.isDir d = true)
    (hs : isDir = true → s ≠ d ∧ e.inUse = true) :
    Refines (dirAdd fs d name s isDir e).1 (T.add d name s isDir).1 := by
  have hflag : (dirAdd fs d name s isDir e).2 = (T.add d name s isDir).2 := h.dirAdd_flag hd
  cases hb : (T.add d name s isDir).2
  · rw [dirAdd_eq_of_false (hflag.trans hb), DirTree.add_eq_of_false hb]
    exact h
  refine ⟨by rw [dirAdd_isDir, DirTree.add_isDir, h.isDir_eq], fun x hx => ?_⟩
  rw [DirTree.add_isDir] at hx
  by_cases hxd : x = d
  · subst hxd
    have hp : ¬(isDir = true ∧ x = s) := fun ⟨hi, hxs⟩ => (hs hi).1 hxs.symm
    have := (h.dir x hx).run (.add name s isDir e) fun hi => (hs hi).1
    rw [DirTree.lookupIn_add_self T x name s isDir e, ← hflag, DirTree.add_of_true hb]
    dsimp only
    rwa [if_neg hp]
  · rw [dirAdd_data_of_ne hxd (hflag.trans hb), DirTree.add_of_true hb,
      DirTree.lookupIn_congr (if_neg hxd)]
    dsimp only
    split_ifs with hxs
    · obtain ⟨hi, rfl⟩ := hxs
      exact (h.dir x hx).relink (hs hi).2 d
    · exact h.dir x hx

theorem Refines.remove (h : Refines fs T) (hd : T.isDir d = true) :
    Refines (dirRemove fs d name).1 (T.remove d name).1 := by
  refine ⟨by rw [dirRemove_isDir, DirTree.remove_isDir, h.isDir_eq], fun x hx => ?_⟩
  rw [DirTree.remove_isDir] at hx
  rw [DirTree.remove_parent]
  by_cases hxd : x = d
  · subst hxd
    have := (h.dir x hx).run (.remove name) trivial
    rwa [DirTree.lookupIn_remove_self, ← h.dirRemove_flag hd]
  · rw [dirRemove_data_of_ne hxd, DirTree.lookupIn_congr (T.remove_entries_of_ne d name hxd)]
    exact h.dir x hx

/-- **One call returns what the tree returns, and keeps the refinement.** -/
theorem VolOp.run_refines {op : VolOp} (h : Refines fs T) (hok : op.Ok T) :
    (op.run fs).2 = (op.apply T).2 ∧ Refines (op.run fs).1 (op.apply T).1 := by
  cases op with
  | create sector n e => exact ⟨rfl, h.create sector n hok⟩
  | add d name s isDir e => exact ⟨h.dirAdd_flag hok.1, h.add hok.1 hok.2⟩
  | remove d name => exact ⟨h.dirRemove_flag hok, h.remove hok⟩

end Steps

/-! ### Runs -/

/-- The volumes that a run of calls reaches from `fs₀`, each call made as `VolOp.Ok` asks in the
tree of the volume it is made on, beside the tree that the tree's operations make of `T₀`. -/
inductive VolRun (fs₀ : FileSys) (T₀ : DirTree) : FileSys → DirTree → Prop
  | start : VolRun fs₀ T₀ fs₀ T₀
  | step {fs : FileSys} {T : DirTree} (op : VolOp) : VolRun fs₀ T₀ fs T → op.Ok T →
      VolRun fs₀ T₀ (op.run fs).1 (op.apply T).1

theorem VolRun.refines {fs₀ fs : FileSys} {T₀ T : DirTree} (hr : VolRun fs₀ T₀ fs T)
    (h₀ : Refines fs₀ T₀) : Refines fs T := by
  induction hr with
  | start => exact h₀
  | step op _ hok ih => exact (VolOp.run_refines ih hok).2

/-- **Along every run from a volume that stands for a tree, the volume stands for the tree the
calls make, every call returns what the tree's operation returns, and `dir_lookup` answers from
the tree**: `..` with the parent, and every other name but `.` with the directory's binding. -/
theorem volume_follows_tree {fs₀ fs : FileSys} {T₀ T : DirTree} (hr : VolRun fs₀ T₀ fs T)
    (h₀ : Refines fs₀ T₀) :
    Refines fs T ∧ (∀ op : VolOp, op.Ok T → (op.run fs).2 = (op.apply T).2) ∧
      ∀ d, T.isDir d = true → ∀ e, dirLookup fs d ".." e = some (T.parent d) ∧
        ∀ n, n ≠ "." → n ≠ ".." → dirLookup fs d n e = T.lookupIn d n := by
  have h := hr.refines h₀
  exact ⟨h, fun op hok => (VolOp.run_refines h hok).1,
    fun d hd e => (h.dir d hd).dirLookup_follows e⟩

/-! ### Paths -/

section Paths

variable {fs : FileSys} {T : DirTree}

/-- On a directory of the tree, `dir_lookup` of any token goes where the tree's step goes. -/
theorem Refines.dirLookup_eq_step (h : Refines fs T) {d : ℕ} (hd : T.isDir d = true)
    (name : String) (e : DirEntry) : dirLookup fs d name e = T.step d name := by
  obtain ⟨hp, hn⟩ := (h.dir d hd).dirLookup_follows e
  unfold DirTree.step
  split_ifs with h₁ h₂
  · rw [h₁]; rfl
  · rw [h₂, hp]
  · exact hn name h₁ h₂

/-- The lookups of a run of tokens, each in the sector the ones before it reach, follow the walk
of the tree while it passes only directories, whatever each call's local `e` holds. -/
theorem Refines.lookupTokens_eq (h : Refines fs T) :
    ∀ (es : ℕ → DirEntry) (tokens : List (List Char)) (d : ℕ),
      T.walksDirs d (tokens.map String.mk) = true →
      lookupTokens fs es d tokens = T.walk d (tokens.map String.mk)
  | _, [], _, _ => rfl
  | es, token :: tokens, d, hw => by
      rw [List.map_cons, DirTree.walksDirs, Bool.and_eq_true] at hw
      rw [lookupTokens, List.map_cons, DirTree.walk, h.dirLookup_eq_step hw.1]
      cases hs : T.step d ⟨token⟩ with
      | none => rfl
      | some d' =>
          rw [hs, Option.all_some] at hw
          exact h.lookupTokens_eq _ tokens d' hw.2

/-- **`dir_open_path` resolves a path through the tree**: on a volume that stands for a tree, the
directory it opens is the one the walk of the path's tokens reaches from the start directory,
unless that inode is removed, for every path whose walk passes only directories. -/
theorem open_path_follows_tree {v : Volume} (h : Refines v.fs T) (cwd : Option Dir)
    (path : List Char) (es : ℕ → DirEntry)
    (hw : T.walksDirs (startSector cwd path) ((pathTokens path).map String.mk) = true) :
    (dirOpenPath v cwd path es).2 =
      (T.walk (startSector cwd path) ((pathTokens path).map String.mk)).bind
        fun s => if v.removed s then none else some (dirOpen s) := by
  rw [dirOpenPath_snd, h.lookupTokens_eq es _ _ hw]

/-- On the volume that `dir_create` of sectors 1 and 7, `dir_add` of the directory 7 as `d` in 1,
and `dir_add` of a file `f` in 7 leave: `dir_open_path` of `/d/../d/f` walks down to 7, up to 1,
down to 7 again, and opens 5, each of its lookups with bytes of its own in its local `e`. -/
theorem open_path_follows_tree_example :
    let fs₀ : FileSys := ⟨fun _ => [], fun _ => false⟩
    let T₀ : DirTree := ⟨fun _ => [], id, fun _ => false⟩
    let path := "/d/../d/f".toList
    let es : ℕ → DirEntry := fun i => ⟨i, "", false⟩
    ∃ (v : Volume) (T : DirTree), VolRun fs₀ T₀ v.fs T ∧ Refines v.fs T ∧
      T.walksDirs (startSector none path) ((pathTokens path).map String.mk) = true ∧
      (dirOpenPath v none path es).2 =
        (T.walk (startSector none path) ((pathTokens path).map String.mk)).bind
          (fun s => if v.removed s then none else some (dirOpen s)) ∧
      (dirOpenPath v none path es).2 = some (dirOpen 5) := by
  intro fs₀ T₀ path es
  let e : DirEntry := ⟨0, "", true⟩
  have h₀ : Refines fs₀ T₀ := ⟨rfl, fun _ h => absurd h Bool.false_ne_true⟩
  have hr := ((((VolRun.start : VolRun fs₀ T₀ fs₀ T₀).step (.create 1 16 e) rfl).step
    (.create 7 16 e) rfl).step (.add 1 "d" 7 true e) ⟨rfl, fun _ => ⟨by decide, rfl⟩⟩).step
    (.add 7 "f" 5 false e) ⟨rfl, fun h => absurd h Bool.false_ne_true⟩
  have h : Refines (⟨_, fun _ => 0, fun _ => false⟩ : Volume).fs _ := hr.refines h₀
  have hp := open_path_follows_tree h none path es (by decide)
  exact ⟨_, _, hr, h, by decide, hp, hp.trans rfl⟩

end Paths

/-- From an empty disk and the empty tree: `dir_create` of sectors 1 and 7, `dir_add` of the
directory 7 as `d` in 1, and `dir_add` of a file `f` in 7.  Then `..` of 7 leads to 1, and
`dir_remove` of `d`, which is not empty, is refused. -/
theorem volume_follows_tree_example :
    let fs₀ : FileSys := ⟨fun _ => [], fun _ => false⟩
    let T₀ : DirTree := ⟨fun _ => [], id, fun _ => false⟩
    ∃ fs T, VolRun fs₀ T₀ fs T ∧ Refines fs₀ T₀ ∧ T.parent 7 = 1 ∧
      ((VolOp.remove 1 "d").apply T).2 = false ∧
      (Refines fs T ∧ (∀ op : VolOp, op.Ok T → (op.run fs).2 = (op.apply T).2) ∧
        ∀ d, T.isDir d = true → ∀ e, dirLookup fs d ".." e = some (T.parent d) ∧
          ∀ n, n ≠ "." → n ≠ ".." → dirLookup fs d n e = T.lookupIn d n) := by
  intro fs₀ T₀
  let e : DirEntry := ⟨0, "", true⟩
  have h₀ : Refines fs₀ T₀ := ⟨rfl, fun _ h => absurd h Bool.false_ne_true⟩
  have hr := ((((VolRun.start : VolRun fs₀ T₀ fs₀ T₀).step (.create 1 16 e) rfl).step
    (.create 7 16 e) rfl).step (.add 1 "d" 7 true e) ⟨rfl, fun _ => ⟨by decide, rfl⟩⟩).step
    (.add 7 "f" 5 false e) ⟨rfl, fun h => absurd h Bool.false_ne_true⟩
  exact ⟨_, _, hr, h₀, by decide, by decide, volume_follows_tree hr h₀⟩

end Pintos.Filesys
