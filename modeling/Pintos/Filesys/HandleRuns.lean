import Pintos.Filesys.Handles

/-!
**Runs of the directory layer, and the references its handles hold.**

A client of `directory.c`, such as the file-system calls of a process, holds a list of
`struct dir` handles, each of them one reference on its inode.  Over a run of the calls of
`directory.c` — `dir_create`, `dir_add`, `dir_remove`, `dir_open_root`, `dir_reopen`,
`dir_open_path`, `dir_lookup` followed by `dir_open` of the inode it returns, and `dir_close` —
the open count of every inode stays the number of handles held on it, as long as no `dir_remove`
finds a directory.  A `dir_remove` that finds one drops a reference nobody gave up
(`Pintos.Filesys.openCnt_dirRemoveI`).

A handle is named by its place in the client's list; a call on a place the list does not have is
not made.

Main definitions:

* `Pintos.Filesys.DirCall`, `Pintos.Filesys.DirCall.run` — the calls, and what each does to the
  volume and the handles;
* `Pintos.Filesys.Client.Balanced` — every open count is the number of handles on the inode;
* `Pintos.Filesys.HandleRun` — the clients reached by a run of calls.

Main results:

* `Pintos.Filesys.DirCall.run_balanced` — one call keeps the balance unless it is a `dir_remove`
  that finds a directory;
* `Pintos.Filesys.handles_hold_open_counts` — **in every such run the open count of every inode
  is the number of handles held on it**.
-/

set_option autoImplicit false

namespace Pintos.Filesys

/-- A client of the directory layer: the volume, and the handles it holds, in the order it got
them. -/
structure Client where
  v : Volume
  handles : List Dir

/-- A call of the directory layer; a handle is named by its place in the client's list. -/
inductive DirCall
  | create (sector entryCnt : ℕ) (e : DirEntry)
  | add (dir : ℕ) (name : String) (inodeSector : ℕ) (isDir : Bool) (e : DirEntry)
  | remove (dir : ℕ) (name : String)
  | openRoot
  | reopen (dir : ℕ)
  | openPath (cwd : Option ℕ) (path : List Char) (es : ℕ → DirEntry)
  | lookupOpen (dir : ℕ) (name : String) (e : DirEntry)
  | close (dir : ℕ)

namespace Client

/-- The client after a call that may return a handle: it keeps the handle it gets. -/
def withOpened (c : Client) (r : Volume × Option Dir) : Client := ⟨r.1, c.handles ++ r.2.toList⟩

/-- Every open count is the number of handles held on the inode. -/
def Balanced (c : Client) : Prop := ∀ x, c.v.openCnt x = ((c.handles.map Dir.inode).count x : ℤ)

end Client

/-- What a call does: the volume the function of `directory.c` leaves, and the handles the client
holds after it.  `dir_close` gives up the handle it closes. -/
def DirCall.run (c : Client) : DirCall → Option Client
  | .create sector entryCnt e => some ⟨(dirCreateI c.v sector entryCnt e).1, c.handles⟩
  | .add d name inodeSector isDir e => c.handles[d]?.map fun dir =>
      ⟨(dirAddI c.v dir name inodeSector isDir e).1, c.handles⟩
  | .remove d name => c.handles[d]?.map fun dir => ⟨(dirRemoveI c.v dir name).1, c.handles⟩
  | .openRoot => some (c.withOpened ((dirOpenRoot c.v).1, some (dirOpenRoot c.v).2))
  | .reopen d => c.handles[d]?.map fun dir =>
      c.withOpened ((dirReopen c.v dir).1, some (dirReopen c.v dir).2)
  | .openPath none path es => some (c.withOpened (dirOpenPath c.v none path es))
  | .openPath (some i) path es => c.handles[i]?.map fun cwd =>
      c.withOpened (dirOpenPath c.v (some cwd) path es)
  | .lookupOpen d name e => c.handles[d]?.map fun dir =>
      c.withOpened ((dirLookupI c.v dir name e).1, ((dirLookupI c.v dir name e).2).map dirOpen)
  | .close d => c.handles[d]?.map fun dir => ⟨dirClose c.v dir, c.handles.eraseIdx d⟩

/-- The call is not a `dir_remove` that finds a directory. -/
def DirCall.RemovesNoDir (c : Client) : DirCall → Prop
  | .remove d name => ∀ dir ∈ c.handles[d]?,
      ((lookup (c.v.fs.data dir.inode) name).map (·.1.inodeSector)).filter c.v.fs.isDir = none
  | _ => True

/-! ### One call -/

section Count

variable {l : List Dir} {x : ℕ}

/-- Keeping the handle a call returns adds one to the count of its inode. -/
theorem count_append_toList (o : Option Dir) :
    (((l ++ o.toList).map Dir.inode).count x : ℤ) =
      (l.map Dir.inode).count x + if some x = o.map Dir.inode then 1 else 0 := by
  cases o with
  | none => simp
  | some d =>
      by_cases h : x = d.inode
      · simp [h]
      · simp [h, Ne.symm h]

/-- Giving up the handle at place `d` takes one off the count of its inode. -/
theorem count_eraseIdx (x : ℕ) : ∀ {l : List Dir} {d : ℕ} {dir : Dir}, l[d]? = some dir →
    (((l.eraseIdx d).map Dir.inode).count x : ℤ) =
      (l.map Dir.inode).count x - if x = dir.inode then 1 else 0
  | [], _, _, h => by simp at h
  | a :: l, 0, dir, h => by
      rw [List.getElem?_cons_zero, Option.some.injEq] at h
      subst h
      by_cases hx : x = a.inode
      · simp [hx]
      · simp [hx, Ne.symm hx]
  | a :: l, d + 1, dir, h => by
      rw [List.getElem?_cons_succ] at h
      have := count_eraseIdx x h
      simp only [List.eraseIdx_cons_succ, List.map_cons, List.count_cons] at this ⊢
      push_cast
      omega

end Count

/-- **One call keeps the balance**, unless it is a `dir_remove` that finds a directory. -/
theorem DirCall.run_balanced {c c' : Client} {call : DirCall} (hb : c.Balanced)
    (hok : call.RemovesNoDir c) (h : call.run c = some c') : c'.Balanced := by
  intro x
  cases call with
  | create sector entryCnt e =>
      cases h
      exact (congrFun (openCnt_dirCreateI c.v e sector entryCnt) x).trans (hb x)
  | add d name s isDir e =>
      obtain ⟨dir, -, rfl⟩ := Option.map_eq_some'.1 h
      exact (congrFun (openCnt_dirAddI c.v dir name e s isDir) x).trans (hb x)
  | remove d name =>
      obtain ⟨dir, hd, rfl⟩ := Option.map_eq_some'.1 h
      dsimp only
      rw [openCnt_dirRemoveI, hok dir hd, hb x]
      simp
  | openRoot =>
      cases h
      simp only [Client.withOpened, dirOpenRoot, inodeOpen_openCnt, hb x, count_append_toList]
      simp [dirOpen, rootDirSector]
  | reopen d =>
      obtain ⟨dir, -, rfl⟩ := Option.map_eq_some'.1 h
      simp only [Client.withOpened, dirReopen, count_append_toList, ← hb x]
      simp [inodeReopen, dirOpen]
  | openPath cwd path es =>
      cases cwd with
      | none =>
          cases h
          simp only [Client.withOpened, count_append_toList, openCnt_dirOpenPath, hb x]
      | some i =>
          obtain ⟨cwd, -, rfl⟩ := Option.map_eq_some'.1 h
          simp only [Client.withOpened, count_append_toList, openCnt_dirOpenPath, hb x]
  | lookupOpen d name e =>
      obtain ⟨dir, -, rfl⟩ := Option.map_eq_some'.1 h
      simp only [Client.withOpened, count_append_toList, openCnt_dirLookupI, hb x,
        Option.map_map, Function.comp_def, dirOpen_inode, Option.map_id']
  | close d =>
      obtain ⟨dir, hd, rfl⟩ := Option.map_eq_some'.1 h
      dsimp only
      rw [dirClose_openCnt, hb x, count_eraseIdx x hd]

/-! ### Runs -/

/-- The clients reached from `c₀` by calls that satisfy `ok` in the client they are made in. -/
inductive HandleRun (ok : Client → DirCall → Prop) (c₀ : Client) : Client → Prop
  | start : HandleRun ok c₀ c₀
  | step {c c' : Client} (call : DirCall) : HandleRun ok c₀ c → ok c call → call.run c = some c' →
      HandleRun ok c₀ c'

/-- Calls made one after the other, each in the client the ones before it leave, extend a run,
when every one of them satisfies `ok` in any client. -/
theorem HandleRun.foldlM {ok : Client → DirCall → Prop} {c₀ : Client} :
    ∀ {calls : List DirCall} {c c' : Client}, HandleRun ok c₀ c → (∀ call ∈ calls, ∀ c, ok c call) →
      calls.foldlM DirCall.run c = some c' → HandleRun ok c₀ c'
  | [], _, _, hr, _, h => by cases h; exact hr
  | call :: _, c, _, hr, hok, h => by
      rw [List.foldlM_cons] at h
      obtain ⟨c₁, h₁, h₂⟩ := Option.bind_eq_some.1 h
      exact HandleRun.foldlM (.step call hr (hok call (List.mem_cons_self _ _) c) h₁)
        (fun call' h' => hok call' (List.mem_cons_of_mem _ h')) h₂

/-- **In every run of the directory layer in which no `dir_remove` finds a directory, the open
count of every inode is the number of handles held on it**, from any client for which it was so,
such as one that holds no handle on a disk with no inode open. -/
theorem handles_hold_open_counts {c₀ c : Client} (hr : HandleRun DirCall.RemovesNoDir c₀ c)
    (h₀ : c₀.Balanced) : ∀ x, c.v.openCnt x = ((c.handles.map Dir.inode).count x : ℤ) := by
  induction hr with
  | start => exact h₀
  | step call _ hok h ih => exact DirCall.run_balanced ih hok h

/-- From an empty disk with no handle: `dir_create` of the root and of sector 7, `dir_open_root`,
`dir_add` of `d` at 7, `dir_lookup` of `d` opened, `dir_reopen` of it and `dir_close` of the root
leave two handles on 7, and its open count is 2. -/
theorem handles_hold_open_counts_example :
    let e : DirEntry := ⟨0, "", true⟩
    let c₀ : Client := ⟨⟨⟨fun _ => [], fun _ => false⟩, fun _ => 0, fun _ => false⟩, []⟩
    let calls := [.create rootDirSector 16 e, .create 7 16 e, .openRoot, .add 0 "d" 7 true e,
      .lookupOpen 0 "d" e, .reopen 1, .close 0]
    ∃ c, calls.foldlM DirCall.run c₀ = some c ∧ c.handles = [dirOpen 7, dirOpen 7] ∧
      HandleRun DirCall.RemovesNoDir c₀ c ∧ c₀.Balanced ∧
      ∀ x, c.v.openCnt x = ((c.handles.map Dir.inode).count x : ℤ) := by
  intro e c₀ calls
  have h₀ : c₀.Balanced := fun _ => rfl
  have hok : ∀ call ∈ calls, ∀ c, DirCall.RemovesNoDir c call := by
    simp only [calls, List.mem_cons, List.mem_nil_iff, or_false]
    rintro _ (rfl | rfl | rfl | rfl | rfl | rfl | rfl) _ <;> trivial
  have hc : calls.foldlM DirCall.run c₀ = some _ := rfl
  have hr := HandleRun.foldlM .start hok hc
  exact ⟨_, hc, rfl, hr, h₀, handles_hold_open_counts hr h₀⟩

end Pintos.Filesys
