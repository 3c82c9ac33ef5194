import Mathlib.Data.List.Basic

/-!
**The open-file list of `thread.c`, and its clean-up in `thread_exit`.**

`file_list` holds a `struct file_info` for every file that a user process has open: its
descriptor, the `struct file`, and the thread that opened it.  `add_file_list` appends an entry,
`get_file_info` returns the first entry with a descriptor if the caller opened it, and
`thread_exit` walks the list and closes and frees the entries of the exiting thread.
The walk deletes while it iterates: before removing an entry it steps back with `list_prev`, so
that the `list_next` at the end of the turn lands on the entry after the one removed.

A place in the list is a position in the doubly linked list: 0 is the head sentinel, `i + 1` the
`i`-th entry, and `length + 1` the tail sentinel `list_end`; `list_next` and `list_prev` add and
subtract one, and `list_remove` of the entry at position `e` erases it and shifts the later
entries down by one.

Main definitions:

* `Pintos.FileInfo`, `Pintos.addFileList`, `Pintos.getFileInfo`;
* `Pintos.exitFileLoop`, `Pintos.threadExitFiles` — the clean-up loop of `thread_exit`;
* `Pintos.FileOp`, `Pintos.fileStep` — what the threads do to `file_list`.

Main results:

* `Pintos.exitFileLoop_eq` — what the loop does from any position, given enough fuel;
* `Pintos.thread_exit_closes_own_files` — **the loop ends, closes and removes exactly the entries
  of the exiting thread, in order, and keeps the others in order**;
* `Pintos.file_info_stable` — **across any interleaving of `add_file_list` and the clean-ups of
  other threads, a thread keeps its entries, in order, and every file `get_file_info` finds for
  it**.
-/

set_option autoImplicit false

namespace Pintos

/-- `struct file_info`: the descriptor, the open `struct file`, and the thread that opened it.
`opened_dir` is not read by the functions modelled here. -/
structure FileInfo where
  fd : ℤ
  openedFile : ℕ
  threadNum : ℕ
  deriving DecidableEq, Repr

/-- `add_file_list (info)`: `list_push_back (&file_list, &info->elem)`. -/
def addFileList (fileList : List FileInfo) (info : FileInfo) : List FileInfo :=
  fileList ++ [info]

/-- `get_file_info (fd)` called by the thread `cur`: the first entry of `file_list` with
descriptor `fd` if `cur` opened it, and `NULL` otherwise. -/
def getFileInfo (cur : ℕ) (fd : ℤ) : List FileInfo → Option FileInfo
  | [] => none
  | l :: fileList =>
      if l.fd = fd then (if l.threadNum = cur then some l else none)
      else getFileInfo cur fd fileList

/-- `get_file_info` looks no further than the first entry with the descriptor: it returns that
entry when `cur` opened it, and `NULL` otherwise. -/
theorem getFileInfo_eq_filter_find (fileList : List FileInfo) (cur : ℕ) (fd : ℤ) :
    getFileInfo cur fd fileList =
      (fileList.find? (fun l => l.fd = fd)).filter (fun l => l.threadNum = cur) := by
  induction fileList with
  | nil => rfl
  | cons l fileList ih =>
      by_cases hfd : l.fd = fd
      · rw [getFileInfo, if_pos hfd, List.find?_cons_of_pos _ (by simpa using hfd)]
        by_cases hcur : l.threadNum = cur <;> simp [hcur, Option.filter]
      · rw [getFileInfo, if_neg hfd, List.find?_cons_of_neg _ (by simpa using hfd), ih]

/-- The loop of `thread_exit` over `file_list` from position `e`, run by the exiting thread `cur`:
the list it leaves, and the entries it passes to `close_file` and frees, in that order.  `fuel`
bounds the number of turns. -/
def exitFileLoop (cur : ℕ) : ℕ → List FileInfo → ℕ → Option (List FileInfo × List FileInfo)
  | 0, _, _ => none
  | fuel + 1, l, e =>
      if e = l.length + 1 then some (l, [])
      else match l[e - 1]? with
        | none => none
        | some fd =>
            if fd.threadNum = cur then
              -- `e = list_prev (e)`, `list_remove (&fd->elem)`, then `list_next`
              (exitFileLoop cur fuel (l.eraseIdx (e - 1)) (e - 1 + 1)).map
                fun r => (r.1, fd :: r.2)
            else exitFileLoop cur fuel l (e + 1)

/-- The clean-up of `file_list` in `thread_exit` for the exiting thread `cur`, from `list_begin`:
one turn per entry, and the test that ends the loop. -/
def threadExitFiles (fileList : List FileInfo) (cur : ℕ) : Option (List FileInfo × List FileInfo) :=
  if fileList = [] then some (fileList, [])
  else exitFileLoop cur (fileList.length + 1) fileList 1

/-- **What the loop does from position `e`**: with more fuel than entries left, it keeps the
entries before `e`, and from `e` on it removes the entries of `cur`, passing them to `close_file`
in order, and keeps the others in order. -/
theorem exitFileLoop_eq (cur : ℕ) :
    ∀ (fuel : ℕ) (l : List FileInfo) (e : ℕ), 1 ≤ e → e ≤ l.length + 1 →
      l.length + 1 - e < fuel →
      exitFileLoop cur fuel l e = some (l.take (e - 1) ++
        (l.drop (e - 1)).filter (fun fd => fd.threadNum ≠ cur),
        (l.drop (e - 1)).filter (fun fd => fd.threadNum = cur))
  | 0, _, _, _, _, hf => absurd hf (Nat.not_lt_zero _)
  | fuel + 1, l, e, h1, hle, hf => by
      obtain ⟨k, rfl⟩ : ∃ k, e = k + 1 := ⟨e - 1, by omega⟩
      rw [exitFileLoop, Nat.add_sub_cancel]
      by_cases hend : k + 1 = l.length + 1
      · -- `e` is `list_end`
        obtain rfl : k = l.length := by omega
        simp
      rw [if_neg hend]
      have hlt : k < l.length := by omega
      have hlen := List.length_eraseIdx_of_lt hlt
      rw [List.getElem?_eq_getElem hlt]
      dsimp only
      by_cases hown : l[k].threadNum = cur
      · -- an entry of `cur`: closed and removed, and the walk stays at position `e`
        have htk : (l.take k).length = k := List.length_take_of_le hlt.le
        rw [if_pos hown, exitFileLoop_eq cur fuel _ (k + 1) h1 (by omega) (by omega),
          Nat.add_sub_cancel, List.eraseIdx_eq_take_drop_succ, List.take_left' htk,
          List.drop_left' htk, List.drop_eq_getElem_cons hlt, List.filter_cons, List.filter_cons]
        simp [hown]
      · -- another thread's entry: kept, and the walk moves on
        rw [if_neg hown, exitFileLoop_eq cur fuel l (k + 1 + 1) (by omega) (by omega) (by omega),
          Nat.add_sub_cancel, List.drop_eq_getElem_cons hlt, List.filter_cons, List.filter_cons]
        rw [List.take_succ, List.getElem?_eq_getElem hlt]
        simp only [ne_eq, hown, not_false_eq_true, decide_True, decide_False, if_true, if_false,
          Bool.false_eq_true, Option.toList_some, List.append_assoc, List.singleton_append]

/-- **The clean-up loop of `thread_exit`**: for every `file_list` and every exiting thread `cur`,
the loop ends; it passes to `close_file` and frees exactly the entries whose `thread_num` is
`cur`, each once and in list order; and it leaves the other entries in their order, wherever the
entries of `cur` stand. -/
theorem thread_exit_closes_own_files (fileList : List FileInfo) (cur : ℕ) :
    threadExitFiles fileList cur = some (fileList.filter (fun fd => fd.threadNum ≠ cur),
      fileList.filter (fun fd => fd.threadNum = cur)) := by
  unfold threadExitFiles
  split_ifs with h
  · simp [h]
  · rw [exitFileLoop_eq cur _ fileList 1 le_rfl (by omega) (by omega)]
    simp

/-! ### Runs of the threads on `file_list` -/

/-- What the threads do to `file_list`: a user process opens a file, which `add_file_list`
records, or a thread runs the clean-up of `thread_exit`. -/
inductive FileOp
  | add (info : FileInfo)
  | exit (cur : ℕ)
  deriving DecidableEq, Repr

/-- The entries an operation adds. -/
def FileOp.added : FileOp → List FileInfo
  | .add info => [info]
  | .exit _ => []

/-- One operation on `file_list`. -/
def fileStep (fileList : List FileInfo) : FileOp → Option (List FileInfo)
  | .add info => some (addFileList fileList info)
  | .exit cur => (threadExitFiles fileList cur).map Prod.fst

/-- The clean-up of `thread_exit` keeps the entries of the other threads, in order. -/
theorem threadExitFiles_fst (fileList : List FileInfo) (cur : ℕ) :
    (threadExitFiles fileList cur).map Prod.fst =
      some (fileList.filter fun fd => fd.threadNum ≠ cur) := by
  unfold threadExitFiles
  split_ifs with h
  · simp [h]
  · rw [exitFileLoop_eq cur _ fileList 1 le_rfl (by omega) (by omega)]
    simp

/-- An entry found in a list is found first in any longer list. -/
theorem getFileInfo_append_of_some {cur : ℕ} {fd : ℤ} {x : FileInfo} (l' : List FileInfo) :
    ∀ {l : List FileInfo}, getFileInfo cur fd l = some x → getFileInfo cur fd (l ++ l') = some x
  | [], h => by cases h
  | l :: fileList, h => by
      rw [List.cons_append, getFileInfo]
      rw [getFileInfo] at h
      split_ifs at h ⊢
      · exact h
      · exact getFileInfo_append_of_some l' h

/-- Removing the entries of another thread keeps the entry a thread finds. -/
theorem getFileInfo_filter_of_some {cur t : ℕ} {fd : ℤ} {x : FileInfo} (ht : t ≠ cur) :
    ∀ {l : List FileInfo}, getFileInfo cur fd l = some x →
      getFileInfo cur fd (l.filter fun fd => fd.threadNum ≠ t) = some x
  | [], h => by cases h
  | l :: fileList, h => by
      rw [getFileInfo] at h
      by_cases hfd : l.fd = fd
      · rw [if_pos hfd] at h
        split_ifs at h with hcur
        cases h
        rw [List.filter_cons_of_pos (by simpa [hcur] using ht.symm), getFileInfo, if_pos hfd,
          if_pos hcur]
      · rw [if_neg hfd] at h
        rw [List.filter_cons]
        split_ifs
        · rw [getFileInfo, if_neg hfd]; exact getFileInfo_filter_of_some ht h
        · exact getFileInfo_filter_of_some ht h

/-- **Other threads never disturb a thread's open files.**  Across any interleaving of
`add_file_list` and of the clean-ups of `thread_exit` by threads other than `cur`, the entries of
`cur` in `file_list` are the ones it had, in order, followed by those added for it since; and an
entry that `get_file_info` returns to `cur` for a descriptor, it goes on returning. -/
theorem file_info_stable (cur : ℕ) : ∀ (ops : List FileOp) (fileList fileList' : List FileInfo),
    (∀ op ∈ ops, op ≠ .exit cur) → ops.foldlM fileStep fileList = some fileList' →
    fileList'.filter (fun fd => fd.threadNum = cur) =
        fileList.filter (fun fd => fd.threadNum = cur) ++
          (ops.flatMap FileOp.added).filter (fun fd => fd.threadNum = cur) ∧
      ∀ fd x, getFileInfo cur fd fileList = some x → getFileInfo cur fd fileList' = some x
  | [], _, _, _, h => by cases h; simp
  | op :: ops, fileList, fileList', hops, h => by
      rw [List.foldlM_cons] at h
      obtain ⟨l₁, h₁, h⟩ := Option.bind_eq_some.1 h
      obtain ⟨ih₁, ih₂⟩ := file_info_stable cur ops l₁ fileList'
        (fun op' h' => hops op' (List.mem_cons_of_mem _ h')) h
      cases op with
      | add info =>
          cases h₁
          refine ⟨by simp only [ih₁, addFileList, List.filter_append, FileOp.added,
            List.flatMap_cons, List.append_assoc], fun fd x hx =>
            ih₂ fd x (getFileInfo_append_of_some _ hx)⟩
      | exit t =>
          have ht : t ≠ cur := fun he => hops (.exit t) (List.mem_cons_self _ _) (by rw [he])
          rw [fileStep, threadExitFiles_fst, Option.some.injEq] at h₁
          subst h₁
          refine ⟨?_, fun fd x hx => ih₂ fd x (getFileInfo_filter_of_some ht hx)⟩
          rw [ih₁, List.filter_filter]
          congr 1
          exact List.filter_congr fun fd _ => by
            by_cases h : fd.threadNum = cur <;> simp [h, Ne.symm ht]

/-- Thread 2 holds descriptor 3 ahead of thread 1's descriptor 3; thread 1 opens one more file and
thread 2 exits: thread 1 keeps its two entries and gains the new one. -/
theorem file_info_stable_example :
    let fileList : List FileInfo := [⟨3, 30, 2⟩, ⟨3, 31, 1⟩, ⟨4, 40, 1⟩]
    let ops := [FileOp.add ⟨5, 50, 1⟩, .exit 2]
    (∀ op ∈ ops, op ≠ .exit 1) ∧
      ops.foldlM fileStep fileList = some [⟨3, 31, 1⟩, ⟨4, 40, 1⟩, ⟨5, 50, 1⟩] ∧
      ([⟨3, 31, 1⟩, ⟨4, 40, 1⟩, ⟨5, 50, 1⟩] : List FileInfo).filter (fun fd => fd.threadNum = 1) =
          fileList.filter (fun fd => fd.threadNum = 1) ++
            (ops.flatMap FileOp.added).filter (fun fd => fd.threadNum = 1) ∧
        ∀ fd x, getFileInfo 1 fd fileList = some x →
          getFileInfo 1 fd [⟨3, 31, 1⟩, ⟨4, 40, 1⟩, ⟨5, 50, 1⟩] = some x := by
  intro fileList ops
  have hops : ∀ op ∈ ops, op ≠ .exit 1 := by decide
  have hrun : ops.foldlM fileStep fileList = some [⟨3, 31, 1⟩, ⟨4, 40, 1⟩, ⟨5, 50, 1⟩] := by
    decide
  exact ⟨hops, hrun, file_info_stable 1 ops fileList _ hops hrun⟩

end Pintos
