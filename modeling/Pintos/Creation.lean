import Pintos.StatusRuns
import Pintos.DispatchFrame

/-!
**Thread identifiers.**

`allocate_tid` hands out `next_tid++` from a static `tid_t` counter that starts at 1 and is never
checked.  `thread_create` records each tid it hands out, with the new thread's page, in a
`child_info` it appends to `child_list`, and `get_child_info (tid)` returns the first record of
`child_list` with that tid.

Every operation other than `thread_create` leaves the counter, the tids handed out and
`child_list` alone, so in every run the tids handed out so far are `1, ..., n` taken modulo 2^32.
Below 2^31 of them they are distinct, strictly increasing as signed values and never `TID_ERROR`,
and `get_child_info` finds each record of `child_list` by its tid.

What keeps a run below 2^31 tids is the page pool.  Each tid after the initial thread's comes with
a `child_info` page that `thread.c` never frees, and the only page it frees is a dying thread's,
in the dispatch after `thread_exit`; so at every operation boundary the pages in use are one per
thread on `all_list` other than the initial thread and one per tid after the first.  In a pool of
fewer than 2^31 - 1 pages the tids are therefore distinct and increasing in every run.  Without
that bound a run in which the initial thread creates 2^32 - 1 threads wraps the counter round; it
holds 2^32 pages at once.

`thread_create` writes to the `child_info` page without checking that `palloc_get_page` returned
one: when the second allocation fails it faults, after `init_thread` has registered the thread
and `allocate_tid` has used up a tid.

Main definitions:

* `Pintos.getChildInfo` — `get_child_info`;
* `Pintos.tidSeq` — the first `n` tids `allocate_tid` hands out;
* `Pintos.Sched.TidInv` — the tids handed out are `tidSeq n`, `next_tid` is the next one, and
  `child_list` holds one record for each but the first;
* `Pintos.Sched.lifeView` — what only `thread_create` and `thread_exit` change;
* `Pintos.Sched.PageCount` — the count of the pages in use.

Main results:

* `Pintos.step_lifeView` — only `thread_create` and `thread_exit` hand out tids, take or free
  pages, or change `all_list`;
* `Pintos.reach_tidInv` — **the tid discipline holds in every run**;
* `Pintos.step_pageCount`, `Pintos.tidLog_length_le` — every step keeps the count of pages, so
  the pages in use bound the tids handed out;
* `Pintos.tids_increasing` — **in a pool of fewer than 2^31 - 1 pages the tids are distinct,
  strictly increasing and never `TID_ERROR`**, and `get_child_info` returns the record of each
  child;
* `Pintos.tid_counter_wraps` — without that bound, a run that has handed out `TID_ERROR` and a tid
  twice;
* `Pintos.threadCreate_info_fault` — `thread_create` faults when the `child_info` page is
  missing.
-/

set_option autoImplicit false

namespace Pintos

open Sched

/-- `get_child_info (tid)`: the first record of `child_list` with that `child_id`. -/
def getChildInfo (s : Sched) (tid : Tid) : Option ChildInfo :=
  s.childList.find? fun c => c.childId = tid

/-- The first `n` tids `allocate_tid` hands out: `next_tid` starts at 1, and each call adds 1. -/
def tidSeq (n : ℕ) : List Tid := (List.range n).map fun i => BitVec.ofNat 32 (i + 1)

@[simp] theorem length_tidSeq (n : ℕ) : (tidSeq n).length = n := by simp [tidSeq]

theorem tidSeq_succ (n : ℕ) : tidSeq (n + 1) = tidSeq n ++ [BitVec.ofNat 32 (n + 1)] := by
  simp [tidSeq, List.range_succ]

/-- Below 2^31 a tid reads back as the count it was made from. -/
theorem toInt_tid {i : ℕ} (h : i + 1 < 2 ^ 31) : (BitVec.ofNat 32 (i + 1)).toInt = i + 1 := by
  rw [BitVec.toInt_eq_toNat_cond, BitVec.toNat_ofNat, Nat.mod_eq_of_lt (by omega),
    if_pos (by omega)]
  rfl

/-- Below 2^31 tids, `allocate_tid` counts up as a signed `int`. -/
theorem tidSeq_pairwise_slt {n : ℕ} (hn : n < 2 ^ 31) : (tidSeq n).Pairwise fun a b => a.slt b := by
  rw [tidSeq, List.pairwise_map]
  refine (List.pairwise_lt_range n).imp_of_mem fun {i j} hi hj hij => ?_
  rw [List.mem_range] at hi hj
  simp only [BitVec.slt, decide_eq_true_eq, toInt_tid (show i + 1 < 2 ^ 31 by omega),
    toInt_tid (show j + 1 < 2 ^ 31 by omega)]
  omega

/-- Before 2^32 - 1 calls, `allocate_tid` has not returned `TID_ERROR`. -/
theorem tidError_not_mem_tidSeq {n : ℕ} (hn : n < 2 ^ 32 - 1) : tidError ∉ tidSeq n := by
  simp only [tidSeq, List.mem_map, List.mem_range, not_exists, not_and]
  intro i hi he
  have h := congrArg BitVec.toNat he
  rw [BitVec.toNat_ofNat, Nat.mod_eq_of_lt (by omega), show tidError.toNat = 2 ^ 32 - 1 by rfl] at h
  omega

/-- A record of a list with distinct child ids is the one `find?` returns for its id. -/
theorem find?_childId_of_nodup :
    ∀ {l : List ChildInfo} {c : ChildInfo}, (l.map ChildInfo.childId).Nodup → c ∈ l →
      l.find? (fun a => a.childId = c.childId) = some c
  | a :: l, c, hnd, hc => by
      rw [List.map_cons, List.nodup_cons] at hnd
      by_cases hac : a.childId = c.childId
      · rcases List.mem_cons.1 hc with rfl | hc
        · simp
        · exact absurd (hac ▸ List.mem_map_of_mem ChildInfo.childId hc) hnd.1
      · rw [List.find?_cons_of_neg _ (by simpa using hac)]
        exact find?_childId_of_nodup hnd.2 ((List.mem_cons.1 hc).resolve_left fun he => hac (he ▸ rfl))

/-! ### What the operations do to the tids -/

/-- The counter of `allocate_tid`, the tids it has handed out, and `child_list`. -/
def Sched.tidView (s : Sched) : List Tid × Tid × List ChildInfo :=
  (s.tidLog, s.nextTid, s.childList)

/-- The pages in use, `all_list` and the initial thread. -/
def Sched.pageView (s : Sched) : List ℕ × List ℕ × ℕ :=
  (s.allocated, s.allList, s.initialThread)

/-- What only `thread_create` and `thread_exit` change. -/
def Sched.lifeView (s : Sched) : (List Tid × Tid × List ChildInfo) × (List ℕ × List ℕ × ℕ) :=
  (s.tidView, s.pageView)

variable {mlfqs : Bool} {s s' : Sched}

theorem Sched.KeepsIdentity.tidView_eq (h : KeepsIdentity s s') : s'.tidView = s.tidView := by
  simp [tidView, h.tidLog_eq, h.nextTid_eq, h.childList_eq]

/-- A dispatch that frees no page keeps everything only creation and exit change. -/
theorem Sched.KeepsIdentity.lifeView_eq (h : KeepsIdentity s s') (ha : s'.allocated = s.allocated) :
    s'.lifeView = s.lifeView := by
  simp [lifeView, pageView, h.tidView_eq, ha, h.allList_eq, h.initialThread_eq]

theorem lifeView_updatePriority (s : Sched) (t : ℕ) :
    (updatePriority s t).lifeView = s.lifeView := by
  unfold updatePriority; split_ifs <;> rfl

theorem lifeView_updateRecentCpu (s : Sched) (t : ℕ) :
    (updateRecentCpu s t).lifeView = s.lifeView := by
  unfold updateRecentCpu; split_ifs <;> rfl

theorem lifeView_threadForeach {f : Sched → ℕ → Sched} (hf : ∀ s t, (f s t).lifeView = s.lifeView)
    (s : Sched) : (threadForeach f s).lifeView = s.lifeView := by
  unfold threadForeach
  generalize s.allList = l
  induction l generalizing s with
  | nil => rfl
  | cons t l ih => exact (ih _).trans (hf s t)

theorem lifeView_createRecompute (mlfqs : Bool) (s : Sched) (t : ℕ) :
    (createRecompute mlfqs s t).lifeView = s.lifeView := by
  cases mlfqs
  · rfl
  · simp only [createRecompute, if_true, lifeView_updatePriority, lifeView_updateRecentCpu]

theorem lifeView_threadRemoveLock (s : Sched) (l : ℕ) :
    (threadRemoveLock s l).lifeView = s.lifeView := by
  unfold threadRemoveLock
  dsimp only
  split
  · rfl
  · split_ifs <;> rfl

theorem lifeView_threadYield (h : threadYield s = some s') : s'.lifeView = s.lifeView :=
  (keepsIdentity_threadYield h).lifeView_eq (threadYield_allocated h)

theorem lifeView_threadCondYield (h : threadCondYield s = some s') : s'.lifeView = s.lifeView :=
  (keepsIdentity_threadCondYield h).lifeView_eq (threadCondYield_allocated h)

/-- **Only `thread_create` and `thread_exit` hand out tids, take or free pages, or change
`all_list`.** -/
theorem step_lifeView {op : Op} (hs : step mlfqs s op = some s')
    (hop : ∀ p a b, op ≠ .create p a b) (hx : op ≠ .exit) : s'.lifeView = s.lifeView := by
  cases op with
  | create p a b => exact absurd rfl (hop p a b)
  | exit => exact absurd rfl hx
  | semaDown | semaUp _ | idleBlock | yield | sleepBegin _ | sleepEnd | tick =>
      exact (keepsIdentity_step hs trivial).lifeView_eq (allocated_step hs trivial)
  | setPriority p =>
      simp only [step, threadSetPriority] at hs
      split_ifs at hs <;> first | (cases hs; rfl) | exact (lifeView_threadYield hs).trans rfl
  | setNice n =>
      simp only [step, threadSetNice] at hs
      split_ifs at hs
      · cases hs; rfl
      · cases hs; rfl
      · split at hs
        · cases hs; exact lifeView_updatePriority _ _
        · exact (lifeView_threadCondYield hs).trans (lifeView_updatePriority _ _)
        · cases hs; exact lifeView_updatePriority _ _
  | holdTheLock l m =>
      simp only [step] at hs
      split_ifs at hs
      cases hs; rfl
  | donatePriority l =>
      simp only [step] at hs
      split at hs
      · cases hs
      · split_ifs at hs
        unfold threadDonatePriority at hs
        dsimp only at hs
        split at hs
        · cases hs; rfl
        · exact (lifeView_threadCondYield hs).trans rfl
        · cases hs; rfl
  | removeLock l =>
      simp only [step] at hs
      split_ifs at hs
      cases hs
      exact lifeView_threadRemoveLock s l
  | increaseRecentCpu =>
      simp only [step, increaseRecentCpu] at hs
      split_ifs at hs <;> cases hs <;> rfl
  | updateLoadAvg =>
      simp only [step, updateLoadAvg] at hs
      split_ifs at hs <;> cases hs <;> rfl
  | updateRecentCpuForEach =>
      simp only [step, updateRecentCpuForEach] at hs
      split_ifs at hs
      cases hs
      exact lifeView_threadForeach lifeView_updateRecentCpu s
  | updatePriorityForEach =>
      simp only [step] at hs
      split_ifs at hs
      cases hs
      exact lifeView_threadForeach lifeView_updatePriority s

/-- **Every operation other than `thread_create` leaves the tids alone.** -/
theorem step_tidView {op : Op} (hop : ∀ p a b, op ≠ .create p a b)
    (hs : step mlfqs s op = some s') : s'.tidView = s.tidView := by
  by_cases hx : op = .exit
  · subst hx
    simp only [step, threadExit] at hs
    split_ifs at hs
    exact (keepsIdentity_schedule hs).tidView_eq
  · exact congrArg Prod.fst (step_lifeView hs hop hx)

/-- `thread_create` with both pages returns `next_tid`, records it, appends its `child_info` to
`child_list`, takes the two pages and registers the thread in `all_list`. -/
theorem threadCreate_lifeView {priority : ℤ} {t q : ℕ} {tid : Tid}
    (hc : threadCreate mlfqs s priority (some t) (some q) = some (s', tid)) :
    tid = s.nextTid ∧ s'.lifeView = ((s.tidLog ++ [s.nextTid], s.nextTid + 1,
      s.childList ++ [⟨t, s.nextTid, false, false, false, 0⟩]),
      (q :: t :: s.allocated, t :: s.allList, s.initialThread)) := by
  rw [threadCreate_some_some] at hc
  obtain ⟨s₁, h₁, hc⟩ := Option.bind_eq_some.1 hc
  obtain ⟨s₇, h₇, hc⟩ := Option.bind_eq_some.1 hc
  cases hc
  obtain ⟨-, rfl⟩ := initThread_eq_some_iff.1 h₁
  exact ⟨rfl, (lifeView_threadCondYield h₇).trans (lifeView_createRecompute _ _ _)⟩

/-! ### The tid discipline -/

/-- The tids handed out so far are `1, ..., n` modulo 2^32, `next_tid` is the next one, and
`child_list` holds the records of all but the first, which went to the initial thread. -/
structure Sched.TidInv (s : Sched) : Prop where
  log_eq : s.tidLog = tidSeq s.tidLog.length
  next_eq : s.nextTid = BitVec.ofNat 32 (s.tidLog.length + 1)
  log_ne_nil : s.tidLog ≠ []
  child_ids : s.childList.map ChildInfo.childId = s.tidLog.tail

theorem Sched.TidInv.congr (h : s.TidInv) (hv : s'.tidView = s.tidView) : s'.TidInv := by
  simp only [tidView, Prod.mk.injEq] at hv
  obtain ⟨hl, hn, hc⟩ := hv
  exact ⟨hl ▸ h.log_eq, by rw [hn, hl]; exact h.next_eq, hl ▸ h.log_ne_nil,
    by rw [hc, hl]; exact h.child_ids⟩

/-- One more tid handed out and recorded. -/
theorem Sched.TidInv.allocate (h : s.TidInv) {c : ChildInfo} (hc : c.childId = s.nextTid)
    (hv : s'.tidView = (s.tidLog ++ [s.nextTid], s.nextTid + 1, s.childList ++ [c])) :
    s'.TidInv := by
  simp only [tidView, Prod.mk.injEq] at hv
  obtain ⟨hl, hn, hcl⟩ := hv
  have hlen : s'.tidLog.length = s.tidLog.length + 1 := by simp [hl]
  refine ⟨?_, ?_, by simp [hl], ?_⟩
  · rw [hlen, tidSeq_succ, hl, ← h.log_eq, h.next_eq]
  · rw [hn, hlen, h.next_eq]; exact BitVec.ofNat_add_ofNat _ _
  · rw [hcl, hl, List.map_append, h.child_ids, List.tail_append_of_ne_nil h.log_ne_nil]
    simp [hc]

theorem started_tidInv (hs : Started mlfqs s) : s.TidInv := by
  obtain ⟨p, pIdle, pInfo, h1, -, -, h⟩ := hs
  obtain ⟨-, -, -, -, -, -, -, -, -, hnext, hlog, hchild, -⟩ := threadStart_spec h1 h
  exact ⟨by rw [hlog]; rfl, by rw [hnext, hlog]; rfl, by simp [hlog], by simp [hchild, hlog]⟩

theorem step_tidInv {op : Op} (h : s.TidInv) (hs : step mlfqs s op = some s') : s'.TidInv := by
  by_cases hop : ∀ p a b, op ≠ .create p a b
  · exact h.congr (step_tidView hop hs)
  push_neg at hop
  obtain ⟨p, a, b, rfl⟩ := hop
  simp only [step] at hs
  split_ifs at hs
  obtain ⟨⟨s₁, tid⟩, hc, rfl⟩ := Option.map_eq_some'.1 hs
  cases a with
  | none =>
      simp only [threadCreate, Option.some.injEq, Prod.mk.injEq] at hc
      exact hc.1 ▸ h
  | some t =>
      cases b with
      | none =>
          simp only [threadCreate] at hc
          cases initThread s t p <;> simp at hc
      | some q => exact h.allocate rfl (congrArg Prod.fst (threadCreate_lifeView hc).2)

/-- **The tid discipline holds at every operation boundary of every run.** -/
theorem reach_tidInv {ok : Sched → Op → Prop} (hs : Reach mlfqs ok s) : s.TidInv :=
  Reach.invariant mlfqs (fun _ h => started_tidInv h) (fun _ _ _ h _ hst => step_tidInv h hst) hs

/-! ### The pages in use -/

/-- The pages in use at an operation boundary: one for each thread on `all_list` other than the
initial thread, and one `child_info` page for each tid handed out after the initial thread's. -/
def Sched.PageCount (s : Sched) : Prop :=
  s.allocated.length + 1 = (s.allList.erase s.initialThread).length + s.tidLog.length

theorem Sched.PageCount.congr (h : s.PageCount) (hv : s'.lifeView = s.lifeView) : s'.PageCount := by
  simp only [lifeView, tidView, pageView, Prod.mk.injEq] at hv
  obtain ⟨⟨hl, -, -⟩, ha, hal, hi⟩ := hv
  unfold PageCount
  rw [hl, ha, hal, hi]
  exact h

theorem started_pageCount (hs : Started mlfqs s) : s.PageCount := by
  obtain ⟨p, pIdle, pInfo, h1, -, -, h⟩ := hs
  obtain ⟨-, hinit, -, -, -, -, hall, halloc, -, -, hlog, -⟩ := threadStart_spec h1 h
  simp [PageCount, hinit, hall, halloc, hlog, Ne.symm h1]

/-- `thread_exit` takes the running thread off `all_list`, and the dispatch after it frees its
page unless it is the initial thread: a page and a thread fewer, or neither. -/
theorem step_exit_pageCount (hst : s.StatusInv) (h : s.PageCount)
    (hs : step mlfqs s .exit = some s') : s'.PageCount := by
  simp only [step] at hs
  split_ifs at hs with hc
  obtain ⟨s'', hx, -, -, h₁, h₂⟩ := hst.threadExit_dispatch hc
  obtain rfl := Option.some.inj (hx.symm.trans hs)
  have hk := keepsIdentity_schedule hs
  have hall : s''.allList = s.allList.erase s.cur := hk.allList_eq
  have hinit : s''.initialThread = s.initialThread := hk.initialThread_eq
  have hlog : s''.tidLog = s.tidLog := hk.tidLog_eq
  unfold PageCount at h ⊢
  rw [hall, hinit, hlog]
  by_cases hi : s.cur = s.initialThread
  · rw [h₂ hi, hi, List.erase_of_not_mem hst.all_nodup.not_mem_erase]
    exact h
  · obtain ⟨hmem, ha, -⟩ := h₁ hi
    have hcur : s.cur ∈ s.allList.erase s.initialThread :=
      (List.mem_erase_of_ne hi).2 hst.cur_registered
    have h₃ := List.length_pos_of_mem hmem
    have h₄ := List.length_pos_of_mem hcur
    rw [ha, List.erase_comm, List.length_erase_of_mem hmem, List.length_erase_of_mem hcur]
    omega

/-- **Every step keeps the count of pages**: `thread_create` takes two fresh pages, registers one
more thread and hands out one more tid; `thread_exit` is `step_exit_pageCount`; and no other step
takes or frees a page. -/
theorem step_pageCount {op : Op} (hst : s.StatusInv) (h : s.PageCount)
    (hs : step mlfqs s op = some s') : s'.PageCount := by
  cases op with
  | create priority tcbPage infoPage =>
      obtain ⟨-, rfl⟩ | ⟨t, q, tid, -, -, ht, -, -, hc⟩ := step_create_cases _ hs
      · exact h
      have hv := (threadCreate_lifeView hc).2
      simp only [lifeView, tidView, pageView, Prod.mk.injEq] at hv
      obtain ⟨⟨hl, -, -⟩, ha, hal, hi⟩ := hv
      unfold PageCount at h ⊢
      rw [hl, ha, hal, hi, List.erase_cons_tail (by simpa using ht.2)]
      simp only [List.length_cons, List.length_append, List.length_nil]
      omega
  | exit => exact step_exit_pageCount hst h hs
  | _ => exact h.congr (step_lifeView hs (fun _ _ _ => nofun) nofun)

/-- The count of pages, with the status discipline it rests on, in every run. -/
theorem reach_pageCount {ok : Sched → Op → Prop} (hs : Reach mlfqs ok s) :
    s.StatusInv ∧ s.PageCount :=
  @Reach.invariant mlfqs ok (fun s => s.StatusInv ∧ s.PageCount)
    (fun _ h => ⟨started_statusInv h, started_pageCount h⟩)
    (fun _ _ _ h _ hst => ⟨step_statusInv h.1 hst, step_pageCount h.1 h.2 hst⟩) s hs

/-- **The pages in use bound the tids**: every tid after the initial thread's holds a `child_info`
page that `thread.c` never frees. -/
theorem tidLog_length_le {ok : Sched → Op → Prop} (hs : Reach mlfqs ok s) :
    s.tidLog.length ≤ s.allocated.length + 1 := by
  have h := (reach_pageCount hs).2
  unfold PageCount at h
  omega

/-- Below 2^31 tids, the tids `allocate_tid` has handed out are strictly increasing as signed
values, hence distinct, none is `TID_ERROR`, and `get_child_info` returns each record of
`child_list` for its tid. -/
theorem tids_increasing_of_length_lt (hs : Reachable mlfqs s) (hn : s.tidLog.length < 2 ^ 31) :
    s.tidLog.Pairwise (fun a b => a.slt b) ∧ s.tidLog.Nodup ∧ tidError ∉ s.tidLog ∧
      ∀ c ∈ s.childList, getChildInfo s c.childId = some c := by
  have h := reach_tidInv hs
  have hp : s.tidLog.Pairwise (fun a b => a.slt b) := by
    rw [h.log_eq]; exact tidSeq_pairwise_slt hn
  have hnd : s.tidLog.Nodup := hp.imp fun hab he => by subst he; simp [BitVec.slt] at hab
  refine ⟨hp, hnd, fun he => ?_, fun c hc => ?_⟩
  · rw [h.log_eq] at he
    exact tidError_not_mem_tidSeq (by omega) he
  · exact find?_childId_of_nodup (by rw [h.child_ids]; exact hnd.sublist (List.tail_sublist _)) hc

/-- **The tids are distinct and increasing in every run in a pool of fewer than 2^31 - 1 pages.**
When every page in use is numbered below the size `P` of the pool, the tids `allocate_tid` has
handed out are strictly increasing as signed values, hence distinct, none is `TID_ERROR`, and
`get_child_info` returns each record of `child_list` for its tid. -/
theorem tids_increasing {P : ℕ} (hs : Reachable mlfqs s) (hpool : ∀ p ∈ s.allocated, p < P)
    (hP : P < 2 ^ 31 - 1) :
    s.tidLog.Pairwise (fun a b => a.slt b) ∧ s.tidLog.Nodup ∧ tidError ∉ s.tidLog ∧
      ∀ c ∈ s.childList, getChildInfo s c.childId = some c := by
  have hnd := (reachable_statusInv hs).allocated_nodup
  have hlen : s.allocated.length ≤ P := by
    simpa using (List.subperm_of_subset hnd fun p hp => List.mem_range.2 (hpool p hp)).length_le
  exact tids_increasing_of_length_lt hs (by have := tidLog_length_le hs; omega)

/-- After the initial thread has created a thread of priority 40 on pages 4 and 5, in a pool of
8 pages, the two records of `child_list` are found by their tids. -/
theorem tids_increasing_after_create : ∃ s, Reachable false s ∧ (∀ p ∈ s.allocated, p < 8) ∧
    8 < 2 ^ 31 - 1 ∧ s.tidLog.Pairwise (fun a b => a.slt b) ∧ s.tidLog.Nodup ∧
      tidError ∉ s.tidLog ∧ ∀ c ∈ s.childList, getChildInfo s c.childId = some c := by
  obtain ⟨s, hs, hp⟩ : ∃ s, Reachable false s ∧ ∀ p ∈ s.allocated, p < 8 :=
    exists_reach_of_run false 1 2 3 (by decide) [.create 40 (some 4) (some 5)] (by simp)
      (by decide)
  exact ⟨s, hs, hp, by decide, tids_increasing hs hp (by decide)⟩

/-! ### A run that wraps the counter -/

/-- The runs in which the running thread, of non-negative priority and outranked by no ready
thread, creates threads of priority 0 on the pages from `B` up. -/
structure Sched.Spawner (s : Sched) (B : ℕ) : Prop where
  callable : s.callable
  allocated_lt : ∀ p ∈ s.allocated, p < B
  initial_lt : s.initialThread < B
  ready_le : ∀ t ∈ s.readyList, (s.tcb t).priority ≤ (s.tcb s.cur).priority
  cur_nonneg : 0 ≤ (s.tcb s.cur).priority

/-- `thread_cond_yield` returns at once when no ready thread outranks the running thread. -/
theorem threadCondYield_of_le (h : ∀ t ∈ s.readyList, (s.tcb t).priority ≤ (s.tcb s.cur).priority) :
    threadCondYield s = some s := by
  unfold threadCondYield
  split
  · rfl
  · rename_i t l hr
    exact if_neg fun hc => absurd (h t (by simp [hr])) (not_le.2 hc.2)

/-- One more thread of priority 0, on pages `B` and `B + 1`: the creator keeps the CPU, and one
more tid has been handed out. -/
theorem Sched.Spawner.create {B : ℕ} (hst : s.StatusInv) (h : s.Spawner B) :
    ∃ s', step false s (.create 0 (some B) (some (B + 1))) = some s' ∧ s'.Spawner (B + 2) ∧
      s'.tidLog.length = s.tidLog.length + 1 := by
  have hlt : ∀ u ∈ s.allList, u < B := fun u hu =>
    (hst.all_allocated u hu).elim (h.allocated_lt u) fun he => he ▸ h.initial_lt
  have hcur : s.cur ≠ B := (hlt _ hst.cur_registered).ne
  have hready : ∀ u ∈ s.readyList, u ≠ B := fun u hu => (hlt u (hst.registered_of_ready hu)).ne
  obtain ⟨s₁, hinit⟩ : ∃ s₁, initThread s B 0 = some s₁ :=
    ⟨_, initThread_eq_some_iff.2 ⟨by decide, rfl⟩⟩
  have hs₁ := (initThread_eq_some_iff.1 hinit).2
  set s₆ := (s₁.registerChild B (B + 1)).readied B
  have hle : ∀ u ∈ s₆.readyList, (s₆.tcb u).priority ≤ (s₆.tcb s₆.cur).priority := by
    intro u hu
    simp only [s₆, hs₁, readied_readyList, registerChild_readyList, mem_listInsertOrdered] at hu
    rcases hu with rfl | hu
    · simpa [s₆, hs₁, hcur] using h.cur_nonneg
    · simpa [s₆, hs₁, hcur, hready u hu] using h.ready_le u hu
  refine ⟨s₆, ?_, ⟨⟨?_, ?_⟩, fun p hp => ?_, ?_, hle, ?_⟩, by simp [s₆, hs₁]⟩
  · have hg : s.callable ∧ s.PallocOutcome (some B) (some (B + 1)) :=
      ⟨h.callable, ⟨fun hm => lt_irrefl _ (h.allocated_lt B hm), h.initial_lt.ne'⟩,
        ⟨fun hm => by have := h.allocated_lt _ hm; omega, by have := h.initial_lt; omega⟩,
        by omega⟩
    simp only [step, if_pos hg, threadCreate_some_some, hinit, Option.some_bind,
      createRecompute_false, threadCondYield_of_le hle]
    rfl
  · simpa [s₆, hs₁] using h.callable.1
  · simpa [s₆, hs₁, hcur] using h.callable.2
  · simp only [s₆, hs₁, readied_allocated, registerChild_allocated, List.mem_cons] at hp
    rcases hp with rfl | rfl | hp
    · omega
    · omega
    · exact (h.allocated_lt p hp).trans (by omega)
  · simpa [s₆, hs₁] using h.initial_lt.trans (by omega : B < B + 2)
  · simpa [s₆, hs₁, hcur] using h.cur_nonneg

theorem spawner_run : ∀ (k : ℕ) {s : Sched} {B : ℕ}, Reachable false s → s.Spawner B →
    ∃ s', Reachable false s' ∧ s'.tidLog.length = s.tidLog.length + k
  | 0, s, _, hs, _ => ⟨s, hs, rfl⟩
  | k + 1, _, _, hs, h => by
      obtain ⟨s₁, hstep, h₁, hlen⟩ := h.create (reachable_statusInv hs)
      obtain ⟨s', hs', hlen'⟩ := spawner_run k (hs.step trivial hstep) h₁
      exact ⟨s', hs', by omega⟩

/-- **Without the bound on the pool the counter wraps.**  The initial thread creates 2^32 - 1
threads of priority 0, each on two fresh pages: `allocate_tid` has then handed out `TID_ERROR` as
its 2^32 - 1st tid, 0 as its 2^32nd, and tid 1 a second time as its 2^32 + 1st.  No page is freed
on the way, so the run holds at least 2^32 pages at once. -/
theorem tid_counter_wraps : ∃ s, Reachable false s ∧ tidError ∈ s.tidLog ∧ ¬s.tidLog.Nodup ∧
    2 ^ 32 ≤ s.allocated.length := by
  obtain ⟨s₀, hs₀, h₁, h₂, h₃, h₄, h₅, hlen₀⟩ : ∃ s, Reachable false s ∧ s.callable ∧
      (∀ p ∈ s.allocated, p < 4) ∧ s.initialThread < 4 ∧
      (∀ t ∈ s.readyList, (s.tcb t).priority ≤ (s.tcb s.cur).priority) ∧
      0 ≤ (s.tcb s.cur).priority ∧ s.tidLog.length = 2 :=
    exists_reach_of_run false 1 2 3 (by decide) [] (by simp) (by decide)
  obtain ⟨s, hs, hlen⟩ := spawner_run (2 ^ 32 - 1) hs₀ ⟨h₁, h₂, h₃, h₄, h₅⟩
  have hlog := (reach_tidInv hs).log_eq
  have hpages := tidLog_length_le hs
  rw [hlen, hlen₀] at hlog hpages
  refine ⟨s, hs, ?_, fun hnd => ?_, by omega⟩
  · rw [hlog]
    exact List.mem_map.2 ⟨2 ^ 32 - 2, List.mem_range.2 (by omega), by decide⟩
  · rw [hlog, tidSeq] at hnd
    have := List.inj_on_of_nodup_map hnd (List.mem_range.2 (by omega : 0 < 2 + (2 ^ 32 - 1)))
      (List.mem_range.2 (by omega : 2 ^ 32 < 2 + (2 ^ 32 - 1))) (by decide)
    omega

/-! ### `thread_create` without a `child_info` page -/

/-- `thread_create` whose second `palloc_get_page` fails writes the tid through a null
`child_info` pointer: whatever the state and the priority, it faults. -/
theorem threadCreate_info_fault (mlfqs : Bool) (s : Sched) (priority : ℤ) (t : ℕ) :
    threadCreate mlfqs s priority (some t) none = none := by
  simp only [threadCreate]
  cases initThread s t priority <;> rfl

end Pintos
