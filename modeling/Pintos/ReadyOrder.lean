import Pintos.StatusRuns

/-!
**The order of `ready_list`.**

`thread.c` enters threads into `ready_list` with `list_insert_ordered` and `thread_priority_more`,
which places a thread after every thread of at least its priority: the queue is sorted by priority
and first in, first out among equal priorities, as long as no priority changes while its thread
waits in the queue.  `thread_donate_priority` re-inserts the thread it raises, and
`update_priority_for_each` and `thread_set_nice` re-sort the whole list.

`thread_create` does not: under MLFQS it inserts the new thread at the priority it was given, then
recomputes that priority in place.  `Pintos.mlfqs_create_unsorted` is a run that ends with
`ready_list` out of order.

Main definitions:

* `Pintos.Sched.ReadySorted` — priorities non-increasing along `ready_list`;
* `Pintos.Sched.ReadyFifo` — and threads of equal priority in the order of their last insertion;
* `Pintos.Sched.OrderInv` — `ReadyFifo`, with every queued thread stamped before the insertion
  count;
* `Pintos.Sched.OrderFrame` — a change that drops threads from `ready_list` at most, and keeps the
  priorities and stamps of the rest.

Main results:

* `Pintos.pushReady_readyFifo` — **one insertion keeps the order**;
* `Pintos.step_orderInv` — without MLFQS, every step keeps it;
* `Pintos.ready_list_ordered` — **without MLFQS, `ready_list` is ordered in every reachable
  state**;
* `Pintos.next_thread_to_run_fifo` — **so `next_thread_to_run` picks by priority, first come first
  served among equals**;
* `Pintos.mlfqs_create_unsorted` — a reachable MLFQS state with `ready_list` out of order.
-/

set_option autoImplicit false

namespace Pintos

namespace Sched

/-- Priorities are non-increasing along `ready_list`. -/
def ReadySorted (s : Sched) : Prop :=
  s.readyList.Pairwise fun a b => (s.tcb b).priority ≤ (s.tcb a).priority

instance (s : Sched) : Decidable s.ReadySorted := inferInstanceAs (Decidable (List.Pairwise _ _))

/-- The order `thread_priority_more` builds: a thread precedes every thread of lower priority, and
every thread of its own priority that entered the list after it. -/
def FifoBefore (s : Sched) (a b : ℕ) : Prop :=
  (s.tcb b).priority < (s.tcb a).priority ∨
    ((s.tcb a).priority = (s.tcb b).priority ∧ (s.tcb a).stamp < (s.tcb b).stamp)

/-- `ready_list` is sorted by priority and first in, first out among equal priorities. -/
def ReadyFifo (s : Sched) : Prop := s.readyList.Pairwise s.FifoBefore

theorem fifoBefore_trans (s : Sched) (a b c : ℕ) (hab : s.FifoBefore a b)
    (hbc : s.FifoBefore b c) : s.FifoBefore a c := by
  unfold FifoBefore at *; omega

theorem ReadyFifo.sorted {s : Sched} (h : s.ReadyFifo) : s.ReadySorted :=
  h.imp fun hab => by unfold FifoBefore at hab; omega

end Sched

open Sched

/-- **One insertion keeps the order**: a thread not yet in `ready_list`, stamped with the current
insertion count, goes after every thread of at least its priority and before the first of lower
priority.  The stamps of the threads already queued are below that count. -/
theorem pushReady_readyFifo {s : Sched} {t : ℕ} (h : s.ReadyFifo) (ht : t ∉ s.readyList)
    (hstamp : ∀ u ∈ s.readyList, (s.tcb u).stamp < s.clock) : (pushReady s t).ReadyFifo := by
  have hq : ∀ u ∈ s.readyList, (pushReady s t).tcb u = s.tcb u := fun u hu => by
    simp [show u ≠ t from fun he => ht (he ▸ hu)]
  have hself : (pushReady s t).tcb t = { s.tcb t with stamp := s.clock } := by simp
  refine pairwise_listInsertOrdered (fifoBefore_trans _) ?_ (fun e he hlt => ?_) (fun e he hlt => ?_)
  · exact h.imp_of_mem fun ha hb hab => by unfold FifoBefore; rw [hq _ ha, hq _ hb]; exact hab
  · have := hstamp e he
    simp only [threadPriorityMore, decide_eq_false_iff_not, not_lt] at hlt
    simp only [FifoBefore, hq e he, hself]
    omega
  · simp only [threadPriorityMore, decide_eq_true_eq] at hlt
    simp only [FifoBefore, hq e he, hself]
    omega

namespace Sched

/-- The order of `ready_list`, with the stamps of the queued threads below the insertion count. -/
structure OrderInv (s : Sched) : Prop where
  fifo : s.ReadyFifo
  stamp_lt : ∀ u ∈ s.readyList, (s.tcb u).stamp < s.clock

/-- A change that keeps a sublist of `ready_list`, the priorities and stamps of the threads still
in it, and does not turn the insertion count back. -/
structure OrderFrame (s s' : Sched) : Prop where
  sublist : s'.readyList.Sublist s.readyList
  keep : ∀ u ∈ s'.readyList,
    (s'.tcb u).priority = (s.tcb u).priority ∧ (s'.tcb u).stamp = (s.tcb u).stamp
  clock_le : s.clock ≤ s'.clock

variable {s s' s'' : Sched}

theorem OrderFrame.trans (h₁ : OrderFrame s s') (h₂ : OrderFrame s' s'') : OrderFrame s s'' := by
  refine ⟨h₂.sublist.trans h₁.sublist, fun u hu => ?_, h₁.clock_le.trans h₂.clock_le⟩
  obtain ⟨hp, hs⟩ := h₂.keep u hu
  obtain ⟨hp', hs'⟩ := h₁.keep u (h₂.sublist.subset hu)
  exact ⟨hp.trans hp', hs.trans hs'⟩

/-- A change of fields the order does not read. -/
theorem OrderFrame.of_eq (hr : s'.readyList = s.readyList) (ht : s'.tcb = s.tcb)
    (hc : s'.clock = s.clock) : OrderFrame s s' :=
  ⟨by rw [hr], fun _ _ => by rw [ht]; exact ⟨rfl, rfl⟩, hc.ge⟩

/-- Rewriting the descriptor of a thread outside `ready_list`, or only fields other than its
priority and stamp. -/
theorem orderFrame_setThread (s : Sched) (t : ℕ) (th : Thread)
    (ht : t ∉ s.readyList ∨ th.priority = (s.tcb t).priority ∧ th.stamp = (s.tcb t).stamp) :
    OrderFrame s (s.setThread t th) := by
  refine ⟨by simp, fun u hu => ?_, by simp⟩
  by_cases hut : u = t
  · subst hut
    rw [setThread_tcb_self]
    exact ht.resolve_left (by simpa using hu)
  · rw [setThread_tcb_of_ne _ _ hut]
    exact ⟨rfl, rfl⟩

theorem OrderInv.frame (h : s.OrderInv) (hf : OrderFrame s s') : s'.OrderInv where
  fifo := (h.fifo.sublist hf.sublist).imp_of_mem fun ha hb hab => by
    unfold FifoBefore at hab ⊢
    rw [(hf.keep _ ha).1, (hf.keep _ ha).2, (hf.keep _ hb).1, (hf.keep _ hb).2]
    exact hab
  stamp_lt u hu := (hf.keep u hu).2 ▸ (h.stamp_lt u (hf.sublist.subset hu)).trans_le hf.clock_le

/-- A thread outside `ready_list` has not got status READY. -/
theorem StatusInv.not_ready (h : s.StatusInv) {t : ℕ} (ht : (s.tcb t).status ≠ .ready) :
    t ∉ s.readyList :=
  fun hm => ht ((h.placed t).ready_iff.1 hm).1

end Sched

variable {s s' : Sched}

theorem pushReady_orderInv (h : s.OrderInv) {t : ℕ} (ht : t ∉ s.readyList) :
    (pushReady s t).OrderInv where
  fifo := pushReady_readyFifo h.fifo ht h.stamp_lt
  stamp_lt u hu := by
    rw [pushReady_readyList, mem_listInsertOrdered] at hu
    rw [pushReady_clock, pushReady_tcb]
    split_ifs with hut
    · exact Nat.lt_succ_self _
    · exact (h.stamp_lt u (hu.resolve_left hut)).trans (Nat.lt_succ_self _)

theorem readied_orderInv (h : s.OrderInv) {t : ℕ} (ht : t ∉ s.readyList) :
    (s.readied t).OrderInv :=
  (pushReady_orderInv h ht).frame (orderFrame_setThread _ _ _ (by exact .inr ⟨rfl, rfl⟩))

/-- `schedule` pops the head of `ready_list`, or leaves the empty list. -/
theorem orderFrame_schedule (h : schedule s = some s') : OrderFrame s s' := by
  obtain ⟨-, next, rest, hch, rfl⟩ := schedule_eq_some_iff.1 h
  refine ⟨?_, fun u _ => ?_, by simp⟩
  · rcases hch with hr | ⟨-, rfl, -⟩
    · rw [switchTo_readyList, hr]; exact List.sublist_cons_self _ _
    · exact List.nil_sublist _
  · rw [switchTo_tcb]
    split_ifs with hu
    · subst hu; exact ⟨rfl, rfl⟩
    · exact ⟨rfl, rfl⟩

theorem orderFrame_threadBlock (h : threadBlock s = some s') : OrderFrame s s' :=
  (orderFrame_setThread _ _ _ (by exact .inr ⟨rfl, rfl⟩)).trans (orderFrame_schedule h)

theorem threadYield_orderInv (h : s.OrderInv) (hcur : s.cur ∉ s.readyList)
    (hy : threadYield s = some s') : s'.OrderInv := by
  by_cases hi : s.idleThread = some s.cur
  · rw [threadYield_eq_of_idle s hi] at hy
    exact (h.frame (orderFrame_setThread _ _ _ (by exact .inr ⟨rfl, rfl⟩))).frame (orderFrame_schedule hy)
  · rw [threadYield_eq_of_ne s hi] at hy
    exact (readied_orderInv h hcur).frame (orderFrame_schedule hy)

theorem threadCondYield_orderInv (h : s.OrderInv) (hcur : s.cur ∉ s.readyList)
    (hy : threadCondYield s = some s') : s'.OrderInv :=
  (threadCondYield_cases hy).elim (fun he => he ▸ h) (threadYield_orderInv h hcur)

/-- The wake-up loop readies threads that were outside `ready_list`, one at a time. -/
theorem wakeupFrom_orderInv : ∀ (l : List ℕ) {s s' : Sched}, s.OrderInv →
    (∀ u ∈ l, u ∉ s.readyList) → l.Nodup → wakeupFrom s l = some s' → s'.OrderInv
  | [], _, _, h, _, _, hw => by cases hw; exact h
  | t :: l, s, s', h, hl, hnd, hw => by
      rw [wakeupFrom_cons] at hw
      split_ifs at hw
      · cases hw; exact h
      obtain ⟨s₁, hu, hw⟩ := Option.bind_eq_some.1 hw
      obtain ⟨-, rfl⟩ := threadUnblock_eq_some_iff.1 hu
      have h₀ : ({ s.setThread t { s.tcb t with wakeupTime := 0 } with sleepList := l } :
          Sched).OrderInv :=
        h.frame ((orderFrame_setThread s t { s.tcb t with wakeupTime := 0 } (.inr ⟨rfl, rfl⟩)).trans
          (.of_eq rfl rfl rfl))
      obtain ⟨htl, hnd⟩ := List.nodup_cons.1 hnd
      refine wakeupFrom_orderInv l (readied_orderInv h₀ (by simpa using hl t (.head l))) (fun u hu => ?_) hnd hw
      simp only [readied_readyList, mem_listInsertOrdered, not_or]
      exact ⟨fun he => htl (he ▸ hu), by simpa using hl u (.tail t hu)⟩

theorem threadTick_orderInv {b : Bool} (h : s.OrderInv) (hsl : ∀ u ∈ s.sleepList, u ∉ s.readyList)
    (hnd : s.sleepList.Nodup) (ht : threadTick s = some (s', b)) : s'.OrderInv := by
  unfold threadTick at ht
  split_ifs at ht
  obtain ⟨s₂, hw, he⟩ := Option.map_eq_some'.1 ht
  cases he
  have h₁ : ({ s with threadTicks := s.threadTicks + 1 } : Sched).OrderInv :=
    h.frame (.of_eq rfl rfl rfl)
  exact wakeupFrom_orderInv _ h₁ hsl hnd hw

/-- The state `thread_create` hands to `thread_cond_yield`, without MLFQS: the new thread has
entered `ready_list` in order, and the running thread is still outside it. -/
theorem threadCreate_readied {priority : ℤ} {t : ℕ} {s₁ : Sched} (hst : s.StatusInv)
    (h : s.OrderInv) (ht : s.FreshPage t) (hi : initThread s t priority = some s₁) (q : ℕ) :
    ((s₁.registerChild t q).readied t).OrderInv ∧
      s.cur ∉ ((s₁.registerChild t q).readied t).readyList := by
  obtain ⟨-, rfl⟩ := initThread_eq_some_iff.1 hi
  have hpage : ∀ u ∈ s.allList, u ≠ t := fun u hu he => by
    rcases hst.all_allocated u hu with h' | h'
    · exact ht.1 (he ▸ h')
    · exact ht.2 (he ▸ h')
  have htr : t ∉ s.readyList := fun hm => hpage t (hst.registered_of_ready hm) rfl
  refine ⟨readied_orderInv (h.frame ?_) (by simpa using htr), ?_⟩
  · exact (orderFrame_setThread _ _ _ (.inl htr)).trans ((OrderFrame.of_eq rfl rfl rfl).trans
      ((orderFrame_setThread _ _ _ (.inl (by simpa using htr))).trans (.of_eq rfl rfl rfl)))
  · simpa [hpage s.cur hst.cur_registered] using hst.cur_not_ready

theorem threadCreate_orderInv {priority : ℤ} {t q : ℕ} {tid : Tid} (hst : s.StatusInv)
    (h : s.OrderInv) (ht : s.FreshPage t)
    (hc : threadCreate false s priority (some t) (some q) = some (s', tid)) : s'.OrderInv := by
  rw [threadCreate_some_some] at hc
  obtain ⟨s₁, hi, hc⟩ := Option.bind_eq_some.1 hc
  obtain ⟨s₇, hy, hc⟩ := Option.bind_eq_some.1 hc
  cases hc
  obtain ⟨h₆, hcur⟩ := threadCreate_readied hst h ht hi q
  rw [createRecompute_false] at hy
  obtain ⟨-, rfl⟩ := initThread_eq_some_iff.1 hi
  exact threadCondYield_orderInv h₆ (by simpa using hcur) hy

theorem threadSetPriority_orderInv {p : ℤ} (hcur : s.cur ∉ s.readyList) (h : s.OrderInv)
    (hs : threadSetPriority false s p = some s') : s'.OrderInv := by
  unfold threadSetPriority at hs
  by_cases hr : p > priMax ∨ p < priMin
  · rw [if_pos hr] at hs; cases hs; exact h
  rw [if_neg hr, if_neg Bool.false_ne_true] at hs
  have h₁ := h.frame (orderFrame_setThread s s.cur { s.tcb s.cur with oldPriority := p } (.inl hcur))
  dsimp only at hs
  split_ifs at hs
  · exact threadYield_orderInv (h₁.frame (orderFrame_setThread _ _ _ (.inl (by simpa using hcur))))
      (by simpa using hcur) hs
  · cases hs; exact h₁

theorem orderFrame_updatePriority {t : ℕ} (ht : t ∉ s.readyList) :
    OrderFrame s (updatePriority s t) := by
  unfold updatePriority
  split_ifs
  · exact .of_eq rfl rfl rfl
  · exact orderFrame_setThread _ _ _ (.inl ht)

theorem threadSetNice_orderInv {n : ℤ} (hst : s.StatusInv) (h : s.OrderInv)
    (hs : threadSetNice s n = some s') : s'.OrderInv := by
  unfold threadSetNice at hs
  split_ifs at hs
  · cases hs; exact h
  · cases hs; exact h
  have hcur := hst.cur_not_ready
  have hu := statusFrame_updatePriority (s.setThread s.cur { s.tcb s.cur with nice := n }) s.cur
  have hf := (orderFrame_setThread s s.cur { s.tcb s.cur with nice := n } (.inl hcur)).trans
    (orderFrame_updatePriority (by simpa using hcur))
  dsimp only at hs
  split at hs
  · rename_i hrd
    rw [hu.status_eq, setThread_tcb_self] at hrd
    simp [hst.cur_running] at hrd
  · refine threadCondYield_orderInv (h.frame hf) ?_ hs
    rw [hu.cur_eq]
    exact fun hm => hcur (hf.sublist.subset hm)
  · cases hs; exact h.frame hf

theorem orderFrame_threadRemoveLock {l : ℕ} (hcur : s.cur ∉ s.readyList) :
    OrderFrame s (threadRemoveLock s l) := by
  have h₁ := orderFrame_setThread s s.cur
    { s.tcb s.cur with locks := (s.tcb s.cur).locks.erase l } (.inl hcur)
  unfold threadRemoveLock
  dsimp only
  split
  · exact h₁.trans (orderFrame_setThread _ _ _ (.inl (by simpa using hcur)))
  · split_ifs
    · exact h₁.trans (orderFrame_setThread _ _ _ (.inl (by simpa using hcur)))
    · exact h₁

/-- `thread_donate_priority` re-inserts a READY donee at its new priority, and otherwise changes a
thread outside `ready_list`. -/
theorem threadDonatePriority_orderInv {t : ℕ} (hst : s.StatusInv) (h : s.OrderInv)
    (hs : threadDonatePriority s t = some s') : s'.OrderInv := by
  unfold threadDonatePriority at hs
  dsimp only at hs
  split at hs
  · cases hs
    have hnd := hst.ready_nodup
    have h₁ : ({ s.setThread t { s.tcb t with priority := (s.tcb s.cur).priority } with
        readyList := s.readyList.erase t } : Sched).OrderInv := by
      refine h.frame ⟨List.erase_sublist t s.readyList, fun u hu => ?_, le_rfl⟩
      rw [setThread_tcb_of_ne _ _ (hnd.mem_erase_iff.1 hu).1]
      exact ⟨rfl, rfl⟩
    exact pushReady_orderInv h₁ hnd.not_mem_erase
  · rename_i hrun
    have ht : t ∉ s.readyList := hst.not_ready (by simp_all)
    exact threadCondYield_orderInv (h.frame (orderFrame_setThread _ _ _ (.inl ht)))
      (by simpa using hst.cur_not_ready) hs
  · rename_i hr _
    cases hs
    exact h.frame (orderFrame_setThread _ _ _ (.inl (hst.not_ready (by simpa using hr))))

/-- **Without MLFQS, every step keeps the order of `ready_list`**, from a state with the status
discipline. -/
theorem step_orderInv {op : Op} (hst : s.StatusInv) (h : s.OrderInv)
    (hs : step false s op = some s') : s'.OrderInv := by
  cases op with
  | create priority tcbPage infoPage =>
      obtain ⟨-, rfl⟩ | ⟨t, q, tid, -, -, ht, -, -, hc⟩ := step_create_cases _ hs
      · exact h
      · exact threadCreate_orderInv hst h ht hc
  | semaDown =>
      simp only [step] at hs
      split_ifs at hs
      have h₀ : ({ s with waiters := s.waiters ++ [s.cur] } : Sched).OrderInv :=
        h.frame (.of_eq rfl rfl rfl)
      exact h₀.frame (orderFrame_threadBlock hs)
  | semaUp t =>
      simp only [step] at hs
      split_ifs at hs with ht
      obtain ⟨-, rfl⟩ := threadUnblock_eq_some_iff.1 hs
      have h₀ : ({ s with waiters := s.waiters.erase t } : Sched).OrderInv :=
        h.frame (.of_eq rfl rfl rfl)
      exact readied_orderInv h₀ (hst.not_ready (by simp [((hst.placed t).waiting ht).1]))
  | idleBlock =>
      simp only [step] at hs
      split_ifs at hs
      exact h.frame (orderFrame_threadBlock hs)
  | yield => exact threadYield_orderInv h hst.cur_not_ready hs
  | sleepBegin n =>
      simp only [step, threadSleepBegin] at hs
      split_ifs at hs
      cases hs
      exact h.frame (orderFrame_setThread _ _ _ (.inr ⟨rfl, rfl⟩))
  | sleepEnd =>
      simp only [step, threadSleepEnd] at hs
      split_ifs at hs
      have h₀ : (s.setThread s.cur { s.tcb s.cur with sleepPending := false }).OrderInv :=
        h.frame (orderFrame_setThread _ _ _ (.inr ⟨rfl, rfl⟩))
      have h₁ : ({ s.setThread s.cur { s.tcb s.cur with sleepPending := false } with
          sleepList := listInsertOrdered (wakeupTimeLess s) s.cur s.sleepList } : Sched).OrderInv :=
        h₀.frame (.of_eq rfl rfl rfl)
      exact h₁.frame (orderFrame_threadBlock hs)
  | tick =>
      obtain ⟨⟨s₁, b⟩, ht, rfl⟩ := Option.map_eq_some'.1 hs
      have h₀ : ({ s with ticks := s.ticks + 1 } : Sched).OrderInv := h.frame (.of_eq rfl rfl rfl)
      exact threadTick_orderInv h₀
        (fun u hu => hst.not_ready (by simp [((hst.placed u).sleeping hu).1])) hst.sleep_nodup ht
  | setPriority p =>
      simp only [step] at hs
      split_ifs at hs
      exact threadSetPriority_orderInv hst.cur_not_ready h hs
  | setNice n =>
      simp only [step] at hs
      split_ifs at hs
      exact threadSetNice_orderInv hst h hs
  | holdTheLock l m =>
      simp only [step] at hs
      split_ifs at hs
      cases hs
      have h₀ : ({ s with lock := Function.update s.lock l ⟨some s.cur, m⟩ } : Sched).OrderInv :=
        h.frame (.of_eq rfl rfl rfl)
      exact h₀.frame (orderFrame_setThread _ _ _ (.inr ⟨rfl, rfl⟩))
  | donatePriority l =>
      simp only [step] at hs
      split at hs
      · cases hs
      · rename_i x hx
        split_ifs at hs
        have h₀ : ({ s with lock := Function.update s.lock l ⟨some x, (s.tcb s.cur).priority⟩ } :
            Sched).OrderInv := h.frame (.of_eq rfl rfl rfl)
        have hi := hst.holder_ne_idle l x hx
        exact threadDonatePriority_orderInv
          ((statusFrame_setLock s l _ fun y hy => by cases hy; exact hi).statusInv hst) h₀ hs
  | removeLock l =>
      simp only [step] at hs
      split_ifs at hs
      cases hs
      exact h.frame ((orderFrame_threadRemoveLock hst.cur_not_ready).trans (.of_eq rfl rfl rfl))
  | exit =>
      simp only [step, threadExit] at hs
      split_ifs at hs
      have h₀ : ({ s with allList := s.allList.erase s.cur } : Sched).OrderInv :=
        h.frame (.of_eq rfl rfl rfl)
      exact (h₀.frame (orderFrame_setThread _ s.cur { s.tcb s.cur with status := .dying }
        (.inr ⟨rfl, rfl⟩))).frame (orderFrame_schedule hs)
  | increaseRecentCpu => simp [step, increaseRecentCpu] at hs
  | updateLoadAvg => simp [step, updateLoadAvg] at hs
  | updateRecentCpuForEach => simp [step, updateRecentCpuForEach] at hs
  | updatePriorityForEach => simp [step] at hs

theorem started_orderInv {mlfqs : Bool} (hs : Started mlfqs s) : s.OrderInv := by
  obtain ⟨p, pi, pq, h1, -, -, h⟩ := hs
  have hready := (threadStart_spec h1 h).2.2.2.1
  exact ⟨by simp [ReadyFifo, hready], by simp [hready]⟩

/-- Without MLFQS the order holds, with the status discipline, in every reachable state. -/
theorem reach_orderInv {ok : Sched → Op → Prop} (hs : Reach false ok s) :
    s.StatusInv ∧ s.OrderInv :=
  @Reach.invariant false ok (fun s => s.StatusInv ∧ s.OrderInv)
    (fun _ h => ⟨started_statusInv h, started_orderInv h⟩)
    (fun _ _ _ h _ hst => ⟨step_statusInv h.1 hst, step_orderInv h.1 h.2 hst⟩) s hs

/-- **Without MLFQS, `ready_list` is sorted by priority, and first in, first out among equal
priorities, in every reachable state.** -/
theorem ready_list_ordered (hs : Reachable false s) : s.ReadySorted ∧ s.ReadyFifo :=
  have h := (reach_orderInv hs).2
  ⟨h.fifo.sorted, h.fifo⟩

/-- The initial thread creates two threads of priority 20, which wait in `ready_list`. -/
theorem ready_list_ordered_after_creates :
    ∃ s, Reachable false s ∧ s.readyList.length = 2 ∧ s.ReadySorted ∧ s.ReadyFifo := by
  obtain ⟨s, hs, hl⟩ : ∃ s, Reachable false s ∧ s.readyList.length = 2 :=
    exists_reach_of_run false 1 2 3 (by decide)
      [.create 20 (some 4) (some 5), .create 20 (some 6) (some 7)] (fun _ _ _ => trivial)
      (by decide)
  exact ⟨s, hs, hl, ready_list_ordered hs⟩

/-- **`next_thread_to_run` dispatches by priority, first come first served among equals.**  Without
MLFQS, in every reachable state the thread it picks precedes every other READY thread but the idle
thread: that thread has a lower priority, or the same priority and a later entry into
`ready_list`.  The pick is READY itself, or it is the idle thread and no other thread is READY. -/
theorem next_thread_to_run_fifo (hs : Reachable false s) {t : ℕ} {s₁ : Sched}
    (hn : nextThreadToRun s = some (t, s₁)) :
    (∀ u, (s.tcb u).status = .ready → s.idleThread ≠ some u → u ≠ t → s.FifoBefore t u) ∧
      ((s.tcb t).status = .ready ∨ s.idleThread = some t ∧ ∀ u, (s.tcb u).status = .ready →
        s.idleThread = some u) := by
  obtain ⟨hst, h⟩ := reach_orderInv hs
  have hready : ∀ u, (s.tcb u).status = .ready → s.idleThread ≠ some u → u ∈ s.readyList :=
    fun u hu hi => (hst.placed u).ready_iff.2 ⟨hu, hi⟩
  unfold nextThreadToRun at hn
  split at hn
  · rename_i hr
    obtain ⟨i, hi, he⟩ := Option.map_eq_some'.1 hn
    cases he
    refine ⟨fun u hu hi' _ => absurd (hr ▸ hready u hu hi') (List.not_mem_nil u), .inr ⟨hi, ?_⟩⟩
    exact fun u hu => not_not.1 fun hi' => List.not_mem_nil u (hr ▸ hready u hu hi')
  · rename_i t' l hr
    cases hn
    have hfifo := h.fifo
    rw [ReadyFifo, hr, List.pairwise_cons] at hfifo
    refine ⟨fun u hu hi hut => hfifo.1 u ?_, .inl ((hst.placed t).ready_iff.1 (hr ▸ .head l)).1⟩
    simpa [hr, hut] using hready u hu hi

/-- Of the two threads of priority 20 that the initial thread creates, the first is dispatched
first. -/
theorem next_thread_to_run_fifo_after_creates :
    ∃ s s₁, Reachable false s ∧ nextThreadToRun s = some (4, s₁) ∧ (s.tcb 6).status = .ready ∧
      s.FifoBefore 4 6 := by
  obtain ⟨s, hs, hr, h6, hi⟩ : ∃ s, Reachable false s ∧ s.readyList = [4, 6] ∧
      (s.tcb 6).status = .ready ∧ s.idleThread ≠ some 6 :=
    exists_reach_of_run false 1 2 3 (by decide)
      [.create 20 (some 4) (some 5), .create 20 (some 6) (some 7)] (fun _ _ _ => trivial)
      (by decide)
  have hn : nextThreadToRun s = some (4, { s with readyList := [6] }) := by
    simp [nextThreadToRun, hr]
  exact ⟨s, _, hs, hn, h6, (next_thread_to_run_fifo hs hn).1 6 h6 hi (by decide)⟩

/-- Under MLFQS, a thread created at priority 10 by a thread of `nice` 20 enters `ready_list` at
10 and is then recomputed to 18 in place; a second thread, created at priority 0 by the initial
thread at `nice` 0, is recomputed to 63 after entering behind it. -/
theorem mlfqs_create_unsorted : ∃ s, Reachable true s ∧ ¬s.ReadySorted :=
  exists_reach_of_run true 1 2 3 (by decide)
    [.setNice 20, .create 10 (some 4) (some 5), .setNice 0, .create 0 (some 6) (some 7)]
    (fun _ _ _ => trivial) (by decide)

end Pintos
