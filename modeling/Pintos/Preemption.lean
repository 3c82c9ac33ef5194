import Pintos.ReadyOrder

/-!
**Preemption.**

A thread that makes another thread READY is expected to give up the CPU when that thread outranks
it.  Inside thread code `thread.c` does this with `thread_cond_yield`, which compares the running
thread with the head of `ready_list`, and every dispatch takes the head of the sorted list.  In
interrupt context it cannot yield at once; it can only ask for a yield on the return from the
interrupt, and `thread_tick` asks only when the running thread has used up its time slice,
whatever `thread_wakeup` has just made READY.  A `sema_up` and the release of a lock do not yield
either.

Main definitions:

* `Pintos.Sched.CurHighest` — no READY thread outranks the running one;
* `Pintos.Op.Preempts`, `Pintos.Op.MayOutrank` — the steps that restore it, and those that can
  break it.

Main results:

* `Pintos.threadCondYield_curHighest` — **`thread_cond_yield` preempts**, whether it yields or not;
* `Pintos.ready_never_outranks_running` — **without MLFQS, every dispatch or yield restores it,
  and every step but a tick, a `sema_up` and a lock release keeps it**;
* `Pintos.threadTick_yield_iff` — `thread_tick` asks for a yield exactly when the time slice is
  used up;
* `Pintos.tick_wakes_higher_without_yield` — so a tick can wake a thread of higher priority and
  return to the running thread without asking for a yield.
-/

set_option autoImplicit false

namespace Pintos

open Sched

/-- No thread of `ready_list` outranks the running thread. -/
def Sched.CurHighest (s : Sched) : Prop :=
  ∀ u ∈ s.readyList, (s.tcb u).priority ≤ (s.tcb s.cur).priority

variable {s s' : Sched}

/-- A change that keeps `ready_list`, the running thread and every priority. -/
theorem Sched.CurHighest.of_eq (h : s.CurHighest) (hr : s'.readyList = s.readyList)
    (hc : s'.cur = s.cur) (hp : ∀ v, (s'.tcb v).priority = (s.tcb v).priority) :
    s'.CurHighest := fun u hu => by
  rw [hp, hc, hp]; exact h u (hr ▸ hu)

theorem Sched.CurHighest.setThread (h : s.CurHighest) (t : ℕ) (th : Thread)
    (hp : th.priority = (s.tcb t).priority) : (s.setThread t th).CurHighest :=
  h.of_eq rfl rfl fun v => by by_cases hv : v = t <;> simp [hv, hp]

/-- Rewriting a thread outside `ready_list` other than the running one. -/
theorem Sched.CurHighest.setThread_of_not_ready (h : s.CurHighest) {t : ℕ} (th : Thread)
    (ht : t ∉ s.readyList) (htc : t ≠ s.cur) : (s.setThread t th).CurHighest := fun u hu => by
  have hut : u ≠ t := fun he => ht (he ▸ hu)
  rw [setThread_tcb_of_ne _ _ hut, setThread_cur, setThread_tcb_of_ne _ _ htc.symm]
  exact h u hu

/-- `schedule` from a sorted `ready_list` runs its head, which no thread left behind outranks. -/
theorem schedule_curHighest (h : s.ReadySorted) (hs : schedule s = some s') : s'.CurHighest := by
  obtain ⟨-, next, rest, hch, rfl⟩ := schedule_eq_some_iff.1 hs
  have hp : ∀ v, ((s.switchTo next rest).tcb v).priority = (s.tcb v).priority := fun v => by
    by_cases hv : v = next <;> simp [hv]
  intro u hu
  rw [hp, switchTo_cur, hp]
  rcases hch with hr | ⟨-, rfl, -⟩
  · rw [ReadySorted, hr, List.pairwise_cons] at h
    exact h.1 u hu
  · exact absurd hu (List.not_mem_nil u)

theorem threadBlock_curHighest (h : s.OrderInv) (hb : threadBlock s = some s') :
    s'.CurHighest :=
  schedule_curHighest (h.frame (orderFrame_setThread _ _ _ (by exact .inr ⟨rfl, rfl⟩))).fifo.sorted
    hb

theorem threadYield_curHighest (h : s.OrderInv) (hcur : s.cur ∉ s.readyList)
    (hy : threadYield s = some s') : s'.CurHighest := by
  by_cases hi : s.idleThread = some s.cur
  · rw [threadYield_eq_of_idle s hi] at hy
    exact schedule_curHighest
      (h.frame (orderFrame_setThread _ _ _ (by exact .inr ⟨rfl, rfl⟩))).fifo.sorted hy
  · rw [threadYield_eq_of_ne s hi] at hy
    exact schedule_curHighest (readied_orderInv h hcur).fifo.sorted hy

/-- **`thread_cond_yield` preempts**: called by a thread other than the idle thread, it returns to
a state where no READY thread outranks the running one, whether it yielded or not. -/
theorem threadCondYield_curHighest (h : s.OrderInv) (hcur : s.cur ∉ s.readyList)
    (hi : s.idleThread ≠ some s.cur) (hy : threadCondYield s = some s') : s'.CurHighest := by
  unfold threadCondYield at hy
  split at hy
  · rename_i hr
    cases hy
    exact fun u hu => absurd (hr ▸ hu) (List.not_mem_nil u)
  · rename_i t l hr
    split_ifs at hy with hlt
    · exact threadYield_curHighest h hcur hy
    · cases hy
      have hle : (s.tcb t).priority ≤ (s.tcb s.cur).priority := not_lt.1 fun hlt' => hlt ⟨hi, hlt'⟩
      have hs := h.fifo.sorted
      rw [ReadySorted, hr, List.pairwise_cons] at hs
      intro u hu
      rw [hr, List.mem_cons] at hu
      rcases hu with rfl | hu
      · exact hle
      · exact (hs.1 u hu).trans hle

/-- A donation to a thread other than the running one gives it at most the running thread's
priority: a READY donee is re-inserted below or level with the running thread. -/
theorem threadDonatePriority_curHighest {t : ℕ} (hst : s.StatusInv) (h : s.OrderInv)
    (hc : s.CurHighest) (htc : t ≠ s.cur) (hi : s.idleThread ≠ some s.cur)
    (hd : threadDonatePriority s t = some s') : s'.CurHighest := by
  unfold threadDonatePriority at hd
  dsimp only at hd
  split at hd
  · cases hd
    have hnd := hst.ready_nodup
    intro u hu
    rw [pushReady_readyList, mem_listInsertOrdered] at hu
    simp only [pushReady_tcb, pushReady_cur, setThread_tcb, setThread_cur]
    rcases hu with rfl | hu
    · simp [htc.symm]
    · have hut := (hnd.mem_erase_iff.1 hu).1
      simpa [hut, htc.symm] using hc u (hnd.mem_erase_iff.1 hu).2
  · rename_i hrun
    have ht : t ∉ s.readyList := hst.not_ready (by simp_all)
    exact threadCondYield_curHighest (h.frame (orderFrame_setThread _ _ _ (.inl ht)))
      (by simpa using hst.cur_not_ready) (by simpa using hi) hd
  · rename_i hr _
    cases hd
    exact hc.setThread_of_not_ready _ (hst.not_ready (by simpa using hr)) htc

/-- Without MLFQS, a `thread_create` that gets its page ends in `thread_cond_yield` by the
creator, which is not the idle thread. -/
theorem threadCreate_curHighest {priority : ℤ} {t q : ℕ} {tid : Tid} (hst : s.StatusInv)
    (h : s.OrderInv) (hcall : s.callable) (ht : s.FreshPage t)
    (hc : threadCreate false s priority (some t) (some q) = some (s', tid)) : s'.CurHighest := by
  rw [threadCreate_some_some] at hc
  obtain ⟨s₁, hi, hc⟩ := Option.bind_eq_some.1 hc
  obtain ⟨s₇, hy, hc⟩ := Option.bind_eq_some.1 hc
  cases hc
  obtain ⟨h₆, hcur⟩ := threadCreate_readied hst h ht hi q
  rw [createRecompute_false] at hy
  obtain ⟨-, rfl⟩ := initThread_eq_some_iff.1 hi
  exact threadCondYield_curHighest h₆ (by simpa using hcur) (by simpa using hcall.1) hy

/-- Without MLFQS, `thread_set_priority` yields whenever it changes the running thread's
priority, and otherwise changes no priority. -/
theorem threadSetPriority_curHighest {p : ℤ} (hst : s.StatusInv) (h : s.OrderInv)
    (hc : s.CurHighest) (hset : threadSetPriority false s p = some s') : s'.CurHighest := by
  unfold threadSetPriority at hset
  by_cases hr : p > priMax ∨ p < priMin
  · rw [if_pos hr] at hset; cases hset; exact hc
  rw [if_neg hr, if_neg Bool.false_ne_true] at hset
  have hcur := hst.cur_not_ready
  have h₁ := h.frame (orderFrame_setThread s s.cur { s.tcb s.cur with oldPriority := p }
    (.inl hcur))
  dsimp only at hset
  split_ifs at hset
  · exact threadYield_curHighest
      (h₁.frame (orderFrame_setThread _ _ _ (.inl (by simpa using hcur)))) (by simpa using hcur) hset
  · cases hset; exact hc.setThread _ _ rfl

/-- `thread_set_nice` of a thread other than the idle thread ends in `thread_cond_yield`. -/
theorem threadSetNice_curHighest {n : ℤ} (hst : s.StatusInv) (h : s.OrderInv)
    (hc : s.CurHighest) (hset : threadSetNice s n = some s') : s'.CurHighest := by
  unfold threadSetNice at hset
  split_ifs at hset with hr hi
  · cases hset; exact hc
  · cases hset; exact hc
  have hcur := hst.cur_not_ready
  have hu := statusFrame_updatePriority (s.setThread s.cur { s.tcb s.cur with nice := n }) s.cur
  have hf := (orderFrame_setThread s s.cur { s.tcb s.cur with nice := n } (.inl hcur)).trans
    (orderFrame_updatePriority (by simpa using hcur))
  have hrun : ((updatePriority (s.setThread s.cur { s.tcb s.cur with nice := n }) s.cur).tcb
      s.cur).status = .running := by
    rw [hu.status_eq, setThread_tcb_self]; exact hst.cur_running
  dsimp only at hset
  split at hset
  · rename_i hrd; rw [hrun] at hrd; cases hrd
  · refine threadCondYield_curHighest (h.frame hf) ?_ ?_ hset
    · rw [hu.cur_eq]; exact fun hm => hcur (hf.sublist.subset hm)
    · rw [hu.cur_eq, hu.idle_eq]; exact hi
  · rename_i _ hne; exact absurd hrun hne

/-- The operations that end in a dispatch or a conditional yield in every state: a creation that
gets its page, blocking on a semaphore, the idle thread's block, a yield, the end of
`thread_sleep`, and `thread_exit`. -/
def Op.Preempts : Op → Prop
  | .create _ (some _) _ | .semaDown | .idleBlock | .yield | .sleepEnd | .exit => True
  | _ => False

/-- The operations that can leave a READY thread above the running one: the timer tick and
`sema_up`, which ready threads without yielding, and the release of a lock, which lowers the
running thread's priority without yielding. -/
def Op.MayOutrank : Op → Prop
  | .tick | .semaUp _ | .removeLock _ => True
  | _ => False

/-- **Preemption, without MLFQS.**  From every reachable state, a step that dispatches or yields
leaves no READY thread above the running one, and every step but a tick, a `sema_up` and a lock
release keeps that so once it holds. -/
theorem ready_never_outranks_running {op : Op} (hs : Reachable false s)
    (hstep : step false s op = some s') :
    (op.Preempts → s'.CurHighest) ∧ (¬op.MayOutrank → s.CurHighest → s'.CurHighest) := by
  obtain ⟨hst, h⟩ := reach_orderInv hs
  cases op with
  | create priority tcbPage infoPage =>
      obtain ⟨rfl, rfl⟩ | ⟨t, q, tid, rfl, hcall, ht, -, -, hc⟩ := step_create_cases _ hstep
      · exact ⟨False.elim, fun _ hc => hc⟩
      have := threadCreate_curHighest hst h hcall ht hc
      exact ⟨fun _ => this, fun _ _ => this⟩
  | semaDown =>
      simp only [step] at hstep
      split_ifs at hstep
      have h₀ : ({ s with waiters := s.waiters ++ [s.cur] } : Sched).OrderInv :=
        h.frame (.of_eq rfl rfl rfl)
      have := threadBlock_curHighest h₀ hstep
      exact ⟨fun _ => this, fun _ _ => this⟩
  | semaUp t => exact ⟨False.elim, fun hk => absurd trivial hk⟩
  | idleBlock =>
      simp only [step] at hstep
      split_ifs at hstep
      have := threadBlock_curHighest h hstep
      exact ⟨fun _ => this, fun _ _ => this⟩
  | yield =>
      have := threadYield_curHighest h hst.cur_not_ready hstep
      exact ⟨fun _ => this, fun _ _ => this⟩
  | sleepBegin n =>
      simp only [step, threadSleepBegin] at hstep
      split_ifs at hstep
      cases hstep
      exact ⟨False.elim, fun _ hc => hc.setThread _ _ rfl⟩
  | sleepEnd =>
      simp only [step, threadSleepEnd] at hstep
      split_ifs at hstep
      have h₀ : (s.setThread s.cur { s.tcb s.cur with sleepPending := false }).OrderInv :=
        h.frame (orderFrame_setThread _ _ _ (.inr ⟨rfl, rfl⟩))
      have h₁ : ({ s.setThread s.cur { s.tcb s.cur with sleepPending := false } with
          sleepList := listInsertOrdered (wakeupTimeLess s) s.cur s.sleepList } : Sched).OrderInv :=
        h₀.frame (.of_eq rfl rfl rfl)
      have := threadBlock_curHighest h₁ hstep
      exact ⟨fun _ => this, fun _ _ => this⟩
  | tick => exact ⟨False.elim, fun hk => absurd trivial hk⟩
  | setPriority p =>
      simp only [step] at hstep
      split_ifs at hstep
      exact ⟨False.elim, fun _ hc => threadSetPriority_curHighest hst h hc hstep⟩
  | setNice n =>
      simp only [step] at hstep
      split_ifs at hstep
      exact ⟨False.elim, fun _ hc => threadSetNice_curHighest hst h hc hstep⟩
  | holdTheLock l m =>
      simp only [step] at hstep
      split_ifs at hstep
      cases hstep
      refine ⟨False.elim, fun _ hc => ?_⟩
      have hc' : ({ s with lock := Function.update s.lock l ⟨some s.cur, m⟩ } : Sched).CurHighest :=
        hc
      exact hc'.setThread _ _ rfl
  | donatePriority l =>
      simp only [step] at hstep
      split at hstep
      · cases hstep
      · rename_i x hx
        split_ifs at hstep with hg
        refine ⟨False.elim, fun _ hc => threadDonatePriority_curHighest ?_ ?_ ?_ ?_ ?_ hstep⟩
        · exact (statusFrame_setLock s l _ fun y hy => by
            cases hy; exact hst.holder_ne_idle l x hx).statusInv hst
        · exact h.frame (.of_eq rfl rfl rfl)
        · exact hc
        · exact hg.2.1
        · exact hg.1.1
  | removeLock l => exact ⟨False.elim, fun hk => absurd trivial hk⟩
  | exit =>
      simp only [step, threadExit] at hstep
      split_ifs at hstep
      have h₀ : ({ s with allList := s.allList.erase s.cur } : Sched).OrderInv :=
        h.frame (.of_eq rfl rfl rfl)
      have := schedule_curHighest (h₀.frame (orderFrame_setThread _ s.cur
        { s.tcb s.cur with status := .dying } (.inr ⟨rfl, rfl⟩))).fifo.sorted hstep
      exact ⟨fun _ => this, fun _ _ => this⟩
  | increaseRecentCpu => simp [step, increaseRecentCpu] at hstep
  | updateLoadAvg => simp [step, updateLoadAvg] at hstep
  | updateRecentCpuForEach => simp [step, updateRecentCpuForEach] at hstep
  | updatePriorityForEach => simp [step] at hstep

/-- The initial thread, of priority 31, creates a thread of priority 40, which takes the CPU at
once. -/
theorem ready_never_outranks_running_after_create :
    ∃ s s', Reachable false s ∧ step false s (.create 40 (some 4) (some 5)) = some s' ∧
      s'.cur = 4 ∧ s'.CurHighest := by
  obtain ⟨s, hs, hP⟩ : ∃ s, Reachable false s ∧
      (step false s (.create 40 (some 4) (some 5))).map Sched.cur = some 4 :=
    exists_reach_of_run false 1 2 3 (by decide) [] (fun _ _ _ => trivial) (by decide)
  obtain ⟨s', hs', hcur⟩ := Option.map_eq_some'.1 hP
  exact ⟨s, s', hs, hs', hcur, (ready_never_outranks_running hs hs').1 trivial⟩

/-! ### The timer tick -/

/-- `thread_tick` asks for a yield exactly when the running thread has used up its time slice. -/
theorem threadTick_yield_iff {b : Bool} (ht : threadTick s = some (s', b)) :
    b = true ↔ timeSlice ≤ s.threadTicks + 1 := by
  unfold threadTick at ht
  split_ifs at ht
  obtain ⟨s₂, -, he⟩ := Option.map_eq_some'.1 ht
  cases he
  simp

/-- A thread of priority 40 sleeps for one tick and the initial thread, of priority 31, runs; the
tick that wakes the sleeper returns to the initial thread, one tick into its slice, without asking
for a yield. -/
theorem tick_wakes_higher_without_yield :
    ∃ s, Reachable false s ∧ ∃ s', timerInterrupt s = some (s', false) ∧
      s'.idleThread ≠ some s'.cur ∧
      ∃ t, (s'.tcb t).status = .ready ∧ (s'.tcb s'.cur).priority < (s'.tcb t).priority := by
  obtain ⟨s, hs, hP⟩ : ∃ s, Reachable false s ∧ (timerInterrupt s).map (fun p =>
      !p.2 && decide (p.1.idleThread ≠ some p.1.cur) && decide ((p.1.tcb 4).status = .ready) &&
        decide ((p.1.tcb p.1.cur).priority < (p.1.tcb 4).priority)) = some true :=
    exists_reach_of_run false 1 2 3 (by decide)
      [.create 40 (some 4) (some 5), .sleepBegin 1, .sleepEnd] (fun _ _ _ => trivial) (by decide)
  cases ht : timerInterrupt s with
  | none => simp [ht] at hP
  | some p =>
      obtain ⟨s', b⟩ := p
      simp only [ht, Option.map_some', Option.some.injEq, Bool.and_eq_true, Bool.not_eq_true',
        decide_eq_true_eq] at hP
      obtain ⟨⟨⟨rfl, hi⟩, hr⟩, hlt⟩ := hP
      exact ⟨s, hs, s', ht, hi, 4, hr, hlt⟩

end Pintos
