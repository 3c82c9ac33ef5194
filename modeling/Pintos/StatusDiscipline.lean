import Pintos.SchedulerSpec

/-!
**The status discipline of the scheduler.**

`thread.c` keeps a thread's status and its place in the queues in step: a READY thread other than
the idle thread is in `ready_list`, a thread in `sleep_list` or in a semaphore's wait queue is
BLOCKED, the running thread is the one registered thread with status RUNNING, and a DYING thread
has left `all_list`.  The idle thread is the exception `next_thread_to_run` relies on:
`thread_yield` marks it READY without queueing it, and it is dispatched while BLOCKED.

The discipline is stated for one thread (`Pintos.Sched.Placed`), for the whole queue state
(`Pintos.Sched.Queues`, which also holds when `schedule` is called) and at an operation boundary
(`Pintos.Sched.StatusInv`).  Each function of the scheduler keeps it, and so every step does.

Main definitions:

* `Pintos.Sched.Placed`, `Pintos.Sched.Queues`, `Pintos.Sched.StatusInv`;
* `Pintos.Sched.Dispatchable` — the states `schedule` is called in;
* `Pintos.Sched.StatusFrame` — a change that leaves every status and queue membership alone.

Main results:

* `Pintos.schedule_statusInv` — **the dispatch restores the discipline**;
* `Pintos.Sched.Queues.readied` — admission to `ready_list` keeps it;
* `Pintos.Sched.StatusFrame.statusInv` — so does every change of fields it does not read.
-/

set_option autoImplicit false

namespace Pintos

namespace Sched

/-! ### The discipline -/

/-- Where thread `t` may sit, given its status: in `ready_list` exactly when READY and not the
idle thread; in `sleep_list` or a wait queue only when BLOCKED, not the idle thread and
registered; registered whenever READY, and never DYING while registered. -/
structure Placed (s : Sched) (t : ℕ) : Prop where
  ready_iff : t ∈ s.readyList ↔ (s.tcb t).status = .ready ∧ s.idleThread ≠ some t
  ready_registered : (s.tcb t).status = .ready → t ∈ s.allList
  sleeping : t ∈ s.sleepList →
    (s.tcb t).status = .blocked ∧ s.idleThread ≠ some t ∧ t ∈ s.allList ∧ t ∉ s.waiters
  waiting : t ∈ s.waiters → (s.tcb t).status = .blocked ∧ s.idleThread ≠ some t ∧ t ∈ s.allList
  registered : t ∈ s.allList → (s.tcb t).status ≠ .dying

/-- Placement reads only the thread's status and its membership in the four lists. -/
theorem Placed.congr {s s' : Sched} {t : ℕ} (h : s.Placed t)
    (hst : (s'.tcb t).status = (s.tcb t).status) (hidle : s'.idleThread = s.idleThread)
    (hr : t ∈ s'.readyList ↔ t ∈ s.readyList) (hs : t ∈ s'.sleepList ↔ t ∈ s.sleepList)
    (hw : t ∈ s'.waiters ↔ t ∈ s.waiters) (ha : t ∈ s'.allList ↔ t ∈ s.allList) :
    s'.Placed t where
  ready_iff := by rw [hr, h.ready_iff, hst, hidle]
  ready_registered hrd := ha.2 (h.ready_registered (hst ▸ hrd))
  sleeping hm := by rw [hst, hidle, ha, hw]; exact h.sleeping (hs.1 hm)
  waiting hm := by rw [hst, hidle, ha]; exact h.waiting (hw.1 hm)
  registered hm := hst ▸ h.registered (ha.1 hm)

/-- The queue discipline: every thread placed as its status says, the lists without duplicates,
the idle thread registered and never inside `thread_sleep`, every registered thread on an
allocated page or the initial thread's, and no lock held by the idle thread. -/
structure Queues (s : Sched) : Prop where
  placed : ∀ t, s.Placed t
  ready_nodup : s.readyList.Nodup
  sleep_nodup : s.sleepList.Nodup
  waiters_nodup : s.waiters.Nodup
  all_nodup : s.allList.Nodup
  idle_some : s.idleThread ≠ none
  idle_registered : ∀ i, s.idleThread = some i → i ∈ s.allList
  idle_not_pending : ∀ i, s.idleThread = some i → (s.tcb i).sleepPending = false
  all_allocated : ∀ t ∈ s.allList, t ∈ s.allocated ∨ t = s.initialThread
  allocated_nodup : s.allocated.Nodup
  initial_not_allocated : s.initialThread ∉ s.allocated
  holder_ne_idle : ∀ l h, (s.lock l).holder = some h → s.idleThread ≠ some h

/-- The status discipline at an operation boundary: the queue discipline, and the running thread
is registered and is the one registered thread with status RUNNING. -/
structure StatusInv (s : Sched) extends s.Queues : Prop where
  cur_registered : s.cur ∈ s.allList
  running_iff : ∀ t ∈ s.allList, (s.tcb t).status = .running ↔ t = s.cur

/-- The states `schedule` is called in: the queue discipline holds and no registered thread is
RUNNING any more. -/
structure Dispatchable (s : Sched) extends s.Queues : Prop where
  none_running : ∀ t ∈ s.allList, (s.tcb t).status ≠ .running

variable {s s' : Sched}

theorem StatusInv.cur_running (h : s.StatusInv) : (s.tcb s.cur).status = .running :=
  (h.running_iff s.cur h.cur_registered).2 rfl

theorem StatusInv.cur_not_ready (h : s.StatusInv) : s.cur ∉ s.readyList := fun hm => by
  simpa [h.cur_running] using ((h.placed s.cur).ready_iff.1 hm).1

theorem StatusInv.cur_not_sleeping (h : s.StatusInv) : s.cur ∉ s.sleepList := fun hm => by
  simpa [h.cur_running] using ((h.placed s.cur).sleeping hm).1

theorem StatusInv.cur_not_waiting (h : s.StatusInv) : s.cur ∉ s.waiters := fun hm => by
  simpa [h.cur_running] using ((h.placed s.cur).waiting hm).1

theorem Queues.registered_of_ready (h : s.Queues) {t : ℕ} (ht : t ∈ s.readyList) :
    t ∈ s.allList :=
  (h.placed t).ready_registered ((h.placed t).ready_iff.1 ht).1

/-! ### The dispatch -/

/-- **The dispatch restores the discipline**: `schedule`, called with no registered thread
RUNNING, leaves exactly the thread it switched to RUNNING. -/
theorem schedule_statusInv (h : s.Dispatchable) (hs : schedule s = some s') : s'.StatusInv := by
  obtain ⟨-, next, rest, hch, rfl⟩ := schedule_eq_some_iff.1 hs
  -- where `next` comes from, and what `rest` is
  have hnext : next ∈ s.allList ∧ next ∉ s.sleepList ∧ next ∉ s.waiters ∧ next ∉ rest ∧
      ∀ u, u ≠ next → (u ∈ rest ↔ u ∈ s.readyList) := by
    rcases hch with hr | ⟨hr, rfl, hi⟩
    · have hmem : next ∈ s.readyList := hr ▸ List.mem_cons_self next rest
      have hrd := ((h.placed next).ready_iff.1 hmem).1
      refine ⟨h.registered_of_ready hmem, fun hm => ?_, fun hm => ?_, ?_, fun u hu => ?_⟩
      · simpa [hrd] using ((h.placed next).sleeping hm).1
      · simpa [hrd] using ((h.placed next).waiting hm).1
      · exact (List.nodup_cons.1 (hr ▸ h.ready_nodup)).1
      · simp [hr, hu]
    · exact ⟨h.idle_registered next hi, fun hm => ((h.placed next).sleeping hm).2.1 hi,
        fun hm => ((h.placed next).waiting hm).2.1 hi, List.not_mem_nil next, by simp [hr]⟩
  obtain ⟨hreg, hns, hnw, hnr, hrest⟩ := hnext
  have hsub : rest.Sublist s.readyList := by
    rcases hch with hr | ⟨-, rfl, -⟩
    · exact hr ▸ List.sublist_cons_self next rest
    · exact List.nil_sublist _
  refine ⟨⟨fun u => ?_, h.ready_nodup.sublist hsub, h.sleep_nodup, h.waiters_nodup, h.all_nodup, h.idle_some,
    h.idle_registered, fun i hi => ?_, fun t ht => ?_, ?_, ?_, h.holder_ne_idle⟩, hreg,
    fun t ht => ?_⟩
  · by_cases hu : u = next
    · subst hu
      exact ⟨by simp [hnr], by simp, by simp [hns], by simp [hnw], by simp⟩
    · exact (h.placed u).congr (by simp [hu]) rfl (hrest u hu) Iff.rfl Iff.rfl Iff.rfl
  · by_cases hin : i = next
    · subst hin; simpa using h.idle_not_pending i hi
    · simpa [hin] using h.idle_not_pending i hi
  · have hne : t ≠ s.cur ∨ (s.tcb s.cur).status ≠ .dying := by
      by_cases htc : t = s.cur
      · exact .inr (htc ▸ (h.placed t).registered ht)
      · exact .inl htc
    rcases h.all_allocated t ht with ha | ha
    · refine .inl ?_
      simp only [switchTo_allocated]
      split_ifs with hd
      · exact (List.mem_erase_of_ne (hne.resolve_right (not_not.2 hd.2.1))).2 ha
      · exact ha
    · exact .inr ha
  · simp only [switchTo_allocated]
    split_ifs
    · exact h.allocated_nodup.erase _
    · exact h.allocated_nodup
  · simp only [switchTo_allocated, switchTo_initialThread]
    split_ifs
    · exact fun hm => h.initial_not_allocated (List.mem_of_mem_erase hm)
    · exact h.initial_not_allocated
  · by_cases htn : t = next
    · simp [htn]
    · simpa [htn] using h.none_running t ht

/-! ### Leaving the RUNNING state -/

/-- The running thread marked BLOCKED, before it enters any queue: nothing runs. -/
theorem StatusInv.block (h : s.StatusInv) :
    (s.setThread s.cur { s.tcb s.cur with status := .blocked }).Dispatchable := by
  refine ⟨⟨fun u => ?_, h.ready_nodup, h.sleep_nodup, h.waiters_nodup, h.all_nodup, h.idle_some,
    h.idle_registered, fun i hi => ?_, h.all_allocated, h.allocated_nodup,
    h.initial_not_allocated, h.holder_ne_idle⟩, fun t ht => ?_⟩
  · by_cases hu : u = s.cur
    · subst hu
      exact ⟨by simp [h.cur_not_ready], by simp, by simp [h.cur_not_sleeping],
        by simp [h.cur_not_waiting], by simp⟩
    · exact (h.placed u).congr (by simp [hu]) rfl Iff.rfl Iff.rfl Iff.rfl Iff.rfl
  · by_cases hi' : i = s.cur
    · subst hi'; simpa using h.idle_not_pending _ hi
    · simpa [hi'] using h.idle_not_pending i hi
  · by_cases htc : t = s.cur
    · simp [htc]
    · simpa [htc] using (h.running_iff t ht).not.2 htc

/-- A BLOCKED thread other than the idle thread, registered and in no queue, enters the back of a
semaphore's wait queue. -/
theorem Dispatchable.enqueueWaiter (h : s.Dispatchable) {t : ℕ}
    (hb : (s.tcb t).status = .blocked) (hi : s.idleThread ≠ some t) (ha : t ∈ s.allList)
    (hs : t ∉ s.sleepList) (hw : t ∉ s.waiters) :
    { s with waiters := s.waiters ++ [t] }.Dispatchable := by
  refine ⟨⟨fun u => ?_, h.ready_nodup, h.sleep_nodup, h.waiters_nodup.append (List.nodup_singleton t)
    (by simpa using hw), h.all_nodup, h.idle_some, h.idle_registered, h.idle_not_pending, h.all_allocated,
    h.allocated_nodup, h.initial_not_allocated, h.holder_ne_idle⟩, h.none_running⟩
  by_cases hu : u = t
  · subst hu
    exact ⟨(h.placed u).ready_iff, (h.placed u).ready_registered, (absurd · hs),
      fun _ => ⟨hb, hi, ha⟩, (h.placed u).registered⟩
  · exact (h.placed u).congr rfl rfl Iff.rfl Iff.rfl (by simp [hu]) Iff.rfl

/-- A BLOCKED thread other than the idle thread, registered and in no queue, enters
`sleep_list`. -/
theorem Dispatchable.enqueueSleeper (h : s.Dispatchable) {t : ℕ} (less : ℕ → ℕ → Bool)
    (hb : (s.tcb t).status = .blocked) (hi : s.idleThread ≠ some t) (ha : t ∈ s.allList)
    (hs : t ∉ s.sleepList) (hw : t ∉ s.waiters) :
    { s with sleepList := listInsertOrdered less t s.sleepList }.Dispatchable := by
  refine ⟨⟨fun u => ?_, h.ready_nodup,
    (listInsertOrdered_perm less t _).nodup_iff.2 (List.nodup_cons.2 ⟨hs, h.sleep_nodup⟩),
    h.waiters_nodup, h.all_nodup, h.idle_some, h.idle_registered, h.idle_not_pending, h.all_allocated,
    h.allocated_nodup, h.initial_not_allocated, h.holder_ne_idle⟩, h.none_running⟩
  by_cases hu : u = t
  · subst hu
    exact ⟨(h.placed u).ready_iff, (h.placed u).ready_registered, fun _ => ⟨hb, hi, ha, hw⟩,
      (absurd · hw), (h.placed u).registered⟩
  · exact (h.placed u).congr rfl rfl Iff.rfl (by simp [hu]) Iff.rfl Iff.rfl

/-- The running thread, other than the idle thread, leaves `all_list` and is marked DYING:
nothing runs. -/
theorem StatusInv.exit (h : s.StatusInv) (hi : s.idleThread ≠ some s.cur) :
    ({ s with allList := s.allList.erase s.cur }.setThread s.cur
      { s.tcb s.cur with status := .dying }).Dispatchable := by
  have hmem : ∀ u, u ≠ s.cur → (u ∈ s.allList.erase s.cur ↔ u ∈ s.allList) :=
    fun u hu => List.mem_erase_of_ne hu
  have hcur : s.cur ∉ s.allList.erase s.cur := h.all_nodup.not_mem_erase
  refine ⟨⟨fun u => ?_, h.ready_nodup, h.sleep_nodup, h.waiters_nodup, h.all_nodup.erase _,
    h.idle_some, fun i hi' => ?_, fun i hi' => ?_, fun t ht => ?_, h.allocated_nodup,
    h.initial_not_allocated, h.holder_ne_idle⟩, fun t ht => ?_⟩
  · by_cases hu : u = s.cur
    · subst hu
      exact ⟨by simp [h.cur_not_ready], by simp, by simp [h.cur_not_sleeping],
        by simp [h.cur_not_waiting], fun hm => absurd hm hcur⟩
    · exact (h.placed u).congr (by simp [hu]) rfl Iff.rfl Iff.rfl Iff.rfl (hmem u hu)
  · have hne : i ≠ s.cur := fun he => hi (he ▸ hi')
    exact (hmem i hne).2 (h.idle_registered i hi')
  · have hne : i ≠ s.cur := fun he => hi (he ▸ hi')
    simpa [hne] using h.idle_not_pending i hi'
  · exact h.all_allocated t (List.mem_of_mem_erase ht)
  · have htc : t ≠ s.cur := fun he => hcur (he ▸ ht)
    simpa [htc] using (h.running_iff t (List.mem_of_mem_erase ht)).not.2 htc

/-! ### Admission to `ready_list` -/

/-- `thread_unblock`'s admission keeps the queue discipline for a thread other than the idle
thread that is registered and in no queue; every other status is left alone. -/
theorem Queues.readied (h : s.Queues) {t : ℕ} (hr : t ∉ s.readyList)
    (hi : s.idleThread ≠ some t) (ha : t ∈ s.allList) (hs : t ∉ s.sleepList)
    (hw : t ∉ s.waiters) : (s.readied t).Queues := by
  refine ⟨fun u => ?_, (listInsertOrdered_perm _ t _).nodup_iff.2
    (List.nodup_cons.2 ⟨hr, h.ready_nodup⟩), h.sleep_nodup, h.waiters_nodup, h.all_nodup, h.idle_some,
    h.idle_registered, fun i hi' => ?_, h.all_allocated, h.allocated_nodup,
    h.initial_not_allocated, h.holder_ne_idle⟩
  · by_cases hu : u = t
    · subst hu
      exact ⟨by simp [hi], fun _ => ha, (absurd · hs), (absurd · hw), by simp⟩
    · exact (h.placed u).congr (by simp [hu]) rfl (by simp [hu]) Iff.rfl Iff.rfl Iff.rfl
  · have hne : i ≠ t := fun he => hi (he ▸ hi')
    simpa [hne] using h.idle_not_pending i hi'

/-- The idle thread marked READY by `thread_yield`, outside `ready_list`: nothing runs. -/
theorem StatusInv.idleYield (h : s.StatusInv) (hi : s.idleThread = some s.cur) :
    (s.setThread s.cur { s.tcb s.cur with status := .ready }).Dispatchable := by
  refine ⟨⟨fun u => ?_, h.ready_nodup, h.sleep_nodup, h.waiters_nodup, h.all_nodup, h.idle_some,
    h.idle_registered, fun i hi' => ?_, h.all_allocated, h.allocated_nodup,
    h.initial_not_allocated, h.holder_ne_idle⟩, fun t ht => ?_⟩
  · by_cases hu : u = s.cur
    · subst hu
      exact ⟨by simp [h.cur_not_ready, hi], fun _ => h.cur_registered,
        by simp [h.cur_not_sleeping], by simp [h.cur_not_waiting], by simp⟩
    · exact (h.placed u).congr (by simp [hu]) rfl Iff.rfl Iff.rfl Iff.rfl Iff.rfl
  · by_cases hi'' : i = s.cur
    · subst hi''; simpa using h.idle_not_pending _ hi'
    · simpa [hi''] using h.idle_not_pending i hi'
  · by_cases htc : t = s.cur
    · simp [htc]
    · simpa [htc] using (h.running_iff t ht).not.2 htc

/-- A thread other than the idle thread yields: it is admitted to `ready_list` and nothing
runs. -/
theorem StatusInv.yield (h : s.StatusInv) (hi : s.idleThread ≠ some s.cur) :
    (s.readied s.cur).Dispatchable := by
  refine ⟨h.toQueues.readied h.cur_not_ready hi h.cur_registered h.cur_not_sleeping
    h.cur_not_waiting, fun t ht => ?_⟩
  by_cases htc : t = s.cur
  · simp [htc]
  · simpa [htc] using (h.running_iff t ht).not.2 htc

/-- A registered BLOCKED thread other than the running and the idle thread, in no queue, is
unblocked: the discipline holds again. -/
theorem StatusInv.readied (h : s.StatusInv) {t : ℕ} (hb : (s.tcb t).status = .blocked)
    (hi : s.idleThread ≠ some t) (ha : t ∈ s.allList) (hs : t ∉ s.sleepList)
    (hw : t ∉ s.waiters) : (s.readied t).StatusInv := by
  have hr : t ∉ s.readyList := fun hm => by simpa [hb] using ((h.placed t).ready_iff.1 hm).1
  have htc : t ≠ s.cur := fun he => by simp [he, h.cur_running] at hb
  refine ⟨h.toQueues.readied hr hi ha hs hw, h.cur_registered, fun u hu => ?_⟩
  by_cases hut : u = t
  · subst hut; simp [htc]
  · simpa [hut] using h.running_iff u hu

/-! ### Changes the discipline does not see -/

/-- `s'` keeps everything the discipline reads, up to the order of `ready_list`, entries dropped
from `sleep_list` and the wait queues, and locks handed to threads other than the idle thread. -/
structure StatusFrame (s s' : Sched) : Prop where
  status_eq : ∀ t, (s'.tcb t).status = (s.tcb t).status
  idle_pending : ∀ i, s.idleThread = some i → (s'.tcb i).sleepPending = (s.tcb i).sleepPending
  cur_eq : s'.cur = s.cur
  idle_eq : s'.idleThread = s.idleThread
  initial_eq : s'.initialThread = s.initialThread
  ready_perm : s'.readyList.Perm s.readyList
  sleep_sublist : s'.sleepList.Sublist s.sleepList
  waiters_sublist : s'.waiters.Sublist s.waiters
  all_eq : s'.allList = s.allList
  allocated_eq : s'.allocated = s.allocated
  holder : ∀ l h, (s'.lock l).holder = some h → (s.lock l).holder = some h ∨ s.idleThread ≠ some h

theorem StatusFrame.refl (s : Sched) : StatusFrame s s :=
  ⟨fun _ => rfl, fun _ _ => rfl, rfl, rfl, rfl, .refl _, .refl _, .refl _, rfl, rfl,
    fun _ _ h => .inl h⟩

theorem StatusFrame.trans {s₁ s₂ s₃ : Sched} (h₁ : StatusFrame s₁ s₂) (h₂ : StatusFrame s₂ s₃) :
    StatusFrame s₁ s₃ where
  status_eq t := (h₂.status_eq t).trans (h₁.status_eq t)
  idle_pending i hi := (h₂.idle_pending i (h₁.idle_eq ▸ hi)).trans (h₁.idle_pending i hi)
  cur_eq := h₂.cur_eq.trans h₁.cur_eq
  idle_eq := h₂.idle_eq.trans h₁.idle_eq
  initial_eq := h₂.initial_eq.trans h₁.initial_eq
  ready_perm := h₂.ready_perm.trans h₁.ready_perm
  sleep_sublist := h₂.sleep_sublist.trans h₁.sleep_sublist
  waiters_sublist := h₂.waiters_sublist.trans h₁.waiters_sublist
  all_eq := h₂.all_eq.trans h₁.all_eq
  allocated_eq := h₂.allocated_eq.trans h₁.allocated_eq
  holder l x hx := (h₂.holder l x hx).elim (h₁.holder l x) fun h => .inr (h₁.idle_eq ▸ h)

theorem StatusFrame.queues (h : StatusFrame s s') (hq : s.Queues) : s'.Queues where
  placed t := by
    have hp := hq.placed t
    refine ⟨?_, ?_, fun hm => ?_, fun hm => ?_, ?_⟩
    · rw [h.ready_perm.mem_iff, hp.ready_iff, h.status_eq, h.idle_eq]
    · rw [h.status_eq, h.all_eq]; exact hp.ready_registered
    · obtain ⟨hb, hi, ha, hw⟩ := hp.sleeping (h.sleep_sublist.subset hm)
      rw [h.status_eq, h.idle_eq, h.all_eq]
      exact ⟨hb, hi, ha, fun hw' => hw (h.waiters_sublist.subset hw')⟩
    · rw [h.status_eq, h.idle_eq, h.all_eq]; exact hp.waiting (h.waiters_sublist.subset hm)
    · rw [h.status_eq, h.all_eq]; exact hp.registered
  ready_nodup := h.ready_perm.nodup_iff.2 hq.ready_nodup
  sleep_nodup := hq.sleep_nodup.sublist h.sleep_sublist
  waiters_nodup := hq.waiters_nodup.sublist h.waiters_sublist
  all_nodup := h.all_eq ▸ hq.all_nodup
  idle_some := h.idle_eq ▸ hq.idle_some
  idle_registered i hi := h.all_eq ▸ hq.idle_registered i (h.idle_eq ▸ hi)
  idle_not_pending i hi := by
    rw [h.idle_eq] at hi; rw [h.idle_pending i hi]; exact hq.idle_not_pending i hi
  all_allocated t ht := by
    rw [h.allocated_eq, h.initial_eq]; exact hq.all_allocated t (h.all_eq ▸ ht)
  allocated_nodup := h.allocated_eq ▸ hq.allocated_nodup
  initial_not_allocated := by rw [h.allocated_eq, h.initial_eq]; exact hq.initial_not_allocated
  holder_ne_idle l x hx := by
    rw [h.idle_eq]; exact (h.holder l x hx).elim (hq.holder_ne_idle l x) id

theorem StatusFrame.statusInv (h : StatusFrame s s') (hs : s.StatusInv) : s'.StatusInv :=
  ⟨h.queues hs.toQueues, by rw [h.all_eq, h.cur_eq]; exact hs.cur_registered,
    fun t ht => by rw [h.status_eq, h.cur_eq]; exact hs.running_iff t (h.all_eq ▸ ht)⟩

/-- The fields the discipline reads. -/
def statusView (s : Sched) :=
  (s.tcb, s.cur, s.idleThread, s.initialThread, s.readyList, s.sleepList, s.allList, s.waiters,
    s.allocated, s.lock)

theorem StatusFrame.of_statusView (h : s'.statusView = s.statusView) : StatusFrame s s' := by
  simp only [statusView, Prod.mk.injEq] at h
  obtain ⟨h1, h2, h3, h4, h5, h6, h7, h8, h9, h10⟩ := h
  exact ⟨by simp [h1], by simp [h1], h2, h3, h4, by rw [h5], by rw [h6], by rw [h8], h7, h9,
    fun l x hx => .inl (by rwa [h10] at hx)⟩

/-- Rewriting a thread's descriptor keeps the discipline when its status stays, and so does the
idle thread's `sleepPending`. -/
theorem statusFrame_setThread (s : Sched) (t : ℕ) (th : Thread) (hst : th.status = (s.tcb t).status)
    (hp : s.idleThread = some t → th.sleepPending = (s.tcb t).sleepPending) :
    StatusFrame s (s.setThread t th) where
  status_eq u := by by_cases hu : u = t <;> simp [hu, hst]
  idle_pending i hi := by
    by_cases hu : i = t
    · subst hu; simpa using hp hi
    · simp [hu]
  cur_eq := rfl
  idle_eq := rfl
  initial_eq := rfl
  ready_perm := .refl _
  sleep_sublist := .refl _
  waiters_sublist := .refl _
  all_eq := rfl
  allocated_eq := rfl
  holder _ _ h := .inl h

/-- Handing lock `l` to a thread other than the idle thread, or releasing it. -/
theorem statusFrame_setLock (s : Sched) (l : ℕ) (v : Lock)
    (hv : ∀ h, v.holder = some h → s.idleThread ≠ some h) :
    StatusFrame s { s with lock := Function.update s.lock l v } := by
  refine ⟨fun _ => rfl, fun _ _ => rfl, rfl, rfl, rfl, .refl _, .refl _, .refl _, rfl, rfl,
    fun l' x hx => ?_⟩
  by_cases hl : l' = l
  · subst hl; exact .inr (hv x (by simpa using hx))
  · exact .inl (by simpa [Function.update_noteq hl] using hx)

theorem statusFrame_sortReady (s : Sched) (less : ℕ → ℕ → Bool) :
    StatusFrame s { s with readyList := listSort less s.readyList } :=
  ⟨fun _ => rfl, fun _ _ => rfl, rfl, rfl, rfl, listSort_perm less _, .refl _, .refl _, rfl, rfl,
    fun _ _ h => .inl h⟩

theorem statusFrame_updatePriority (s : Sched) (t : ℕ) : StatusFrame s (updatePriority s t) := by
  unfold updatePriority
  split_ifs
  · exact .refl s
  · exact statusFrame_setThread _ _ _ (by rfl) fun _ => by rfl

theorem statusFrame_updateRecentCpu (s : Sched) (t : ℕ) : StatusFrame s (updateRecentCpu s t) := by
  unfold updateRecentCpu
  split_ifs
  · exact .refl s
  · exact statusFrame_setThread _ _ _ (by rfl) fun _ => by rfl

theorem statusFrame_threadForeach {f : Sched → ℕ → Sched} (hf : ∀ s t, StatusFrame s (f s t))
    (s : Sched) : StatusFrame s (threadForeach f s) := by
  unfold threadForeach
  suffices ∀ (l : List ℕ) (s : Sched), StatusFrame s (l.foldl f s) from this _ _
  intro l
  induction l with
  | nil => exact StatusFrame.refl
  | cons a l ih => exact fun s => (hf s a).trans (ih _)

theorem statusFrame_updatePriorityForEach (s : Sched) :
    StatusFrame s (updatePriorityForEach s) :=
  (statusFrame_threadForeach statusFrame_updatePriority s).trans (statusFrame_sortReady _ _)

theorem statusFrame_createRecompute (mlfqs : Bool) (s : Sched) (t : ℕ) :
    StatusFrame s (createRecompute mlfqs s t) := by
  unfold createRecompute
  split_ifs
  · exact (((statusFrame_updateRecentCpu _ _).trans (statusFrame_updatePriority _ _)).trans
      (statusFrame_updateRecentCpu _ _)).trans (statusFrame_updatePriority _ _)
  · exact .refl s

theorem statusFrame_threadRemoveLock (s : Sched) (l : ℕ) :
    StatusFrame s (threadRemoveLock s l) := by
  have h₁ := statusFrame_setThread s s.cur
    { s.tcb s.cur with locks := (s.tcb s.cur).locks.erase l } rfl fun _ => rfl
  unfold threadRemoveLock
  dsimp only
  split
  · exact h₁.trans (statusFrame_setThread _ _ _ (by rfl) fun _ => by rfl)
  · split_ifs
    · exact h₁.trans (statusFrame_setThread _ _ _ (by rfl) fun _ => by rfl)
    · exact h₁

/-! ### The scheduler's functions keep the discipline -/

theorem threadYield_statusInv (h : s.StatusInv) (hy : threadYield s = some s') : s'.StatusInv := by
  by_cases hi : s.idleThread = some s.cur
  · rw [threadYield_eq_of_idle s hi] at hy; exact schedule_statusInv (h.idleYield hi) hy
  · rw [threadYield_eq_of_ne s hi] at hy; exact schedule_statusInv (h.yield hi) hy

theorem threadCondYield_statusInv (h : s.StatusInv) (hy : threadCondYield s = some s') :
    s'.StatusInv :=
  (threadCondYield_cases hy).elim (fun he => he ▸ h) (threadYield_statusInv h)

/-- `thread_donate_priority (t)` on a thread other than the idle thread: a READY `t` moves within
`ready_list`, a RUNNING one makes the caller consider yielding. -/
theorem threadDonatePriority_statusInv (h : s.StatusInv) {t : ℕ} (hi : s.idleThread ≠ some t)
    (hd : threadDonatePriority s t = some s') : s'.StatusInv := by
  have h₁ := (statusFrame_setThread s t { s.tcb t with priority := (s.tcb s.cur).priority } rfl
    fun _ => rfl).statusInv h
  unfold threadDonatePriority at hd
  dsimp only at hd
  split at hd
  · rename_i hrd
    cases hd
    have hmem : t ∈ s.readyList := (h.placed t).ready_iff.2 ⟨by simpa using hrd, hi⟩
    refine StatusFrame.statusInv ?_ h₁
    refine ⟨fun u => ?_, fun i hi' => ?_, rfl, rfl, rfl, ?_, .refl _, .refl _, rfl, rfl,
      fun _ _ hx => .inl hx⟩
    · by_cases hu : u = t <;> simp [hu]
    · have hne : i ≠ t := fun he => hi (he ▸ hi')
      simp [hne]
    · exact (listInsertOrdered_perm _ t _).trans (List.perm_cons_erase hmem).symm
  · exact threadCondYield_statusInv h₁ hd
  · cases hd; exact h₁

/-- `thread_set_nice`: the caller's priority is recomputed, then `ready_list` re-sorted or a
yield considered. -/
theorem threadSetNice_statusInv (h : s.StatusInv) {nice : ℤ} (hn : threadSetNice s nice = some s') :
    s'.StatusInv := by
  unfold threadSetNice at hn
  dsimp only at hn
  split_ifs at hn
  · cases hn; exact h
  · cases hn; exact h
  · have h₁ := ((statusFrame_setThread s s.cur { s.tcb s.cur with nice := nice } rfl
      fun _ => rfl).trans (statusFrame_updatePriority _ s.cur)).statusInv h
    split at hn
    · cases hn; exact (statusFrame_sortReady _ _).statusInv h₁
    · exact threadCondYield_statusInv h₁ hn
    · cases hn; exact h₁

/-- `thread_set_priority`: the base priority is recorded, and the working priority set and the
caller yields when it holds no lock or rises. -/
theorem threadSetPriority_statusInv {mlfqs : Bool} (h : s.StatusInv) {p : ℤ}
    (hp : threadSetPriority mlfqs s p = some s') : s'.StatusInv := by
  unfold threadSetPriority at hp
  dsimp only at hp
  have h₁ := (statusFrame_setThread s s.cur { s.tcb s.cur with oldPriority := p } rfl
    fun _ => rfl).statusInv h
  split_ifs at hp
  · cases hp; exact h
  · cases hp; exact h
  · exact threadYield_statusInv
      ((statusFrame_setThread _ _ _ (by rfl) fun _ => by rfl).statusInv h₁) hp
  · cases hp; exact h₁

/-- `thread_create` on two fresh, different pages: the new thread is registered BLOCKED, then
admitted, and the creator considers yielding. -/
theorem threadCreate_statusInv {mlfqs : Bool} (h : s.StatusInv) {priority : ℤ} {t q : ℕ}
    {tid : Tid} (ht : s.FreshPage t) (hq : s.FreshPage q) (htq : t ≠ q)
    (hc : threadCreate mlfqs s priority (some t) (some q) = some (s', tid)) : s'.StatusInv := by
  rw [threadCreate_some_some] at hc
  obtain ⟨s₁, h₁, hc⟩ := Option.bind_eq_some.1 hc
  obtain ⟨s₇, h₇, hc⟩ := Option.bind_eq_some.1 hc
  cases hc
  obtain ⟨-, rfl⟩ := initThread_eq_some_iff.1 h₁
  -- the page is fresh, so the thread is in no list yet
  have hta : t ∉ s.allList := fun hm => (h.all_allocated t hm).elim ht.1 ht.2
  have hnr : t ∉ s.readyList := fun hm => hta (h.registered_of_ready hm)
  have hns : t ∉ s.sleepList := fun hm => hta ((h.placed t).sleeping hm).2.2.1
  have hnw : t ∉ s.waiters := fun hm => hta ((h.placed t).waiting hm).2.2
  have hti : s.idleThread ≠ some t := fun he => hta (h.idle_registered t he)
  have htc : t ≠ s.cur := fun he => hta (he ▸ h.cur_registered)
  set s₄ := Sched.registerChild { s.setThread t
      { tid := 0, status := .blocked, priority := priority, wakeupTime := 0,
        recentCpu := if t = s.initialThread then 0 else threadGetRecentCpu s,
        nice := if t = s.initialThread then 0 else (s.tcb s.cur).nice,
        oldPriority := priority, locks := [], stamp := 0, sleepPending := false } with
      allList := t :: s.allList } t q
  have h₄ : s₄.StatusInv := by
    refine ⟨⟨fun u => ?_, h.ready_nodup, h.sleep_nodup, h.waiters_nodup,
      List.nodup_cons.2 ⟨hta, h.all_nodup⟩, h.idle_some, fun i hi => ?_, fun i hi => ?_,
      fun u hu => ?_, ?_, ?_, h.holder_ne_idle⟩, ?_, fun u hu => ?_⟩
    · by_cases hut : u = t
      · subst hut
        exact ⟨by simp [s₄, hnr], by simp [s₄], (absurd · hns), (absurd · hnw), by simp [s₄]⟩
      · exact (h.placed u).congr (by simp [s₄, hut]) rfl Iff.rfl Iff.rfl Iff.rfl (by simp [s₄, hut])
    · simpa [s₄] using .inr (h.idle_registered i hi)
    · have hne : i ≠ t := fun he => hti (he ▸ hi)
      simpa [s₄, hne] using h.idle_not_pending i hi
    · simp only [s₄, Sched.registerChild_allList, List.mem_cons] at hu
      rcases hu with rfl | hu
      · simp [s₄]
      · simpa [s₄] using (h.all_allocated u hu).imp (fun h => .inr (.inr h)) id
    · simpa [s₄, Ne.symm htq, ht.1, hq.1] using h.allocated_nodup
    · simpa [s₄, Ne.symm ht.2, Ne.symm hq.2] using h.initial_not_allocated
    · simpa [s₄] using .inr h.cur_registered
    · simp only [s₄, Sched.registerChild_allList, List.mem_cons] at hu
      rcases hu with rfl | hu
      · simp [s₄, htc]
      · have hut : u ≠ t := fun he => hta (he ▸ hu)
        simpa [s₄, hut] using h.running_iff u hu
  have h₅ := h₄.readied (t := t) (by simp [s₄]) (by simpa [s₄] using hti) (by simp [s₄])
    (by simpa [s₄] using hns) (by simpa [s₄] using hnw)
  exact threadCondYield_statusInv ((statusFrame_createRecompute _ _ _).statusInv h₅) h₇

/-- The wake-up loop: every thread it takes off the front of `sleep_list` is admitted. -/
theorem wakeupFrom_statusInv :
    ∀ (l : List ℕ) {s s' : Sched}, s.StatusInv → s.sleepList = l → wakeupFrom s l = some s' →
      s'.StatusInv
  | [], _, _, h, _, hw => by cases hw; exact h
  | t :: l, s, s', h, hl, hw => by
      rw [wakeupFrom_cons] at hw
      split_ifs at hw
      · cases hw; exact h
      obtain ⟨s₁, hu, hw⟩ := Option.bind_eq_some.1 hw
      obtain ⟨hb, rfl⟩ := threadUnblock_eq_some_iff.1 hu
      have hmem : t ∈ s.sleepList := hl ▸ List.mem_cons_self t l
      obtain ⟨-, hi, ha, hnw⟩ := (h.placed t).sleeping hmem
      have hnl : t ∉ l := (List.nodup_cons.1 (hl ▸ h.sleep_nodup)).1
      have h₀ : StatusFrame s
          { s.setThread t { s.tcb t with wakeupTime := 0 } with sleepList := l } :=
        (statusFrame_setThread _ _ _ (by rfl) fun _ => by rfl).trans
          ⟨fun _ => rfl, fun _ _ => rfl, rfl, rfl, rfl, .refl _, by simp [hl], .refl _, rfl, rfl,
            fun _ _ hx => .inl hx⟩
      exact wakeupFrom_statusInv l ((h₀.statusInv h).readied hb (by simpa using hi)
        (by simpa using ha) hnl (by simpa using hnw)) (by simp) hw

/-- `thread_tick`, with its `thread_wakeup`. -/
theorem threadTick_statusInv (h : s.StatusInv) {b : Bool}
    (ht : threadTick s = some (s', b)) : s'.StatusInv := by
  unfold threadTick at ht
  split_ifs at ht
  obtain ⟨s₂, hw, he⟩ := Option.map_eq_some'.1 ht
  cases he
  have h₁ : ({ s with threadTicks := s.threadTicks + 1 } : Sched).StatusInv := by
    refine StatusFrame.statusInv ?_ h; exact .of_statusView rfl
  exact wakeupFrom_statusInv _ h₁ rfl hw

end Sched

end Pintos
