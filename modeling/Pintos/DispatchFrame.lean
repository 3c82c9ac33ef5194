import Pintos.StatusDiscipline

/-!
**What dispatching leaves alone.**

Blocking, unblocking, yielding, sleeping, the timer tick and `schedule` itself move threads between
states and queues, and touch nothing else: not a thread's tid, priorities, held locks, `nice` or
`recent_cpu`, not `all_list`, the locks, the idle and initial threads, the tid counter,
`child_list` or `load_avg`.  `Pintos.Sched.KeepsIdentity` says so, and this module proves it once
for each of those functions, so that an invariant about the fields they keep is preserved by all of
them at once.

Main definitions:

* `Pintos.Thread.identity` — the fields of a thread descriptor that dispatching keeps;
* `Pintos.Sched.KeepsIdentity` — a change of the scheduler's bookkeeping only;
* `Pintos.Op.Dispatching` — the operations that only dispatch.

Main results:

* `Pintos.Sched.keepsIdentity_schedule`, `Pintos.Sched.keepsIdentity_threadYield`,
  `Pintos.Sched.keepsIdentity_threadCondYield`, `Pintos.Sched.keepsIdentity_wakeupFrom`,
  `Pintos.Sched.keepsIdentity_threadTick`;
* `Pintos.keepsIdentity_step` — every step that only dispatches;
* `Pintos.Sched.schedule_allocated`, `Pintos.allocated_step` — a dispatch frees a page only when
  the thread it leaves is DYING, so no step that only dispatches frees one.
-/

set_option autoImplicit false

namespace Pintos

/-- The fields of a thread descriptor that dispatching keeps. -/
def Thread.identity (th : Thread) : Tid × ℤ × ℤ × List ℕ × ℤ × ℤ :=
  (th.tid, th.priority, th.oldPriority, th.locks, th.nice, th.recentCpu)

namespace Sched

/-- The fields of the scheduler that dispatching keeps. -/
def keptView (s : Sched) :=
  (s.allList, s.lock, s.idleThread, s.initialThread, s.tidLog, s.nextTid, s.childList, s.loadAvg)

/-- `s'` differs from `s` only in the scheduler's bookkeeping: statuses, queues, the running
thread, ticks, stamps, wake-up ticks, `sleepPending`, and the pages freed at a dispatch. -/
structure KeepsIdentity (s s' : Sched) : Prop where
  identity_eq : ∀ t, (s'.tcb t).identity = (s.tcb t).identity
  view_eq : s'.keptView = s.keptView

variable {s s' s'' : Sched}

theorem KeepsIdentity.refl (s : Sched) : KeepsIdentity s s := ⟨fun _ => rfl, rfl⟩

theorem KeepsIdentity.trans (h₁ : KeepsIdentity s s') (h₂ : KeepsIdentity s' s'') :
    KeepsIdentity s s'' :=
  ⟨fun t => (h₂.identity_eq t).trans (h₁.identity_eq t), h₂.view_eq.trans h₁.view_eq⟩

theorem KeepsIdentity.priority_eq (h : KeepsIdentity s s') (t : ℕ) :
    (s'.tcb t).priority = (s.tcb t).priority :=
  congrArg (fun x => x.2.1) (h.identity_eq t)

theorem KeepsIdentity.oldPriority_eq (h : KeepsIdentity s s') (t : ℕ) :
    (s'.tcb t).oldPriority = (s.tcb t).oldPriority :=
  congrArg (fun x => x.2.2.1) (h.identity_eq t)

theorem KeepsIdentity.locks_eq (h : KeepsIdentity s s') (t : ℕ) :
    (s'.tcb t).locks = (s.tcb t).locks :=
  congrArg (fun x => x.2.2.2.1) (h.identity_eq t)

theorem KeepsIdentity.allList_eq (h : KeepsIdentity s s') : s'.allList = s.allList :=
  congrArg (fun x => x.1) h.view_eq

theorem KeepsIdentity.lock_eq (h : KeepsIdentity s s') : s'.lock = s.lock :=
  congrArg (fun x => x.2.1) h.view_eq

theorem KeepsIdentity.idleThread_eq (h : KeepsIdentity s s') : s'.idleThread = s.idleThread :=
  congrArg (fun x => x.2.2.1) h.view_eq

theorem KeepsIdentity.initialThread_eq (h : KeepsIdentity s s') :
    s'.initialThread = s.initialThread :=
  congrArg (fun x => x.2.2.2.1) h.view_eq

theorem KeepsIdentity.tidLog_eq (h : KeepsIdentity s s') : s'.tidLog = s.tidLog :=
  congrArg (fun x => x.2.2.2.2.1) h.view_eq

theorem KeepsIdentity.nextTid_eq (h : KeepsIdentity s s') : s'.nextTid = s.nextTid :=
  congrArg (fun x => x.2.2.2.2.2.1) h.view_eq

theorem KeepsIdentity.childList_eq (h : KeepsIdentity s s') : s'.childList = s.childList :=
  congrArg (fun x => x.2.2.2.2.2.2.1) h.view_eq

theorem KeepsIdentity.loadAvg_eq (h : KeepsIdentity s s') : s'.loadAvg = s.loadAvg :=
  congrArg (fun x => x.2.2.2.2.2.2.2) h.view_eq

theorem KeepsIdentity.recentCpu_eq (h : KeepsIdentity s s') (t : ℕ) :
    (s'.tcb t).recentCpu = (s.tcb t).recentCpu :=
  congrArg (fun x => x.2.2.2.2.2) (h.identity_eq t)

theorem KeepsIdentity.nice_eq (h : KeepsIdentity s s') (t : ℕ) : (s'.tcb t).nice = (s.tcb t).nice :=
  congrArg (fun x => x.2.2.2.2.1) (h.identity_eq t)

/-- Rewriting a descriptor without touching its identity. -/
theorem keepsIdentity_setThread (s : Sched) (t : ℕ) (th : Thread)
    (h : th.identity = (s.tcb t).identity) : KeepsIdentity s (s.setThread t th) :=
  ⟨fun u => by by_cases hu : u = t <;> simp [hu, h], rfl⟩

theorem keepsIdentity_switchTo (s : Sched) (next : ℕ) (rest : List ℕ) :
    KeepsIdentity s (s.switchTo next rest) :=
  ⟨fun u => by by_cases hu : u = next <;> simp [hu, Thread.identity], rfl⟩

theorem keepsIdentity_readied (s : Sched) (t : ℕ) : KeepsIdentity s (s.readied t) :=
  ⟨fun u => by by_cases hu : u = t <;> simp [hu, Thread.identity], rfl⟩

theorem keepsIdentity_schedule (h : schedule s = some s') : KeepsIdentity s s' := by
  obtain ⟨-, next, rest, -, rfl⟩ := schedule_eq_some_iff.1 h
  exact keepsIdentity_switchTo s next rest

/-- `thread_block`, from any state whose identity fields match. -/
theorem keepsIdentity_threadBlock (h : threadBlock s = some s') : KeepsIdentity s s' :=
  (keepsIdentity_setThread _ _ _ (by rfl)).trans (keepsIdentity_schedule h)

theorem keepsIdentity_threadYield (h : threadYield s = some s') : KeepsIdentity s s' := by
  by_cases hi : s.idleThread = some s.cur
  · rw [threadYield_eq_of_idle s hi] at h
    exact (keepsIdentity_setThread _ _ _ (by rfl)).trans (keepsIdentity_schedule h)
  · rw [threadYield_eq_of_ne s hi] at h
    exact (keepsIdentity_readied s s.cur).trans (keepsIdentity_schedule h)

theorem keepsIdentity_threadCondYield (h : threadCondYield s = some s') : KeepsIdentity s s' :=
  (threadCondYield_cases h).elim (fun he => he ▸ .refl s) keepsIdentity_threadYield

theorem keepsIdentity_wakeupFrom :
    ∀ (l : List ℕ) {s s' : Sched}, wakeupFrom s l = some s' → KeepsIdentity s s'
  | [], _, _, h => by cases h; exact .refl _
  | t :: l, s, s', h => by
      rw [wakeupFrom_cons] at h
      split_ifs at h
      · cases h; exact .refl s
      obtain ⟨s₁, hu, hw⟩ := Option.bind_eq_some.1 h
      obtain ⟨-, rfl⟩ := threadUnblock_eq_some_iff.1 hu
      have h₀ : KeepsIdentity s
          { s.setThread t { s.tcb t with wakeupTime := 0 } with sleepList := l } :=
        (keepsIdentity_setThread s t { s.tcb t with wakeupTime := 0 } rfl).trans ⟨fun _ => rfl, rfl⟩
      exact h₀.trans ((keepsIdentity_readied _ t).trans (keepsIdentity_wakeupFrom l hw))

theorem keepsIdentity_threadTick {b : Bool} (h : threadTick s = some (s', b)) :
    KeepsIdentity s s' := by
  unfold threadTick at h
  split_ifs at h
  obtain ⟨s₂, hw, he⟩ := Option.map_eq_some'.1 h
  cases he
  exact (show KeepsIdentity s { s with threadTicks := s.threadTicks + 1 } from
    ⟨fun _ => rfl, rfl⟩).trans (keepsIdentity_wakeupFrom _ hw)

/-! ### The pages a dispatch frees -/

/-- `schedule` frees a page only when the thread it switches away from is DYING. -/
theorem schedule_allocated (hd : (s.tcb s.cur).status ≠ .dying) (h : schedule s = some s') :
    s'.allocated = s.allocated := by
  obtain ⟨-, next, rest, -, rfl⟩ := schedule_eq_some_iff.1 h
  simp [hd]

theorem threadBlock_allocated (h : threadBlock s = some s') : s'.allocated = s.allocated :=
  (schedule_allocated (by simp) h).trans rfl

theorem threadYield_allocated (h : threadYield s = some s') : s'.allocated = s.allocated := by
  by_cases hi : s.idleThread = some s.cur
  · rw [threadYield_eq_of_idle s hi] at h; exact (schedule_allocated (by simp) h).trans rfl
  · rw [threadYield_eq_of_ne s hi] at h; exact (schedule_allocated (by simp) h).trans rfl

theorem threadCondYield_allocated (h : threadCondYield s = some s') : s'.allocated = s.allocated :=
  (threadCondYield_cases h).elim (fun he => he ▸ rfl) threadYield_allocated

theorem wakeupFrom_allocated :
    ∀ (l : List ℕ) {s s' : Sched}, wakeupFrom s l = some s' → s'.allocated = s.allocated
  | [], _, _, h => by cases h; rfl
  | t :: l, s, s', h => by
      rw [wakeupFrom_cons] at h
      split_ifs at h
      · cases h; rfl
      obtain ⟨s₁, hu, hw⟩ := Option.bind_eq_some.1 h
      obtain ⟨-, rfl⟩ := threadUnblock_eq_some_iff.1 hu
      exact (wakeupFrom_allocated l hw).trans rfl

theorem threadTick_allocated {b : Bool} (h : threadTick s = some (s', b)) :
    s'.allocated = s.allocated := by
  unfold threadTick at h
  split_ifs at h
  obtain ⟨s₂, hw, he⟩ := Option.map_eq_some'.1 h
  cases he
  exact (wakeupFrom_allocated _ hw).trans rfl

end Sched

open Sched

/-- The operations that only dispatch: waiting on and waking from a semaphore, the idle thread's
block, yielding, both halves of `thread_sleep` and the timer tick. -/
def Op.Dispatching : Op → Prop
  | .semaDown | .semaUp _ | .idleBlock | .yield | .sleepBegin _ | .sleepEnd | .tick => True
  | _ => False

/-- **A dispatching step keeps every identity field.** -/
theorem keepsIdentity_step {mlfqs : Bool} {s s' : Sched} {op : Op}
    (hs : step mlfqs s op = some s') (hd : op.Dispatching) : KeepsIdentity s s' := by
  cases op with
  | semaDown =>
      simp only [step] at hs
      split_ifs at hs
      exact .trans (by exact ⟨fun _ => rfl, rfl⟩) (keepsIdentity_threadBlock hs)
  | semaUp t =>
      simp only [step] at hs
      split_ifs at hs
      obtain ⟨-, rfl⟩ := threadUnblock_eq_some_iff.1 hs
      exact .trans (by exact ⟨fun _ => rfl, rfl⟩) (keepsIdentity_readied _ t)
  | idleBlock =>
      simp only [step] at hs
      split_ifs at hs
      exact keepsIdentity_threadBlock hs
  | yield => exact keepsIdentity_threadYield hs
  | sleepBegin n =>
      simp only [step, threadSleepBegin] at hs
      split_ifs at hs
      cases hs
      exact keepsIdentity_setThread _ _ _ rfl
  | sleepEnd =>
      simp only [step, threadSleepEnd] at hs
      split_ifs at hs
      exact (keepsIdentity_setThread s s.cur { s.tcb s.cur with sleepPending := false } rfl).trans
        (.trans (by exact ⟨fun _ => rfl, rfl⟩) (keepsIdentity_threadBlock hs))
  | tick =>
      obtain ⟨⟨s₁, b⟩, ht, rfl⟩ := Option.map_eq_some'.1 hs
      exact .trans (by exact ⟨fun _ => rfl, rfl⟩) (keepsIdentity_threadTick ht)
  | _ => exact hd.elim

/-- **A dispatching step frees no page**: the thread it switches away from is BLOCKED or READY. -/
theorem allocated_step {mlfqs : Bool} {s s' : Sched} {op : Op}
    (hs : step mlfqs s op = some s') (hd : op.Dispatching) : s'.allocated = s.allocated := by
  cases op with
  | semaDown | idleBlock =>
      simp only [step] at hs
      split_ifs at hs
      exact (threadBlock_allocated hs).trans rfl
  | semaUp t =>
      simp only [step] at hs
      split_ifs at hs
      obtain ⟨-, rfl⟩ := threadUnblock_eq_some_iff.1 hs
      rfl
  | yield => exact threadYield_allocated hs
  | sleepBegin n =>
      simp only [step, threadSleepBegin] at hs
      split_ifs at hs
      cases hs
      rfl
  | sleepEnd =>
      simp only [step, threadSleepEnd] at hs
      split_ifs at hs
      exact (threadBlock_allocated hs).trans rfl
  | tick =>
      obtain ⟨⟨s₁, b⟩, ht, rfl⟩ := Option.map_eq_some'.1 hs
      exact (threadTick_allocated ht).trans rfl
  | _ => exact hd.elim

end Pintos
