import Pintos.Scheduler

/-!
**The scheduler as a transition system.**

`Pintos.Op` lists what can happen to the scheduler between two operation boundaries, and
`Pintos.step` performs it.  Three kinds of agents act:

* the running thread, executing its own code (`Pintos.Sched.callable`: it is not the idle thread
  and not inside `thread_sleep`): it creates threads, blocks on a semaphore, sleeps, sets its
  priority or `nice`, takes, waits for and releases locks, and exits;
* the idle thread, whose only action is the `thread_block` of its loop;
* interrupts and the collaborators they run, at any time: a timer tick (`timer_interrupt` counts
  the tick and calls `thread_tick`), the yield `intr_yield_on_return` asks for, a `sema_up` that
  releases a waiter, and under MLFQS the timer's statistic updates.

The lock and semaphore code (`synch.c`) and the timer (`timer.c`) are not in the sources; they
enter only through what `thread.c` and the scheduler's contracts say of their calls:
`thread_hold_the_lock` is called with a free lock whose `max_priority` does not exceed the caller's
priority, `thread_donate_priority` on the holder of a lock whose `max_priority` has just been
raised to the caller's higher priority, and `thread_remove_lock` by the holder; the pages
`palloc_get_page` hands out are not in use.

Main definitions:

* `Pintos.Op`, `Pintos.step`, `Pintos.timerInterrupt`;
* `Pintos.Started` — the states `thread_start` returns in;
* `Pintos.Reach`, `Pintos.Reachable` — the states reachable from them by steps of a given kind,
  and by any steps;
* `Pintos.run` — a sequence of steps, and `Pintos.reach_run`.
-/

set_option autoImplicit false

namespace Pintos

/-- What can happen between two operation boundaries. -/
inductive Op
  | create (priority : ℤ) (tcbPage infoPage : Option ℕ)
  | semaDown
  | semaUp (t : ℕ)
  | idleBlock
  | yield
  | sleepBegin (ticks : ℤ)
  | sleepEnd
  | tick
  | setPriority (newPriority : ℤ)
  | setNice (nice : ℤ)
  | holdTheLock (l : ℕ) (maxPriority : ℤ)
  | donatePriority (l : ℕ)
  | removeLock (l : ℕ)
  | exit
  | increaseRecentCpu
  | updateLoadAvg
  | updateRecentCpuForEach
  | updatePriorityForEach
  deriving DecidableEq, Repr

namespace Sched

/-- The running thread executes its own code: it is not the idle thread and is not between the
two halves of `thread_sleep`. -/
def callable (s : Sched) : Prop :=
  s.idleThread ≠ some s.cur ∧ (s.tcb s.cur).sleepPending = false

instance (s : Sched) : Decidable s.callable := inferInstanceAs (Decidable (_ ∧ _))

/-- A page `palloc_get_page` may return: one neither handed out nor the initial thread's. -/
def FreshPage (s : Sched) (p : ℕ) : Prop := p ∉ s.allocated ∧ p ≠ s.initialThread

instance (s : Sched) (p : ℕ) : Decidable (s.FreshPage p) := inferInstanceAs (Decidable (_ ∧ _))

/-- The outcomes of the two `palloc_get_page` calls of `thread_create` are possible ones: fresh
pages, and two different pages when both succeed. -/
def PallocOutcome (s : Sched) : Option ℕ → Option ℕ → Prop
  | none, none => True
  | some p, none => s.FreshPage p
  | none, some q => s.FreshPage q
  | some p, some q => s.FreshPage p ∧ s.FreshPage q ∧ p ≠ q

instance (s : Sched) : ∀ tcbPage infoPage, Decidable (s.PallocOutcome tcbPage infoPage)
  | none, none => isTrue trivial
  | some p, none => inferInstanceAs (Decidable (s.FreshPage p))
  | none, some q => inferInstanceAs (Decidable (s.FreshPage q))
  | some _, some _ => inferInstanceAs (Decidable (_ ∧ _ ∧ _))

end Sched

/-- A timer interrupt: `timer_interrupt` counts the tick, then calls `thread_tick`. -/
def timerInterrupt (s : Sched) : Option (Sched × Bool) :=
  threadTick { s with ticks := s.ticks + 1 }

section Mode

variable (mlfqs : Bool)

/-- One step of the scheduler. -/
def step (s : Sched) : Op → Option Sched
  | .create priority tcbPage infoPage =>
      if s.callable ∧ s.PallocOutcome tcbPage infoPage then
        (threadCreate mlfqs s priority tcbPage infoPage).map Prod.fst
      else none
  | .semaDown => if s.callable then threadBlock { s with waiters := s.waiters ++ [s.cur] } else none
  | .semaUp t => if t ∈ s.waiters then threadUnblock { s with waiters := s.waiters.erase t } t
      else none
  | .idleBlock => if s.idleThread = some s.cur then threadBlock s else none
  | .yield => threadYield s
  | .sleepBegin ticks => if s.callable then threadSleepBegin s ticks else none
  | .sleepEnd => if (s.tcb s.cur).sleepPending then threadSleepEnd s else none
  | .tick => (timerInterrupt s).map Prod.fst
  | .setPriority p => if s.callable then threadSetPriority mlfqs s p else none
  | .setNice n => if s.callable then threadSetNice s n else none
  | .holdTheLock l m =>
      if s.callable ∧ (s.lock l).holder = none ∧ m ≤ (s.tcb s.cur).priority then
        some (threadHoldTheLock { s with lock := Function.update s.lock l ⟨some s.cur, m⟩ } l)
      else none
  | .donatePriority l =>
      match (s.lock l).holder with
      | none => none
      | some h =>
          if s.callable ∧ h ≠ s.cur ∧ (s.tcb h).priority < (s.tcb s.cur).priority then
            threadDonatePriority
              { s with lock := Function.update s.lock l ⟨some h, (s.tcb s.cur).priority⟩ } h
          else none
  | .removeLock l =>
      if s.callable ∧ (s.lock l).holder = some s.cur then
        let s1 := threadRemoveLock s l
        some { s1 with lock := Function.update s1.lock l { s1.lock l with holder := none } }
      else none
  | .exit => if s.callable then threadExit s else none
  | .increaseRecentCpu => increaseRecentCpu mlfqs s
  | .updateLoadAvg => updateLoadAvg mlfqs s
  | .updateRecentCpuForEach => updateRecentCpuForEach mlfqs s
  | .updatePriorityForEach => if mlfqs then some (updatePriorityForEach s) else none

/-- A creation step either finds no page for the thread and changes nothing, or gets two fresh
pages and runs `thread_create` on them to the end: a missing `child_info` page is a fault. -/
theorem step_create_cases {s s' : Sched} {priority : ℤ} {tcbPage infoPage : Option ℕ}
    (hs : step mlfqs s (.create priority tcbPage infoPage) = some s') :
    tcbPage = none ∧ s' = s ∨ ∃ t q tid, tcbPage = some t ∧ s.callable ∧ s.FreshPage t ∧
      s.FreshPage q ∧ t ≠ q ∧ threadCreate mlfqs s priority (some t) (some q) = some (s', tid) := by
  simp only [step] at hs
  split_ifs at hs with hg
  obtain ⟨⟨s₁, tid⟩, hc, rfl⟩ := Option.map_eq_some'.1 hs
  cases tcbPage with
  | none =>
      simp only [threadCreate, Option.some.injEq, Prod.mk.injEq] at hc
      exact .inl ⟨rfl, hc.1.symm⟩
  | some t =>
      cases infoPage with
      | none =>
          simp only [threadCreate] at hc
          cases initThread s t priority <;> simp at hc
      | some q => exact .inr ⟨t, q, tid, rfl, hg.1, hg.2.1, hg.2.2.1, hg.2.2.2, hc⟩

/-- The states `thread_start ()` returns in, for any three distinct pages. -/
def Started (s : Sched) : Prop :=
  ∃ p pIdle pInfo, p ≠ pIdle ∧ p ≠ pInfo ∧ pIdle ≠ pInfo ∧ threadStart mlfqs p pIdle pInfo = some s

/-- The states reachable after `thread_start` returns by steps whose operation, in the state it is
taken in, satisfies `ok`. -/
inductive Reach (ok : Sched → Op → Prop) : Sched → Prop
  | start {s : Sched} : Started mlfqs s → Reach ok s
  | step {s s' : Sched} {op : Op} : Reach ok s → ok s op → Pintos.step mlfqs s op = some s' →
      Reach ok s'

/-- The states reachable after `thread_start` returns. -/
def Reachable (s : Sched) : Prop := Reach mlfqs (fun _ _ => True) s

/-- A sequence of steps. -/
def run (s : Sched) : List Op → Option Sched
  | [] => some s
  | op :: ops => (step mlfqs s op).bind fun s' => run s' ops

theorem reach_run {ok : Sched → Op → Prop} :
    ∀ {s s' : Sched} {ops : List Op}, Reach mlfqs ok s → (∀ op ∈ ops, ∀ s, ok s op) →
      run mlfqs s ops = some s' → Reach mlfqs ok s'
  | s, s', [], hs, _, h => by cases h; exact hs
  | s, s', op :: ops, hs, hok, h => by
      simp only [run] at h
      cases hst : step mlfqs s op with
      | none => simp [hst] at h
      | some s₁ =>
          rw [hst, Option.some_bind] at h
          exact reach_run (hs.step (hok op (List.mem_cons_self op ops) s) hst)
            (fun op' h' => hok op' (List.mem_cons_of_mem op h')) h

/-- A run from the state `thread_start` returns in, evaluated to a state where `P` holds, shows
that a reachable state satisfies `P`. -/
theorem exists_reach_of_run {ok : Sched → Op → Prop} (p pIdle pInfo : ℕ)
    (hp : p ≠ pIdle ∧ p ≠ pInfo ∧ pIdle ≠ pInfo) (ops : List Op) (hok : ∀ op ∈ ops, ∀ s, ok s op)
    {P : Sched → Prop} [DecidablePred P]
    (h : ((threadStart mlfqs p pIdle pInfo).bind fun s => run mlfqs s ops).map
      (fun s => decide (P s)) = some true) :
    ∃ s, Reach mlfqs ok s ∧ P s := by
  cases h₀ : threadStart mlfqs p pIdle pInfo with
  | none => simp [h₀] at h
  | some s₀ =>
      cases hr : run mlfqs s₀ ops with
      | none => simp [h₀, hr] at h
      | some s =>
          simp only [h₀, hr, Option.some_bind, Option.map_some', Option.some.injEq,
            decide_eq_true_eq] at h
          exact ⟨s, reach_run mlfqs (Reach.start ⟨p, pIdle, pInfo, hp.1, hp.2.1, hp.2.2, h₀⟩) hok hr, h⟩

/-- **Invariants of reachable states**: a property that holds where `thread_start` returns and
that every allowed step keeps holds in every reachable state. -/
theorem Reach.invariant {ok : Sched → Op → Prop} {P : Sched → Prop}
    (h₀ : ∀ s, Started mlfqs s → P s)
    (h₁ : ∀ s s' op, P s → ok s op → Pintos.step mlfqs s op = some s' → P s') :
    ∀ {s : Sched}, Reach mlfqs ok s → P s := by
  intro s hs
  induction hs with
  | start h => exact h₀ _ h
  | step _ hop hst ih => exact h₁ _ _ _ ih hop hst

end Mode

end Pintos
