import Pintos.ThreadState
import Pintos.FixedPoint

/-!
**The functions of `threads/thread.c`.**

Each function of the scheduler core becomes a function on `Pintos.Sched`.  A function that can
trip an `ASSERT`, or dereference a null pointer, returns `Option Sched`, with `none` for the fault.
The context switch of `schedule` is instantaneous: the state after `schedule` is the state in
which the chosen thread has finished `thread_schedule_tail` and resumes.

The kernel-wide flag `thread_mlfqs` is the variable `mlfqs`.

Main definitions:

* `Pintos.threadUnblock`, `Pintos.threadBlock`, `Pintos.threadYield`, `Pintos.threadCondYield`,
  `Pintos.schedule`, `Pintos.nextThreadToRun`, `Pintos.threadScheduleTail`, `Pintos.threadExit`
  — the dispatch protocol;
* `Pintos.initThread`, `Pintos.allocateTid`, `Pintos.threadCreate`, `Pintos.threadInit`,
  `Pintos.threadStart` — creation and start-up;
* `Pintos.threadSleepBegin`, `Pintos.threadSleepEnd`, `Pintos.threadWakeup`,
  `Pintos.threadTick` — sleeping and the timer tick;
* `Pintos.threadSetPriority`, `Pintos.threadHoldTheLock`, `Pintos.threadDonatePriority`,
  `Pintos.threadRemoveLock` — priority donation;
* `Pintos.updatePriority`, `Pintos.updateRecentCpu`, `Pintos.updateLoadAvg`,
  `Pintos.increaseRecentCpu`, `Pintos.threadSetNice` and the `_for_each` sweeps — MLFQS.
-/

set_option autoImplicit false

namespace Pintos

open FixedPoint

/-! ### Queue admission and dispatch -/

/-- `list_insert_ordered (&ready_list, &t->elem, thread_priority_more, NULL)`, with the insertion
recorded in the thread's `stamp`. -/
def pushReady (s : Sched) (t : ℕ) : Sched :=
  { s.setThread t { s.tcb t with stamp := s.clock } with
    readyList := listInsertOrdered (threadPriorityMore s) t s.readyList
    clock := s.clock + 1 }

/-- `thread_unblock (t)`: a blocked thread enters `ready_list` at its priority and becomes READY.
It does not preempt the caller. -/
def threadUnblock (s : Sched) (t : ℕ) : Option Sched :=
  if (s.tcb t).status = .blocked then
    let s1 := pushReady s t
    some (s1.setThread t { s1.tcb t with status := .ready })
  else none

/-- `next_thread_to_run ()`: the head of `ready_list`, popped, or `idle_thread` when the list is
empty (a null `idle_thread` fails the `is_thread` assertion of `schedule`). -/
def nextThreadToRun (s : Sched) : Option (ℕ × Sched) :=
  match s.readyList with
  | [] => s.idleThread.map fun i => (i, s)
  | t :: l => some (t, { s with readyList := l })

/-- `palloc_free_page (page)`, as far as this core sees it. -/
def pallocFreePage (s : Sched) (p : ℕ) : Sched :=
  { s with allocated := s.allocated.erase p }

/-- `thread_schedule_tail (prev)`, run by the thread that now owns the CPU: mark it RUNNING, start
a new time slice, and free the page of a dying `prev` unless it is `initial_thread`. -/
def threadScheduleTail (s : Sched) (prev : Option ℕ) : Option Sched :=
  let s1 := { s.setThread s.cur { s.tcb s.cur with status := .running } with threadTicks := 0 }
  match prev with
  | none => some s1
  | some p =>
      if (s1.tcb p).status = .dying ∧ p ≠ s1.initialThread then
        if p = s1.cur then none else some (pallocFreePage s1 p)
      else some s1

/-- `schedule ()`: the running thread has left the RUNNING state; switch to the thread
`next_thread_to_run` picks. -/
def schedule (s : Sched) : Option Sched :=
  if (s.tcb s.cur).status = .running then none
  else (nextThreadToRun s).bind fun p =>
    threadScheduleTail { p.2 with cur := p.1 } (if s.cur = p.1 then none else some s.cur)

/-- `thread_block ()`: the running thread becomes BLOCKED and the CPU is dispatched. -/
def threadBlock (s : Sched) : Option Sched :=
  schedule (s.setThread s.cur { s.tcb s.cur with status := .blocked })

/-- `thread_yield ()`: the running thread re-enters `ready_list`, unless it is the idle thread, and
the CPU is dispatched. -/
def threadYield (s : Sched) : Option Sched :=
  let s1 := if s.idleThread = some s.cur then s else pushReady s s.cur
  schedule (s1.setThread s.cur { s1.tcb s.cur with status := .ready })

/-- `thread_cond_yield ()`: yield when a strictly higher-priority thread heads `ready_list`. -/
def threadCondYield (s : Sched) : Option Sched :=
  match s.readyList with
  | [] => some s
  | h :: _ =>
      if s.idleThread ≠ some s.cur ∧ (s.tcb s.cur).priority < (s.tcb h).priority then
        threadYield s
      else some s

/-- `thread_exit ()`, from the point where interrupts are disabled: leave `all_list`, become
DYING, and dispatch for good. -/
def threadExit (s : Sched) : Option Sched :=
  schedule ({ s with allList := s.allList.erase s.cur }.setThread s.cur
    { s.tcb s.cur with status := .dying })

/-! ### MLFQS statistics -/

/-- `thread_get_recent_cpu ()`: 100 times the running thread's `recent_cpu`, rounded. -/
def threadGetRecentCpu (s : Sched) : ℤ :=
  convertToIntRound (multInt (s.tcb s.cur).recentCpu 100)

/-- `thread_get_load_avg ()`: 100 times `load_avg`, rounded. -/
def threadGetLoadAvg (s : Sched) : ℤ :=
  convertToIntRound (multInt s.loadAvg 100)

/-- `update_priority (t, NULL)`: `PRI_MAX - recent_cpu / 4 - 2 * nice`, clamped; the idle thread
is skipped. -/
def updatePriority (s : Sched) (t : ℕ) : Sched :=
  if s.idleThread = some t then s
  else
    let p := priMax - convertToIntRound (divInt (s.tcb t).recentCpu 4) - (s.tcb t).nice * 2
    let p := if p < priMin then priMin else p
    let p := if p > priMax then priMax else p
    s.setThread t { s.tcb t with priority := p }

/-- `update_recent_cpu (t, NULL)`: decay by `2 load_avg / (2 load_avg + 1)` and add `nice`. -/
def updateRecentCpu (s : Sched) (t : ℕ) : Sched :=
  if s.idleThread = some t then s
  else
    let coefficient := div (multInt s.loadAvg 2) (addInt (multInt s.loadAvg 2) 1)
    s.setThread t { s.tcb t with
      recentCpu := addInt (mult coefficient (s.tcb t).recentCpu) (s.tcb t).nice }

/-- `thread_foreach (func, NULL)`: apply `func` to every thread of `all_list`. -/
def threadForeach (func : Sched → ℕ → Sched) (s : Sched) : Sched :=
  s.allList.foldl func s

/-- `update_priority_for_each ()`: recompute every priority, then re-sort `ready_list`. -/
def updatePriorityForEach (s : Sched) : Sched :=
  let s1 := threadForeach updatePriority s
  { s1 with readyList := listSort (threadPriorityMore s1) s1.readyList }

section Mode

variable (mlfqs : Bool)

/-- `update_recent_cpu_for_each ()`. -/
def updateRecentCpuForEach (s : Sched) : Option Sched :=
  if mlfqs then some (threadForeach updateRecentCpu s) else none

/-- `increase_recent_cpu ()`: the running thread, unless idle, is charged one tick. -/
def increaseRecentCpu (s : Sched) : Option Sched :=
  if ¬mlfqs then none
  else if s.idleThread = some s.cur then some s
  else if (s.tcb s.cur).status = .running then
    some (s.setThread s.cur { s.tcb s.cur with recentCpu := addInt (s.tcb s.cur).recentCpu 1 })
  else some s

/-- `update_load_avg ()`: `load_avg = 59/60 load_avg + 1/60 ready_threads`, counting the running
thread unless it is idle. -/
def updateLoadAvg (s : Sched) : Option Sched :=
  if ¬mlfqs then none
  else
    let readyThreads : ℤ :=
      if s.idleThread ≠ some s.cur then s.readyList.length + 1 else s.readyList.length
    let loadAvg :=
      mult (divInt (convertToFp 59) 60) s.loadAvg + multInt (divInt (convertToFp 1) 60) readyThreads
    some { s with loadAvg := loadAvg }

end Mode

/-- `thread_set_nice (nice)`: out-of-range values are ignored, as is a call by the idle thread;
otherwise the priority is recomputed and the caller yields if it is outranked. -/
def threadSetNice (s : Sched) (nice : ℤ) : Option Sched :=
  if nice > niceMax ∨ nice < niceMin then some s
  else if s.idleThread = some s.cur then some s
  else
    let s1 := updatePriority (s.setThread s.cur { s.tcb s.cur with nice := nice }) s.cur
    match (s1.tcb s.cur).status with
    | .ready => some { s1 with readyList := listSort (threadPriorityMore s1) s1.readyList }
    | .running => threadCondYield s1
    | _ => some s1

/-! ### Creation and start-up -/

/-- `allocate_tid ()`: `next_tid++`. -/
def allocateTid (s : Sched) : Tid × Sched :=
  (s.nextTid, { s with nextTid := s.nextTid + 1, tidLog := s.tidLog ++ [s.nextTid] })

/-- `init_thread (t, name, priority)`: a BLOCKED thread with base and working priority `priority`,
inheriting `nice` and the readout of `recent_cpu` from the running thread (zero for the initial
thread), registered in `all_list`.  The position `list_insert_ordered` picks in `all_list`
compares the threads through the wrong list member, so the model keeps only the membership. -/
def initThread (s : Sched) (t : ℕ) (priority : ℤ) : Option Sched :=
  if priMin ≤ priority ∧ priority ≤ priMax then
    some { s.setThread t
      { tid := 0, status := .blocked, priority := priority, wakeupTime := 0,
        recentCpu := if t = s.initialThread then 0 else threadGetRecentCpu s,
        nice := if t = s.initialThread then 0 else (s.tcb s.cur).nice,
        oldPriority := priority, locks := [], stamp := 0, sleepPending := false } with
      allList := t :: s.allList }
  else none

section Mode

variable (mlfqs : Bool)

/-- `thread_create (name, priority, function, aux)`, given the outcomes of its two
`palloc_get_page` calls: the thread's page and the `child_info` page.  A missing thread page
gives `TID_ERROR`; a missing `child_info` page is written through a null pointer, a fault. -/
def threadCreate (s : Sched) (priority : ℤ) (tcbPage infoPage : Option ℕ) :
    Option (Sched × Tid) :=
  match tcbPage with
  | none => some (s, tidError)
  | some t => do
      let s1 ← initThread s t priority
      let (tid, s2) := allocateTid s1
      let s3 := s2.setThread t { s2.tcb t with tid := tid }
      let q ← infoPage
      let s4 := { s3 with
        childList := s3.childList ++ [⟨t, tid, false, false, false, 0⟩]
        allocated := q :: t :: s3.allocated }
      let s5 ← threadUnblock s4 t
      let s6 := if mlfqs then
          updatePriority (updateRecentCpu (updatePriority (updateRecentCpu s5 t) t) s5.cur) s5.cur
        else s5
      let s7 ← threadCondYield s6
      pure (s7, tid)

/-- `thread_init ()`, run on the initial page `p`: the running code becomes the thread "main" at
`PRI_DEFAULT`, RUNNING, with the first tid. -/
def threadInit (p : ℕ) : Option Sched := do
  let s0 : Sched :=
    { tcb := fun _ => Thread.zero, cur := p, idleThread := none, initialThread := p,
      readyList := [], sleepList := [], allList := [], childList := [], nextTid := 1,
      ticks := 0, threadTicks := 0, loadAvg := 0, lock := fun _ => ⟨none, 0⟩, waiters := [],
      allocated := [], tidLog := [], clock := 0 }
  let s1 ← initThread s0 p priDefault
  let s2 := s1.setThread p { s1.tcb p with status := .running }
  let (tid, s3) := allocateTid s2
  pure { s3.setThread p { s3.tcb p with tid := tid } with loadAvg := 0 }

/-- `thread_start ()` up to its return: create the idle thread on page `pIdle` (its `child_info`
on page `pInfo`), wait on `idle_started`, let the idle thread record itself, release the initial
thread and block, and resume the initial thread. -/
def threadStart (p pIdle pInfo : ℕ) : Option Sched := do
  let s0 ← threadInit p
  let (s1, _) ← threadCreate mlfqs s0 priMin (some pIdle) (some pInfo)
  let s2 ← threadBlock { s1 with waiters := s1.waiters ++ [s1.cur] }
  let s3 ← threadUnblock { s2 with idleThread := some s2.cur, waiters := s2.waiters.erase p } p
  threadBlock s3

end Mode

/-! ### Sleeping and the timer tick -/

/-- The first half of `thread_sleep (ticks)`, run with interrupts on: store the wake-up tick. -/
def threadSleepBegin (s : Sched) (ticks : ℤ) : Option Sched :=
  if (s.tcb s.cur).status = .running then
    some (s.setThread s.cur
      { s.tcb s.cur with wakeupTime := s.ticks + ticks, sleepPending := true })
  else none

/-- The second half of `thread_sleep`, run with interrupts off: enter `sleep_list` by wake-up
tick and block. -/
def threadSleepEnd (s : Sched) : Option Sched :=
  threadBlock { s.setThread s.cur { s.tcb s.cur with sleepPending := false } with
    sleepList := listInsertOrdered (wakeupTimeLess s) s.cur s.sleepList }

/-- The loop of `thread_wakeup ()` over what is left of `sleep_list`: unblock due threads from the
front, and stop at the first one whose wake-up tick is still in the future. -/
def wakeupFrom (s : Sched) : List ℕ → Option Sched
  | [] => some s
  | t :: l =>
      if s.ticks < (s.tcb t).wakeupTime then some s
      else (threadUnblock { s.setThread t { s.tcb t with wakeupTime := 0 } with sleepList := l } t
        ).bind fun s' => wakeupFrom s' l

/-- `thread_wakeup ()`. -/
def threadWakeup (s : Sched) : Option Sched :=
  wakeupFrom s s.sleepList

/-- `thread_tick ()`, with whether it asked for `intr_yield_on_return`. -/
def threadTick (s : Sched) : Option (Sched × Bool) :=
  if (s.tcb s.cur).status = .running then
    let s1 := { s with threadTicks := s.threadTicks + 1 }
    (threadWakeup s1).map fun s2 => (s2, decide (timeSlice ≤ s1.threadTicks))
  else none

/-! ### Priority donation -/

section Mode

variable (mlfqs : Bool)

/-- `thread_set_priority (new_priority)`: ignored out of range or under MLFQS; the base priority
is always recorded, the working priority only when no lock is held or it rises. -/
def threadSetPriority (s : Sched) (newPriority : ℤ) : Option Sched :=
  if newPriority > priMax ∨ newPriority < priMin then some s
  else if mlfqs then some s
  else
    let old := (s.tcb s.cur).priority
    let s1 := s.setThread s.cur { s.tcb s.cur with oldPriority := newPriority }
    if (s1.tcb s.cur).locks = [] ∨ newPriority > old then
      threadYield (s1.setThread s.cur { s1.tcb s.cur with priority := newPriority })
    else some s1

end Mode

/-- `thread_hold_the_lock (lock)`: the lock enters the running thread's `locks`, ordered by
`max_priority`. -/
def threadHoldTheLock (s : Sched) (l : ℕ) : Sched :=
  s.setThread s.cur
    { s.tcb s.cur with locks := listInsertOrdered (lockPriorityMore s) l (s.tcb s.cur).locks }

/-- `thread_donate_priority (t)`: `t` takes the running thread's priority and, if READY, is moved
to its new place in `ready_list`. -/
def threadDonatePriority (s : Sched) (t : ℕ) : Option Sched :=
  let s1 := s.setThread t { s.tcb t with priority := (s.tcb s.cur).priority }
  match (s1.tcb t).status with
  | .ready => some (pushReady { s1 with readyList := s1.readyList.erase t } t)
  | .running => threadCondYield s1
  | _ => some s1

/-- `thread_remove_lock (lock)`: the lock leaves the running thread's `locks`; with no lock left
the base priority returns, otherwise the front lock's `max_priority` is taken if it exceeds the
base. -/
def threadRemoveLock (s : Sched) (l : ℕ) : Sched :=
  let s1 := s.setThread s.cur { s.tcb s.cur with locks := (s.tcb s.cur).locks.erase l }
  match (s1.tcb s.cur).locks with
  | [] => s1.setThread s.cur { s1.tcb s.cur with priority := (s1.tcb s.cur).oldPriority }
  | f :: _ =>
      if (s1.lock f).maxPriority > (s1.tcb s.cur).oldPriority then
        s1.setThread s.cur { s1.tcb s.cur with priority := (s1.lock f).maxPriority }
      else s1

end Pintos
