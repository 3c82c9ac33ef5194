import Pintos.KernelList
import Mathlib.Data.BitVec

/-!
**The thread control block and the scheduler's global state.**

`threads/thread.h` declares `struct thread`, the per-thread descriptor that sits at the bottom of
the thread's page, and `threads/thread.c` keeps the scheduler's globals: `ready_list`, `sleep_list`,
`all_list`, `child_list`, `idle_thread`, `initial_thread`, the `next_tid` counter of
`allocate_tid`, `thread_ticks` and `load_avg`.  A thread is named by the address of its page, a
natural number, and the descriptors of all pages form one table `Pintos.Sched.tcb`.

Besides the fields `thread.c` reads, the state carries the parts of its collaborators that the
scheduler's contracts speak about:

* `ticks` — the timer's tick count, read through `timer_ticks ()`;
* `lock` — the `holder` and `max_priority` of each `struct lock` (the lock code is not in the
  sources);
* `waiters` — the threads blocked in some semaphore's wait queue;
* `allocated` — the pages this core obtained from `palloc_get_page` and has not freed;

and three history variables that no code reads: `tidLog`, the tids `allocate_tid` returned, in
order; `stamp` with its counter `clock`, the order of the last insertions into `ready_list`; and
`sleepPending`, set while a thread is between the two halves of `thread_sleep`.

Main definitions:

* `Pintos.Thread`, `Pintos.ThreadStatus`, `Pintos.Sched`;
* `Pintos.threadPriorityMore`, `Pintos.wakeupTimeLess`, `Pintos.lockPriorityMore` — the three
  comparators `thread.c` hands to the list library.
-/

set_option autoImplicit false

namespace Pintos

/-! ### Constants of `thread.h` -/

/-- `PRI_MIN`, the lowest priority. -/
def priMin : ℤ := 0

/-- `PRI_DEFAULT`, the priority of the initial thread. -/
def priDefault : ℤ := 31

/-- `PRI_MAX`, the highest priority. -/
def priMax : ℤ := 63

/-- `NICE_MIN`. -/
def niceMin : ℤ := -20

/-- `NICE_MAX`. -/
def niceMax : ℤ := 20

/-- `TIME_SLICE`, the timer ticks a thread runs before it is made to yield. -/
def timeSlice : ℕ := 4

/-- `tid_t`, a C `int`: a 32-bit two's complement word, compared as a signed number. -/
abbrev Tid := BitVec 32

/-- `TID_ERROR`, `(tid_t) -1`. -/
def tidError : Tid := -1

/-! ### The thread control block -/

/-- `enum thread_status`. -/
inductive ThreadStatus
  | running
  | ready
  | blocked
  | dying
  deriving DecidableEq, Repr

/-- The fields of `struct thread` that the scheduler reads or writes, plus two history
variables. -/
structure Thread where
  tid : Tid
  status : ThreadStatus
  priority : ℤ
  wakeupTime : ℤ
  recentCpu : ℤ
  nice : ℤ
  oldPriority : ℤ
  /-- The pages of the locks the thread holds (`locks`, ordered by `lock_priority_more`). -/
  locks : List ℕ
  /-- History: the value of `Sched.clock` when the thread last entered `ready_list`. -/
  stamp : ℕ
  /-- History: the thread has stored its `wakeup_time` and not yet queued itself to sleep. -/
  sleepPending : Bool
  deriving DecidableEq, Repr

/-- The content of a page that no thread was ever initialised in: zeros. -/
def Thread.zero : Thread := ⟨0, .running, 0, 0, 0, 0, 0, [], 0, false⟩

/-- The fields of `struct lock` that `thread.c` reads. -/
structure Lock where
  holder : Option ℕ
  maxPriority : ℤ
  deriving DecidableEq, Repr

/-- `struct child_info`, the record a parent keeps for each child it created. -/
structure ChildInfo where
  childThread : ℕ
  childId : Tid
  exited : Bool
  terminated : Bool
  loadFailed : Bool
  retValue : ℤ
  deriving DecidableEq, Repr

/-! ### The scheduler's state -/

/-- The scheduler's globals, the descriptors of all pages, and the collaborator state the
scheduler's contracts read. -/
structure Sched where
  tcb : ℕ → Thread
  /-- `running_thread ()`: the page the stack pointer is in. -/
  cur : ℕ
  idleThread : Option ℕ
  initialThread : ℕ
  readyList : List ℕ
  sleepList : List ℕ
  allList : List ℕ
  childList : List ChildInfo
  /-- `next_tid`, the static counter of `allocate_tid`. -/
  nextTid : Tid
  /-- `timer_ticks ()`. -/
  ticks : ℤ
  threadTicks : ℕ
  loadAvg : ℤ
  lock : ℕ → Lock
  waiters : List ℕ
  allocated : List ℕ
  /-- History: every tid `allocate_tid` returned, oldest first. -/
  tidLog : List Tid
  /-- History: the number of insertions into `ready_list` so far. -/
  clock : ℕ

namespace Sched

/-- Overwrite the descriptor of page `t`. -/
def setThread (s : Sched) (t : ℕ) (th : Thread) : Sched :=
  { s with tcb := fun u => if u = t then th else s.tcb u }

@[simp] theorem setThread_tcb (s : Sched) (t u : ℕ) (th : Thread) :
    (s.setThread t th).tcb u = if u = t then th else s.tcb u := rfl

theorem setThread_tcb_self (s : Sched) (t : ℕ) (th : Thread) :
    (s.setThread t th).tcb t = th := if_pos rfl

theorem setThread_tcb_of_ne (s : Sched) {t u : ℕ} (th : Thread) (h : u ≠ t) :
    (s.setThread t th).tcb u = s.tcb u := if_neg h

@[simp] theorem setThread_setThread (s : Sched) (t : ℕ) (a b : Thread) :
    (s.setThread t a).setThread t b = s.setThread t b := by
  simp only [setThread]
  congr 1
  funext u
  split_ifs <;> rfl

@[simp] theorem setThread_cur (s : Sched) (t : ℕ) (th : Thread) :
    (s.setThread t th).cur = s.cur := rfl

@[simp] theorem setThread_idleThread (s : Sched) (t : ℕ) (th : Thread) :
    (s.setThread t th).idleThread = s.idleThread := rfl

@[simp] theorem setThread_initialThread (s : Sched) (t : ℕ) (th : Thread) :
    (s.setThread t th).initialThread = s.initialThread := rfl

@[simp] theorem setThread_readyList (s : Sched) (t : ℕ) (th : Thread) :
    (s.setThread t th).readyList = s.readyList := rfl

@[simp] theorem setThread_sleepList (s : Sched) (t : ℕ) (th : Thread) :
    (s.setThread t th).sleepList = s.sleepList := rfl

@[simp] theorem setThread_allList (s : Sched) (t : ℕ) (th : Thread) :
    (s.setThread t th).allList = s.allList := rfl

@[simp] theorem setThread_childList (s : Sched) (t : ℕ) (th : Thread) :
    (s.setThread t th).childList = s.childList := rfl

@[simp] theorem setThread_nextTid (s : Sched) (t : ℕ) (th : Thread) :
    (s.setThread t th).nextTid = s.nextTid := rfl

@[simp] theorem setThread_ticks (s : Sched) (t : ℕ) (th : Thread) :
    (s.setThread t th).ticks = s.ticks := rfl

@[simp] theorem setThread_threadTicks (s : Sched) (t : ℕ) (th : Thread) :
    (s.setThread t th).threadTicks = s.threadTicks := rfl

@[simp] theorem setThread_loadAvg (s : Sched) (t : ℕ) (th : Thread) :
    (s.setThread t th).loadAvg = s.loadAvg := rfl

@[simp] theorem setThread_lock (s : Sched) (t : ℕ) (th : Thread) :
    (s.setThread t th).lock = s.lock := rfl

@[simp] theorem setThread_waiters (s : Sched) (t : ℕ) (th : Thread) :
    (s.setThread t th).waiters = s.waiters := rfl

@[simp] theorem setThread_allocated (s : Sched) (t : ℕ) (th : Thread) :
    (s.setThread t th).allocated = s.allocated := rfl

@[simp] theorem setThread_tidLog (s : Sched) (t : ℕ) (th : Thread) :
    (s.setThread t th).tidLog = s.tidLog := rfl

@[simp] theorem setThread_clock (s : Sched) (t : ℕ) (th : Thread) :
    (s.setThread t th).clock = s.clock := rfl

end Sched

/-! ### The comparators -/

/-- `thread_priority_more`: `a` goes before `b` when its priority is strictly higher. -/
def threadPriorityMore (s : Sched) (a b : ℕ) : Bool :=
  (s.tcb b).priority < (s.tcb a).priority

/-- `wakeup_time_less`: `a` goes before `b` when it is due strictly earlier. -/
def wakeupTimeLess (s : Sched) (a b : ℕ) : Bool :=
  (s.tcb a).wakeupTime < (s.tcb b).wakeupTime

/-- `lock_priority_more`: lock `a` goes before lock `b` when its `max_priority` is strictly
higher. -/
def lockPriorityMore (s : Sched) (a b : ℕ) : Bool :=
  (s.lock b).maxPriority < (s.lock a).maxPriority

end Pintos
