import Pintos.Transitions

/-!
**What each scheduler function does, once.**

One lemma per function of `Pintos.Scheduler`, stating the state it returns in terms of the state it
was given; the invariant proofs cite these lemmas and never unfold the functions.

Main definitions:

* `Pintos.Sched.switchTo` — the state `schedule` leaves when it switches to `next` and leaves
  `rest` in `ready_list`;
* `Pintos.Sched.NextChoice` — where `schedule` may switch.

Main results:

* `Pintos.schedule_eq_some_iff` — **the dispatch**: `schedule` succeeds exactly when the running
  thread has left the RUNNING state and either `ready_list` has a head or the idle thread exists,
  and it then switches to that head, or to the idle thread;
* `Pintos.threadUnblock_eq_some_iff`, `Pintos.threadCondYield_cases`, `Pintos.wakeupFrom_cons` —
  admission to `ready_list`, the conditional yield and one round of the wake-up loop.
-/

set_option autoImplicit false

namespace Pintos

/-! ### Field lemmas -/

@[simp] theorem pushReady_tcb (s : Sched) (t u : ℕ) :
    (pushReady s t).tcb u = if u = t then { s.tcb t with stamp := s.clock } else s.tcb u := rfl

@[simp] theorem pushReady_readyList (s : Sched) (t : ℕ) :
    (pushReady s t).readyList = listInsertOrdered (threadPriorityMore s) t s.readyList := rfl

@[simp] theorem pushReady_clock (s : Sched) (t : ℕ) : (pushReady s t).clock = s.clock + 1 := rfl

@[simp] theorem pushReady_cur (s : Sched) (t : ℕ) : (pushReady s t).cur = s.cur := rfl

@[simp] theorem pushReady_idleThread (s : Sched) (t : ℕ) :
    (pushReady s t).idleThread = s.idleThread := rfl

@[simp] theorem pushReady_initialThread (s : Sched) (t : ℕ) :
    (pushReady s t).initialThread = s.initialThread := rfl

@[simp] theorem pushReady_sleepList (s : Sched) (t : ℕ) :
    (pushReady s t).sleepList = s.sleepList := rfl

@[simp] theorem pushReady_allList (s : Sched) (t : ℕ) : (pushReady s t).allList = s.allList := rfl

@[simp] theorem pushReady_childList (s : Sched) (t : ℕ) :
    (pushReady s t).childList = s.childList := rfl

@[simp] theorem pushReady_nextTid (s : Sched) (t : ℕ) : (pushReady s t).nextTid = s.nextTid := rfl

@[simp] theorem pushReady_ticks (s : Sched) (t : ℕ) : (pushReady s t).ticks = s.ticks := rfl

@[simp] theorem pushReady_threadTicks (s : Sched) (t : ℕ) :
    (pushReady s t).threadTicks = s.threadTicks := rfl

@[simp] theorem pushReady_loadAvg (s : Sched) (t : ℕ) : (pushReady s t).loadAvg = s.loadAvg := rfl

@[simp] theorem pushReady_lock (s : Sched) (t : ℕ) : (pushReady s t).lock = s.lock := rfl

@[simp] theorem pushReady_waiters (s : Sched) (t : ℕ) : (pushReady s t).waiters = s.waiters := rfl

@[simp] theorem pushReady_allocated (s : Sched) (t : ℕ) :
    (pushReady s t).allocated = s.allocated := rfl

@[simp] theorem pushReady_tidLog (s : Sched) (t : ℕ) : (pushReady s t).tidLog = s.tidLog := rfl

/-! ### The dispatch -/

namespace Sched

/-- The state after `schedule` switched to `next`, with `rest` left in `ready_list`:
`next_thread_to_run` popped the queue, and `thread_schedule_tail` marked `next` RUNNING, reset
`thread_ticks`, and freed the page of a dying previous thread other than `initial_thread`. -/
def switchTo (s : Sched) (next : ℕ) (rest : List ℕ) : Sched :=
  { s.setThread next { s.tcb next with status := .running } with
    cur := next
    readyList := rest
    threadTicks := 0
    allocated :=
      if s.cur ≠ next ∧ (s.tcb s.cur).status = .dying ∧ s.cur ≠ s.initialThread then
        s.allocated.erase s.cur
      else s.allocated }

/-- Where `schedule` may switch: to the head of `ready_list`, or to the idle thread when the list
is empty. -/
def NextChoice (s : Sched) (next : ℕ) (rest : List ℕ) : Prop :=
  s.readyList = next :: rest ∨ (s.readyList = [] ∧ rest = [] ∧ s.idleThread = some next)

@[simp] theorem switchTo_tcb (s : Sched) (next u : ℕ) (rest : List ℕ) :
    (s.switchTo next rest).tcb u =
      if u = next then { s.tcb next with status := .running } else s.tcb u := rfl

@[simp] theorem switchTo_cur (s : Sched) (next : ℕ) (rest : List ℕ) :
    (s.switchTo next rest).cur = next := rfl

@[simp] theorem switchTo_readyList (s : Sched) (next : ℕ) (rest : List ℕ) :
    (s.switchTo next rest).readyList = rest := rfl

@[simp] theorem switchTo_threadTicks (s : Sched) (next : ℕ) (rest : List ℕ) :
    (s.switchTo next rest).threadTicks = 0 := rfl

@[simp] theorem switchTo_allocated (s : Sched) (next : ℕ) (rest : List ℕ) :
    (s.switchTo next rest).allocated =
      if s.cur ≠ next ∧ (s.tcb s.cur).status = .dying ∧ s.cur ≠ s.initialThread then
        s.allocated.erase s.cur
      else s.allocated := rfl

@[simp] theorem switchTo_idleThread (s : Sched) (next : ℕ) (rest : List ℕ) :
    (s.switchTo next rest).idleThread = s.idleThread := rfl

@[simp] theorem switchTo_initialThread (s : Sched) (next : ℕ) (rest : List ℕ) :
    (s.switchTo next rest).initialThread = s.initialThread := rfl

@[simp] theorem switchTo_sleepList (s : Sched) (next : ℕ) (rest : List ℕ) :
    (s.switchTo next rest).sleepList = s.sleepList := rfl

@[simp] theorem switchTo_allList (s : Sched) (next : ℕ) (rest : List ℕ) :
    (s.switchTo next rest).allList = s.allList := rfl

@[simp] theorem switchTo_childList (s : Sched) (next : ℕ) (rest : List ℕ) :
    (s.switchTo next rest).childList = s.childList := rfl

@[simp] theorem switchTo_nextTid (s : Sched) (next : ℕ) (rest : List ℕ) :
    (s.switchTo next rest).nextTid = s.nextTid := rfl

@[simp] theorem switchTo_ticks (s : Sched) (next : ℕ) (rest : List ℕ) :
    (s.switchTo next rest).ticks = s.ticks := rfl

@[simp] theorem switchTo_loadAvg (s : Sched) (next : ℕ) (rest : List ℕ) :
    (s.switchTo next rest).loadAvg = s.loadAvg := rfl

@[simp] theorem switchTo_lock (s : Sched) (next : ℕ) (rest : List ℕ) :
    (s.switchTo next rest).lock = s.lock := rfl

@[simp] theorem switchTo_waiters (s : Sched) (next : ℕ) (rest : List ℕ) :
    (s.switchTo next rest).waiters = s.waiters := rfl

@[simp] theorem switchTo_tidLog (s : Sched) (next : ℕ) (rest : List ℕ) :
    (s.switchTo next rest).tidLog = s.tidLog := rfl

@[simp] theorem switchTo_clock (s : Sched) (next : ℕ) (rest : List ℕ) :
    (s.switchTo next rest).clock = s.clock := rfl

end Sched

theorem threadScheduleTail_switch (s : Sched) (next : ℕ) (rest : List ℕ) :
    threadScheduleTail { s with readyList := rest, cur := next }
      (if s.cur = next then none else some s.cur) = some (s.switchTo next rest) := by
  obtain ⟨tcb, cur, idle, init, rl, sl, al, cl, nt, tk, tt, la, lk, w, a, log, c⟩ := s
  by_cases hc : cur = next
  · subst hc; simp [threadScheduleTail, Sched.switchTo, Sched.setThread]
  · by_cases hd : (tcb cur).status = .dying ∧ cur ≠ init
    · simp [threadScheduleTail, hc, hd, Sched.switchTo, pallocFreePage, Sched.setThread, Ne.symm hc]
    · have hd' : ¬((tcb cur).status = .dying ∧ ¬cur = init) := hd
      simp [threadScheduleTail, hc, hd', Sched.switchTo, Sched.setThread, Ne.symm hc]

/-- **The dispatch.** -/
theorem schedule_eq_some_iff {s s' : Sched} :
    schedule s = some s' ↔ (s.tcb s.cur).status ≠ .running ∧
      ∃ next rest, s.NextChoice next rest ∧ s' = s.switchTo next rest := by
  unfold schedule
  by_cases hrun : (s.tcb s.cur).status = .running
  · simp [hrun]
  simp only [hrun, if_false, ne_eq, not_false_eq_true, true_and, Sched.NextChoice]
  cases hr : s.readyList with
  | cons t l =>
      have h := threadScheduleTail_switch s t l
      simp only [nextThreadToRun, hr, Option.some_bind] at h ⊢
      rw [h, Option.some.injEq, eq_comm]
      constructor
      · exact fun h => ⟨t, l, .inl rfl, h⟩
      · rintro ⟨n, r, hch | ⟨hch, -⟩, rfl⟩
        · obtain ⟨rfl, rfl⟩ := List.cons.inj hch; rfl
        · exact absurd hch (List.cons_ne_nil t l)
  | nil =>
      cases hi : s.idleThread with
      | none => simp [nextThreadToRun, hr, hi]
      | some i =>
          have h := threadScheduleTail_switch s i []
          have hs : { s with readyList := [] } = s := by cases s; simp_all
          simp only [nextThreadToRun, hr, hi, Option.map_some', Option.some_bind, hs] at h ⊢
          rw [h, Option.some.injEq, eq_comm]
          constructor
          · exact fun h => ⟨i, [], .inr ⟨trivial, rfl, rfl⟩, h⟩
          · rintro ⟨n, r, hch | ⟨-, rfl, hch⟩, rfl⟩
            · exact absurd hch.symm (List.cons_ne_nil n r)
            · cases Option.some.inj hch; rfl


theorem schedule_exists {s : Sched} (hrun : (s.tcb s.cur).status ≠ .running)
    (h : s.readyList ≠ [] ∨ s.idleThread ≠ none) : ∃ next rest, s.NextChoice next rest ∧
      schedule s = some (s.switchTo next rest) := by
  have hch : ∃ next rest, s.NextChoice next rest := by
    cases hr : s.readyList with
    | cons t l => exact ⟨t, l, .inl hr⟩
    | nil =>
        obtain ⟨i, hi⟩ := Option.ne_none_iff_exists'.1 (h.resolve_left (by simp [hr]))
        exact ⟨i, [], .inr ⟨hr, rfl, hi⟩⟩
  obtain ⟨next, rest, hch⟩ := hch
  exact ⟨next, rest, hch, schedule_eq_some_iff.2 ⟨hrun, next, rest, hch, rfl⟩⟩

/-! ### Admission, yield and the wake-up loop -/

/-- The state `thread_unblock (t)` leaves: `t` inserted into `ready_list` and marked READY. -/
def Sched.readied (s : Sched) (t : ℕ) : Sched :=
  (pushReady s t).setThread t { (pushReady s t).tcb t with status := .ready }

namespace Sched

@[simp] theorem readied_tcb (s : Sched) (t u : ℕ) :
    (s.readied t).tcb u =
      if u = t then { s.tcb t with stamp := s.clock, status := .ready } else s.tcb u := by
  unfold readied
  split_ifs with h <;> simp [h]

@[simp] theorem readied_readyList (s : Sched) (t : ℕ) :
    (s.readied t).readyList = listInsertOrdered (threadPriorityMore s) t s.readyList := rfl

@[simp] theorem readied_cur (s : Sched) (t : ℕ) : (s.readied t).cur = s.cur := rfl

@[simp] theorem readied_idleThread (s : Sched) (t : ℕ) :
    (s.readied t).idleThread = s.idleThread := rfl

@[simp] theorem readied_initialThread (s : Sched) (t : ℕ) :
    (s.readied t).initialThread = s.initialThread := rfl

@[simp] theorem readied_sleepList (s : Sched) (t : ℕ) :
    (s.readied t).sleepList = s.sleepList := rfl

@[simp] theorem readied_allList (s : Sched) (t : ℕ) : (s.readied t).allList = s.allList := rfl

@[simp] theorem readied_childList (s : Sched) (t : ℕ) :
    (s.readied t).childList = s.childList := rfl

@[simp] theorem readied_nextTid (s : Sched) (t : ℕ) : (s.readied t).nextTid = s.nextTid := rfl

@[simp] theorem readied_ticks (s : Sched) (t : ℕ) : (s.readied t).ticks = s.ticks := rfl

@[simp] theorem readied_threadTicks (s : Sched) (t : ℕ) :
    (s.readied t).threadTicks = s.threadTicks := rfl

@[simp] theorem readied_loadAvg (s : Sched) (t : ℕ) : (s.readied t).loadAvg = s.loadAvg := rfl

@[simp] theorem readied_lock (s : Sched) (t : ℕ) : (s.readied t).lock = s.lock := rfl

@[simp] theorem readied_waiters (s : Sched) (t : ℕ) : (s.readied t).waiters = s.waiters := rfl

@[simp] theorem readied_allocated (s : Sched) (t : ℕ) :
    (s.readied t).allocated = s.allocated := rfl

@[simp] theorem readied_tidLog (s : Sched) (t : ℕ) : (s.readied t).tidLog = s.tidLog := rfl

@[simp] theorem readied_clock (s : Sched) (t : ℕ) : (s.readied t).clock = s.clock + 1 := rfl

end Sched

theorem threadUnblock_eq (s : Sched) (t : ℕ) :
    threadUnblock s t = if (s.tcb t).status = .blocked then some (s.readied t) else none := rfl

theorem threadUnblock_eq_some_iff {s s' : Sched} {t : ℕ} :
    threadUnblock s t = some s' ↔ (s.tcb t).status = .blocked ∧ s' = s.readied t := by
  rw [threadUnblock_eq]
  split_ifs with h <;> simp [h, eq_comm]

/-- `thread_yield` from a thread other than the idle thread readies it, then dispatches. -/
theorem threadYield_eq_of_ne (s : Sched) (h : s.idleThread ≠ some s.cur) :
    threadYield s = schedule (s.readied s.cur) := by
  simp only [threadYield, h, if_false]; rfl

/-- The idle thread yields by marking itself READY without entering `ready_list`. -/
theorem threadYield_eq_of_idle (s : Sched) (h : s.idleThread = some s.cur) :
    threadYield s = schedule (s.setThread s.cur { s.tcb s.cur with status := .ready }) := by
  simp only [threadYield, h, if_true]

theorem threadCondYield_cases {s s' : Sched} (h : threadCondYield s = some s') :
    s' = s ∨ threadYield s = some s' := by
  unfold threadCondYield at h
  split at h
  · exact .inl (Option.some.inj h).symm
  · split_ifs at h
    · exact .inr h
    · exact .inl (Option.some.inj h).symm

theorem wakeupFrom_cons (s : Sched) (t : ℕ) (l : List ℕ) :
    wakeupFrom s (t :: l) = if s.ticks < (s.tcb t).wakeupTime then some s
      else (threadUnblock { s.setThread t { s.tcb t with wakeupTime := 0 } with sleepList := l } t
        ).bind fun s' => wakeupFrom s' l := rfl

/-! ### Creation and start-up -/

theorem initThread_eq_some_iff {s s1 : Sched} {t : ℕ} {priority : ℤ} :
    initThread s t priority = some s1 ↔ (priMin ≤ priority ∧ priority ≤ priMax) ∧
      s1 = { s.setThread t
        { tid := 0, status := .blocked, priority := priority, wakeupTime := 0,
          recentCpu := if t = s.initialThread then 0 else threadGetRecentCpu s,
          nice := if t = s.initialThread then 0 else (s.tcb s.cur).nice,
          oldPriority := priority, locks := [], stamp := 0, sleepPending := false } with
        allList := t :: s.allList } := by
  unfold initThread
  split_ifs with h <;> simp [h, eq_comm]

namespace Sched

/-- The middle of `thread_create`, from the state `s` `init_thread` left to the call of
`thread_unblock`: `allocate_tid`'s tid written into the new thread's page `t`, and the
`child_info` on page `q` appended to `child_list`. -/
def registerChild (s : Sched) (t q : ℕ) : Sched :=
  { s.setThread t { s.tcb t with tid := s.nextTid } with
    nextTid := s.nextTid + 1
    tidLog := s.tidLog ++ [s.nextTid]
    childList := s.childList ++ [⟨t, s.nextTid, false, false, false, 0⟩]
    allocated := q :: t :: s.allocated }

@[simp] theorem registerChild_tcb (s : Sched) (t q u : ℕ) :
    (s.registerChild t q).tcb u = if u = t then { s.tcb t with tid := s.nextTid } else s.tcb u :=
  rfl

@[simp] theorem registerChild_allocated (s : Sched) (t q : ℕ) :
    (s.registerChild t q).allocated = q :: t :: s.allocated := rfl

@[simp] theorem registerChild_nextTid (s : Sched) (t q : ℕ) :
    (s.registerChild t q).nextTid = s.nextTid + 1 := rfl

@[simp] theorem registerChild_tidLog (s : Sched) (t q : ℕ) :
    (s.registerChild t q).tidLog = s.tidLog ++ [s.nextTid] := rfl

@[simp] theorem registerChild_childList (s : Sched) (t q : ℕ) :
    (s.registerChild t q).childList = s.childList ++ [⟨t, s.nextTid, false, false, false, 0⟩] :=
  rfl

@[simp] theorem registerChild_cur (s : Sched) (t q : ℕ) : (s.registerChild t q).cur = s.cur := rfl

@[simp] theorem registerChild_idleThread (s : Sched) (t q : ℕ) :
    (s.registerChild t q).idleThread = s.idleThread := rfl

@[simp] theorem registerChild_initialThread (s : Sched) (t q : ℕ) :
    (s.registerChild t q).initialThread = s.initialThread := rfl

@[simp] theorem registerChild_readyList (s : Sched) (t q : ℕ) :
    (s.registerChild t q).readyList = s.readyList := rfl

@[simp] theorem registerChild_sleepList (s : Sched) (t q : ℕ) :
    (s.registerChild t q).sleepList = s.sleepList := rfl

@[simp] theorem registerChild_allList (s : Sched) (t q : ℕ) :
    (s.registerChild t q).allList = s.allList := rfl

@[simp] theorem registerChild_waiters (s : Sched) (t q : ℕ) :
    (s.registerChild t q).waiters = s.waiters := rfl

@[simp] theorem registerChild_lock (s : Sched) (t q : ℕ) :
    (s.registerChild t q).lock = s.lock := rfl

@[simp] theorem registerChild_ticks (s : Sched) (t q : ℕ) :
    (s.registerChild t q).ticks = s.ticks := rfl

@[simp] theorem registerChild_loadAvg (s : Sched) (t q : ℕ) :
    (s.registerChild t q).loadAvg = s.loadAvg := rfl

end Sched

/-- The MLFQS branch of `thread_create`: `recent_cpu` and `priority` recomputed for the new thread
`t`, then for the running thread. -/
def createRecompute (mlfqs : Bool) (s : Sched) (t : ℕ) : Sched :=
  if mlfqs then
    updatePriority (updateRecentCpu (updatePriority (updateRecentCpu s t) t) s.cur) s.cur
  else s

@[simp] theorem createRecompute_false (s : Sched) (t : ℕ) : createRecompute false s t = s := rfl

/-- `thread_create` with both pages: `init_thread`, the registration of the child, its admission
to `ready_list`, the MLFQS recomputation and the closing `thread_cond_yield`. -/
theorem threadCreate_some_some (mlfqs : Bool) (s : Sched) (priority : ℤ) (t q : ℕ) :
    threadCreate mlfqs s priority (some t) (some q) =
      (initThread s t priority).bind fun s1 =>
        (threadCondYield (createRecompute mlfqs ((s1.registerChild t q).readied t) t)).bind
          fun s7 => some (s7, s1.nextTid) := by
  cases h : initThread s t priority with
  | none => simp [threadCreate, h]
  | some s1 =>
      have hb : (s1.tcb t).status = .blocked := by
        obtain ⟨-, rfl⟩ := initThread_eq_some_iff.1 h; simp
      simp only [threadCreate, h, Option.bind_eq_bind, Option.some_bind, allocateTid,
        threadUnblock_eq]
      rw [if_pos (by simpa using hb)]
      rfl

/-- **The state `thread_start` returns in**, for three distinct pages: the initial thread `p`
RUNNING with tid 1, the idle thread `pIdle` BLOCKED with tid 2 and its `child_info` on `pInfo`,
every queue empty, no lock held, every priority its base priority unless under MLFQS, and every
other page untouched. -/
theorem threadStart_spec {mlfqs : Bool} {p pIdle pInfo : ℕ} {s : Sched} (h1 : p ≠ pIdle)
    (h : threadStart mlfqs p pIdle pInfo = some s) :
    s.cur = p ∧ s.initialThread = p ∧ s.idleThread = some pIdle ∧ s.readyList = [] ∧
      s.sleepList = [] ∧ s.waiters = [] ∧ s.allList = [pIdle, p] ∧ s.allocated = [pInfo, pIdle] ∧
      s.lock = (fun _ => ⟨none, 0⟩) ∧ s.nextTid = 3 ∧ s.tidLog = [1, 2] ∧
      s.childList = [⟨pIdle, 2, false, false, false, 0⟩] ∧ (s.tcb p).status = .running ∧
      (s.tcb pIdle).status = .blocked ∧ (s.tcb p).tid = 1 ∧ (s.tcb pIdle).tid = 2 ∧
      (∀ u, (s.tcb u).sleepPending = false ∧ (s.tcb u).locks = [] ∧
        (mlfqs = false → (s.tcb u).priority = (s.tcb u).oldPriority)) ∧
      (∀ u, u ≠ p → u ≠ pIdle → s.tcb u = Thread.zero) := by
  cases mlfqs <;>
  simp only [threadStart, threadInit, initThread, priMin, priDefault, Int.reduceLE, priMax, and_self,
    ↓reduceIte, Sched.setThread, BitVec.ofNat_eq_ofNat, allocateTid, Option.pure_def,
    Option.bind_eq_bind, Option.some_bind, BitVec.reduceAdd, List.nil_append, threadCreate, le_refl,
    threadGetRecentCpu, threadUnblock, pushReady, threadCondYield, updatePriority, updateRecentCpu,
    sub_neg, gt_iff_lt, Bool.false_eq_true, ne_eq, threadBlock, schedule, reduceCtorEq,
    nextThreadToRun, threadScheduleTail, FixedPoint.multInt_zero, FixedPoint.div_zero_left,
    Ne.symm h1, FixedPoint.convertToIntRound_zero, FixedPoint.mult_zero_left, List.singleton_append,
    listInsertOrdered_nil, zero_add, zero_mul, sub_zero, h1, not_false_eq_true, lt_self_iff_false,
    Int.reduceLT, and_false, not_true_eq_false, List.erase_cons_head, Nat.reduceAdd, and_true,
    Option.some.injEq] at h <;>
  subst h <;> simp only [BitVec.ofNat_eq_ofNat, ↓reduceIte, Ne.symm h1, Bool.true_eq_false,
    IsEmpty.forall_iff, forall_const, ne_eq, true_and, and_true] <;>
  refine ⟨fun u => ?_, fun u hu hu' => ?_⟩ <;> split_ifs <;>
    simp only [Thread.zero, BitVec.ofNat_eq_ofNat, and_self]

end Pintos
