import Pintos.StatusRuns

/-!
**The sleep queue.**

`thread_sleep` enters the running thread into `sleep_list` in order of `wakeup_time`, and
`thread_wakeup`, at every tick, unblocks threads from the front of the list until it meets one
that is not yet due.  That early exit is a full scan of the list only because the list is sorted:
on a sorted list the due threads are a prefix.

`thread_sleep` reads `timer_ticks ()` before it disables interrupts.  A tick that falls between the
read and the insertion is not seen by the sleeper: it enters `sleep_list` already due, and is woken
one tick late.

Main definitions:

* `Pintos.Sched.SleepSorted` — `sleep_list` sorted by wake-up tick;
* `Pintos.Sched.sleepView` — what that order reads: each sleeper with its wake-up tick.

Main results:

* `Pintos.sleepSorted_insert` — `list_insert_ordered` with `wakeup_time_less` keeps the order;
* `Pintos.wakeupFrom_filter` — **the early-exit scan is a filter**: on a sorted list of BLOCKED
  threads, `thread_wakeup` readies exactly the due threads and leaves the others in order;
* `Pintos.step_sleepSorted` — every step keeps `sleep_list` sorted, so it is sorted in every
  reachable state;
* `Pintos.tick_wakes_due` — **every tick wakes exactly the due sleepers**, from every reachable
  state, in which `sleep_list` is sorted;
* `Pintos.sleeper_stays_asleep` — **no sleeper wakes early**: no step of a reachable state wakes a
  thread more than one tick before its wake-up tick;
* `Pintos.sleep_race_late_wakeup` — a thread that slept from tick 0 for one tick is still in
  `sleep_list` after tick 1.
-/

set_option autoImplicit false

namespace Pintos

open Sched

/-- `sleep_list` is sorted by wake-up tick. -/
def Sched.SleepSorted (s : Sched) : Prop :=
  s.sleepList.Pairwise fun a b => (s.tcb a).wakeupTime ≤ (s.tcb b).wakeupTime

/-- `list_insert_ordered (&sleep_list, ..., wakeup_time_less, NULL)` keeps `sleep_list` sorted. -/
theorem sleepSorted_insert {s : Sched} (h : s.SleepSorted) (t : ℕ) :
    (listInsertOrdered (wakeupTimeLess s) t s.sleepList).Pairwise
      fun a b => (s.tcb a).wakeupTime ≤ (s.tcb b).wakeupTime := by
  refine pairwise_listInsertOrdered ?_ h (fun e _ he => ?_) (fun e _ he => ?_)
  · exact fun _ _ _ => le_trans
  · simpa [wakeupTimeLess] using he
  · exact le_of_lt (by simpa [wakeupTimeLess] using he)

/-- **The early-exit scan of `thread_wakeup` is a filter.**  Run on the whole of a sorted
`sleep_list` of distinct BLOCKED threads, the loop succeeds; it leaves in `sleep_list` exactly the
threads not yet due, in their order, makes every due thread READY in `ready_list`, and leaves every
other thread's status and place in `ready_list` alone. -/
theorem wakeupFrom_filter :
    ∀ (l : List ℕ) (s : Sched), s.sleepList = l → l.Nodup →
      l.Pairwise (fun a b => (s.tcb a).wakeupTime ≤ (s.tcb b).wakeupTime) →
      (∀ t ∈ l, (s.tcb t).status = .blocked) →
      ∃ s', wakeupFrom s l = some s' ∧ s'.ticks = s.ticks ∧
        s'.sleepList = l.filter (fun t => s.ticks < (s.tcb t).wakeupTime) ∧
        (∀ t ∈ l, (s.tcb t).wakeupTime ≤ s.ticks → (s'.tcb t).status = .ready ∧ t ∈ s'.readyList) ∧
        (∀ u, (u ∈ l → s.ticks < (s.tcb u).wakeupTime) →
          (s'.tcb u).status = (s.tcb u).status ∧ (u ∈ s.readyList → u ∈ s'.readyList))
  | [], s, hl, _, _, _ => ⟨s, rfl, rfl, by simp [hl], by simp, fun _ _ => ⟨rfl, id⟩⟩
  | t :: l, s, hl, hnd, hsort, hb => by
      rw [List.pairwise_cons] at hsort
      rw [wakeupFrom_cons]
      by_cases hlt : s.ticks < (s.tcb t).wakeupTime
      · -- `t` is not due, and neither is anything behind it
        refine ⟨s, if_pos hlt, rfl, ?_, fun u hu hle => ?_, fun _ _ => ⟨rfl, id⟩⟩
        · rw [hl, List.filter_eq_self.2]
          intro u hu
          rcases List.mem_cons.1 hu with rfl | hu
          · simpa using hlt
          · simpa using lt_of_lt_of_le hlt (hsort.1 u hu)
        · rcases List.mem_cons.1 hu with rfl | hu
          · exact absurd hle (not_le.2 hlt)
          · exact absurd hle (not_le.2 (lt_of_lt_of_le hlt (hsort.1 u hu)))
      · -- `t` is due: it is unblocked, and the loop goes on with the rest of the list
        rw [if_neg hlt]
        have htl : t ∉ l := (List.nodup_cons.1 hnd).1
        set s₀ := { s.setThread t { s.tcb t with wakeupTime := 0 } with sleepList := l }
        have hq : ∀ u ∈ l, (s₀.readied t).tcb u = s.tcb u := fun u hu => by
          simp [s₀, show u ≠ t from fun he => htl (he ▸ hu)]
        have hu₀ : threadUnblock s₀ t = some (s₀.readied t) :=
          threadUnblock_eq_some_iff.2 ⟨by simpa [s₀] using hb t (List.mem_cons_self t l), rfl⟩
        obtain ⟨s', hw, hticks, hsl, hdue, hrest⟩ := wakeupFrom_filter l (s₀.readied t) (by simp [s₀])
          (List.nodup_cons.1 hnd).2 (hsort.2.imp_of_mem fun ha hb' hab => by rwa [hq _ ha, hq _ hb'])
          (fun u hu => by rw [hq u hu]; exact hb u (List.mem_cons_of_mem t hu))
        have htick : (s₀.readied t).ticks = s.ticks := rfl
        refine ⟨s', by rw [hu₀, Option.some_bind]; exact hw, hticks, ?_, fun u hu hle => ?_,
          fun u hu => ?_⟩
        · rw [hsl, List.filter_cons_of_neg (by simpa using hlt), htick]
          exact List.filter_congr fun u hu => by rw [hq u hu]
        · rcases List.mem_cons.1 hu with rfl | hu
          · have := hrest u (fun hu' => absurd hu' htl)
            simp only [readied_tcb, if_pos rfl, readied_readyList, mem_listInsertOrdered,
              true_or, true_implies] at this
            exact ⟨this.1, this.2⟩
          · exact hdue u hu (by rwa [hq u hu, htick])
        · have hut : u ≠ t := fun he => by subst he; exact hlt (hu (List.mem_cons_self _ l))
          have hul : u ∈ l → (s₀.readied t).ticks < ((s₀.readied t).tcb u).wakeupTime :=
            fun hm => by rw [hq u hm, htick]; exact hu (List.mem_cons_of_mem t hm)
          obtain ⟨h₁, h₂⟩ := hrest u hul
          refine ⟨by rw [h₁]; simp [s₀, hut], fun hr => h₂ ?_⟩
          simp [s₀, hr]

/-! ### The order in every reachable state -/

namespace Sched

/-- What the order of `sleep_list` reads: each sleeper with its wake-up tick. -/
def sleepView (s : Sched) : List (ℕ × ℤ) := s.sleepList.map fun u => (u, (s.tcb u).wakeupTime)

variable {s s' : Sched}

theorem sleepSorted_iff : s.SleepSorted ↔ s.sleepView.Pairwise fun a b => a.2 ≤ b.2 := by
  simp only [SleepSorted, sleepView, List.pairwise_map]

theorem SleepSorted.of_sublist (h : s.SleepSorted) (hv : s'.sleepView.Sublist s.sleepView) :
    s'.SleepSorted :=
  sleepSorted_iff.2 ((sleepSorted_iff.1 h).sublist hv)

theorem SleepSorted.of_view (h : s.SleepSorted) (hv : s'.sleepView = s.sleepView) :
    s'.SleepSorted :=
  h.of_sublist (hv ▸ .refl _)

@[simp] theorem mem_sleepView {t : ℕ} {w : ℤ} :
    (t, w) ∈ s.sleepView ↔ t ∈ s.sleepList ∧ (s.tcb t).wakeupTime = w := by
  simp only [sleepView, List.mem_map, Prod.mk.injEq]
  constructor
  · rintro ⟨u, hu, rfl, rfl⟩; exact ⟨hu, rfl⟩
  · rintro ⟨hu, rfl⟩; exact ⟨t, hu, rfl, rfl⟩

theorem sleepView_congr (hl : s'.sleepList = s.sleepList)
    (hw : ∀ u ∈ s.sleepList, (s'.tcb u).wakeupTime = (s.tcb u).wakeupTime) :
    s'.sleepView = s.sleepView := by
  rw [sleepView, sleepView, hl]
  exact List.map_congr_left fun u hu => by rw [hw u hu]

/-- Rewriting a descriptor keeps the view when its thread does not sleep, or keeps its wake-up
tick. -/
theorem sleepView_setThread (s : Sched) (t : ℕ) (th : Thread)
    (h : t ∉ s.sleepList ∨ th.wakeupTime = (s.tcb t).wakeupTime) :
    (s.setThread t th).sleepView = s.sleepView :=
  sleepView_congr rfl fun u hu => by
    by_cases hut : u = t
    · subst hut; rw [setThread_tcb_self]; exact h.resolve_left (not_not.2 hu)
    · rw [setThread_tcb_of_ne _ _ hut]

theorem sleepView_readied (s : Sched) (t : ℕ) : (s.readied t).sleepView = s.sleepView :=
  sleepView_congr rfl fun u _ => by by_cases hut : u = t <;> simp [hut]

theorem sleepView_switchTo (s : Sched) (next : ℕ) (rest : List ℕ) :
    (s.switchTo next rest).sleepView = s.sleepView :=
  sleepView_setThread s next _ (.inr rfl)

end Sched

variable {s s' : Sched}

theorem sleepView_schedule (h : schedule s = some s') : s'.sleepView = s.sleepView := by
  obtain ⟨-, next, rest, -, rfl⟩ := schedule_eq_some_iff.1 h
  exact sleepView_switchTo s next rest

theorem sleepView_threadBlock (h : threadBlock s = some s') : s'.sleepView = s.sleepView :=
  (sleepView_schedule h).trans (sleepView_setThread _ _ _ (by exact .inr rfl))

theorem sleepView_threadYield (h : threadYield s = some s') : s'.sleepView = s.sleepView := by
  by_cases hi : s.idleThread = some s.cur
  · rw [threadYield_eq_of_idle s hi] at h
    exact (sleepView_schedule h).trans (sleepView_setThread _ _ _ (by exact .inr rfl))
  · rw [threadYield_eq_of_ne s hi] at h
    exact (sleepView_schedule h).trans (sleepView_readied s s.cur)

theorem sleepView_threadCondYield (h : threadCondYield s = some s') :
    s'.sleepView = s.sleepView :=
  (threadCondYield_cases h).elim (fun he => he ▸ rfl) sleepView_threadYield

theorem sleepView_updatePriority (s : Sched) (t : ℕ) :
    (updatePriority s t).sleepView = s.sleepView := by
  unfold updatePriority
  split_ifs
  · rfl
  · exact sleepView_setThread _ _ _ (by exact .inr rfl)

theorem sleepView_updateRecentCpu (s : Sched) (t : ℕ) :
    (updateRecentCpu s t).sleepView = s.sleepView := by
  unfold updateRecentCpu
  split_ifs
  · rfl
  · exact sleepView_setThread _ _ _ (by exact .inr rfl)

theorem sleepView_threadForeach {f : Sched → ℕ → Sched}
    (hf : ∀ s t, (f s t).sleepView = s.sleepView) (s : Sched) :
    (threadForeach f s).sleepView = s.sleepView := by
  unfold threadForeach
  suffices ∀ (l : List ℕ) (s : Sched), (l.foldl f s).sleepView = s.sleepView from this _ _
  intro l
  induction l with
  | nil => exact fun _ => rfl
  | cons a l ih => exact fun s => (ih _).trans (hf s a)

theorem sleepView_createRecompute (mlfqs : Bool) (s : Sched) (t : ℕ) :
    (createRecompute mlfqs s t).sleepView = s.sleepView := by
  unfold createRecompute
  split_ifs
  · rw [sleepView_updatePriority, sleepView_updateRecentCpu, sleepView_updatePriority,
      sleepView_updateRecentCpu]
  · rfl

theorem sleepView_threadRemoveLock (s : Sched) (l : ℕ) :
    (threadRemoveLock s l).sleepView = s.sleepView := by
  have h₁ := sleepView_setThread s s.cur
    { s.tcb s.cur with locks := (s.tcb s.cur).locks.erase l } (.inr rfl)
  unfold threadRemoveLock
  dsimp only
  split
  · exact (sleepView_setThread _ _ _ (by exact .inr rfl)).trans h₁
  · split_ifs
    · exact (sleepView_setThread _ _ _ (by exact .inr rfl)).trans h₁
    · exact h₁

theorem sleepView_threadDonatePriority {t : ℕ} (hs : threadDonatePriority s t = some s') :
    s'.sleepView = s.sleepView := by
  have h₁ := sleepView_setThread s t { s.tcb t with priority := (s.tcb s.cur).priority } (.inr rfl)
  unfold threadDonatePriority at hs
  dsimp only at hs
  split at hs
  · cases hs
    exact (sleepView_setThread _ _ _ (by exact .inr rfl)).trans h₁
  · exact (sleepView_threadCondYield hs).trans h₁
  · cases hs; exact h₁

theorem sleepView_threadSetNice {n : ℤ} (hs : threadSetNice s n = some s') :
    s'.sleepView = s.sleepView := by
  unfold threadSetNice at hs
  split_ifs at hs
  · cases hs; rfl
  · cases hs; rfl
  have h₁ := (sleepView_updatePriority _ s.cur).trans
    (sleepView_setThread s s.cur { s.tcb s.cur with nice := n } (.inr rfl))
  dsimp only at hs
  split at hs
  · cases hs; exact h₁
  · exact (sleepView_threadCondYield hs).trans h₁
  · cases hs; exact h₁

theorem sleepView_threadSetPriority {mlfqs : Bool} {p : ℤ}
    (hs : threadSetPriority mlfqs s p = some s') : s'.sleepView = s.sleepView := by
  unfold threadSetPriority at hs
  split_ifs at hs
  · cases hs; rfl
  · cases hs; rfl
  have h₁ := sleepView_setThread s s.cur { s.tcb s.cur with oldPriority := p } (.inr rfl)
  dsimp only at hs
  split_ifs at hs
  · exact ((sleepView_threadYield hs).trans (sleepView_setThread _ _ _ (by exact .inr rfl))).trans h₁
  · cases hs; exact h₁

/-- `thread_create` writes the descriptor of a fresh thread, which does not sleep. -/
theorem sleepView_threadCreate {mlfqs : Bool} {priority : ℤ} {t q : ℕ} {tid : Tid}
    (ht : t ∉ s.sleepList)
    (hc : threadCreate mlfqs s priority (some t) (some q) = some (s', tid)) :
    s'.sleepView = s.sleepView := by
  rw [threadCreate_some_some] at hc
  obtain ⟨s₁, hi, hc⟩ := Option.bind_eq_some.1 hc
  obtain ⟨s₇, hy, hc⟩ := Option.bind_eq_some.1 hc
  cases hc
  obtain ⟨-, rfl⟩ := initThread_eq_some_iff.1 hi
  rw [sleepView_threadCondYield hy, sleepView_createRecompute, sleepView_readied]
  refine sleepView_congr rfl fun u hu => ?_
  simp [show u ≠ t from fun he => ht (he ▸ hu)]

/-- The wake-up loop drops the due threads from the front of `sleep_list`, and touches no other
sleeper's wake-up tick. -/
theorem sleepView_wakeupFrom : ∀ (l : List ℕ) {s s' : Sched}, s.sleepList = l → l.Nodup →
    wakeupFrom s l = some s' → s'.sleepView.Sublist s.sleepView
  | [], _, _, _, _, hw => by cases hw; exact .refl _
  | t :: l, s, s', hl, hnd, hw => by
      rw [wakeupFrom_cons] at hw
      split_ifs at hw
      · cases hw; exact .refl _
      obtain ⟨s₁, hu, hw⟩ := Option.bind_eq_some.1 hw
      obtain ⟨-, rfl⟩ := threadUnblock_eq_some_iff.1 hu
      obtain ⟨htl, hnd⟩ := List.nodup_cons.1 hnd
      have h₀ : ({ s.setThread t { s.tcb t with wakeupTime := 0 } with sleepList := l } :
          Sched).sleepView = s.sleepView.tail := by
        simp only [sleepView, hl, List.map_cons, List.tail_cons]
        exact List.map_congr_left fun u hu => by
          rw [setThread_tcb_of_ne _ _ (show u ≠ t from fun he => htl (he ▸ hu))]
      refine (sleepView_wakeupFrom l (by rfl) hnd hw).trans ?_
      rw [sleepView_readied, h₀]
      exact List.tail_sublist _

theorem sleepView_threadTick {b : Bool} (h : threadTick s = some (s', b))
    (hnd : s.sleepList.Nodup) : s'.sleepView.Sublist s.sleepView := by
  unfold threadTick at h
  split_ifs at h
  obtain ⟨s₂, hw, he⟩ := Option.map_eq_some'.1 h
  cases he
  exact (sleepView_wakeupFrom _ (by rfl) hnd hw :)

/-- **What a step does to the sleepers**, from a state with the status discipline: the second half
of `thread_sleep` inserts the running thread by wake-up tick, the timer tick runs `thread_tick`,
and every other step keeps each sleeper and its wake-up tick. -/
theorem step_sleepView {mlfqs : Bool} {op : Op} (hst : s.StatusInv)
    (hs : step mlfqs s op = some s') :
    s'.sleepView = s.sleepView ∨
      s'.sleepView = (listInsertOrdered (wakeupTimeLess s) s.cur s.sleepList).map
        (fun u => (u, (s.tcb u).wakeupTime)) ∨
      ∃ b, threadTick { s with ticks := s.ticks + 1 } = some (s', b) := by
  cases op with
  | create priority tcbPage infoPage =>
      obtain ⟨-, rfl⟩ | ⟨t, q, tid, -, -, ht, -, -, hc⟩ := step_create_cases _ hs
      · exact .inl rfl
      refine .inl (sleepView_threadCreate (fun hm => ?_) hc)
      obtain ⟨-, -, ha, -⟩ := (hst.placed t).sleeping hm
      rcases hst.all_allocated t ha with h' | h'
      · exact ht.1 h'
      · exact ht.2 h'
  | semaDown =>
      simp only [step] at hs
      split_ifs at hs
      exact .inl (sleepView_threadBlock hs :)
  | semaUp t =>
      simp only [step] at hs
      split_ifs at hs
      obtain ⟨-, rfl⟩ := threadUnblock_eq_some_iff.1 hs
      exact .inl (sleepView_readied _ t)
  | idleBlock =>
      simp only [step] at hs
      split_ifs at hs
      exact .inl (sleepView_threadBlock hs :)
  | yield => exact .inl (sleepView_threadYield hs)
  | sleepBegin n =>
      simp only [step, threadSleepBegin] at hs
      split_ifs at hs
      cases hs
      exact .inl (sleepView_setThread _ _ _ (.inl hst.cur_not_sleeping))
  | sleepEnd =>
      simp only [step, threadSleepEnd] at hs
      split_ifs at hs
      refine .inr (.inl ((sleepView_threadBlock hs :).trans (List.map_congr_left fun u _ => ?_)))
      by_cases hu : u = s.cur <;> simp [hu]
  | tick =>
      obtain ⟨⟨s₁, b⟩, ht, rfl⟩ := Option.map_eq_some'.1 hs
      exact .inr (.inr ⟨b, ht⟩)
  | setPriority p =>
      simp only [step] at hs
      split_ifs at hs
      exact .inl (sleepView_threadSetPriority hs)
  | setNice n =>
      simp only [step] at hs
      split_ifs at hs
      exact .inl (sleepView_threadSetNice hs)
  | holdTheLock l m =>
      simp only [step] at hs
      split_ifs at hs
      cases hs
      exact .inl (sleepView_setThread _ _ _ (by exact .inr rfl))
  | donatePriority l =>
      simp only [step] at hs
      split at hs
      · cases hs
      · split_ifs at hs
        exact .inl (sleepView_threadDonatePriority hs :)
  | removeLock l =>
      simp only [step] at hs
      split_ifs at hs
      cases hs
      exact .inl (sleepView_threadRemoveLock s l)
  | exit =>
      simp only [step, threadExit] at hs
      split_ifs at hs
      exact .inl ((sleepView_schedule hs).trans (sleepView_setThread _ _ _ (by exact .inr rfl)))
  | increaseRecentCpu =>
      simp only [step, increaseRecentCpu] at hs
      split_ifs at hs <;> cases hs
      · exact .inl rfl
      · exact .inl (sleepView_setThread _ _ _ (by exact .inr rfl))
      · exact .inl rfl
  | updateLoadAvg =>
      simp only [step, updateLoadAvg] at hs
      split_ifs at hs <;> cases hs <;> exact .inl rfl
  | updateRecentCpuForEach =>
      simp only [step, updateRecentCpuForEach] at hs
      split_ifs at hs
      cases hs
      exact .inl (sleepView_threadForeach sleepView_updateRecentCpu s)
  | updatePriorityForEach =>
      simp only [step] at hs
      split_ifs at hs
      cases hs
      exact .inl (sleepView_threadForeach sleepView_updatePriority s)

/-- **Every step keeps `sleep_list` sorted by wake-up tick**, from a state with the status
discipline: `thread_sleep` inserts in order, `thread_wakeup` drops a prefix, and nothing else
moves a sleeper or its wake-up tick. -/
theorem step_sleepSorted {mlfqs : Bool} {op : Op} (hst : s.StatusInv) (h : s.SleepSorted)
    (hs : step mlfqs s op = some s') : s'.SleepSorted := by
  rcases step_sleepView hst hs with hv | hv | ⟨b, ht⟩
  · exact h.of_view hv
  · rw [sleepSorted_iff, hv, List.pairwise_map]
    exact sleepSorted_insert h s.cur
  · exact h.of_sublist (sleepView_threadTick ht hst.sleep_nodup :)

theorem started_sleepSorted {mlfqs : Bool} (hs : Started mlfqs s) : s.SleepSorted := by
  obtain ⟨p, pi, pq, h1, -, -, h⟩ := hs
  simp [SleepSorted, (threadStart_spec h1 h).2.2.2.2.1]

/-- `sleep_list` is sorted by wake-up tick in every reachable state. -/
theorem reach_sleepSorted {mlfqs : Bool} {ok : Sched → Op → Prop} (hs : Reach mlfqs ok s) :
    s.StatusInv ∧ s.SleepSorted :=
  @Reach.invariant mlfqs ok (fun s => s.StatusInv ∧ s.SleepSorted)
    (fun _ h => ⟨started_statusInv h, started_sleepSorted h⟩)
    (fun _ _ _ h _ hst => ⟨step_statusInv h.1 hst, step_sleepSorted h.1 h.2 hst⟩) s hs

/-- The call of `thread_tick` in a timer interrupt, from a state with the status discipline and a
sorted `sleep_list`: it succeeds, keeps in `sleep_list` exactly the sleepers not yet due, with their
wake-up ticks, and readies every due sleeper. -/
theorem threadTick_after_tick (hst : s.StatusInv) (hsort : s.SleepSorted) :
    ∃ s' b, threadTick { s with ticks := s.ticks + 1 } = some (s', b) ∧
      s'.sleepList = s.sleepList.filter (fun t => s.ticks + 1 < (s.tcb t).wakeupTime) ∧
      s'.sleepView.Sublist s.sleepView ∧
      ∀ t ∈ s.sleepList, (s.tcb t).wakeupTime ≤ s.ticks + 1 →
        (s'.tcb t).status = .ready ∧ t ∈ s'.readyList := by
  obtain ⟨s', hw, -, hsl, hdue, -⟩ := wakeupFrom_filter s.sleepList
    { s with ticks := s.ticks + 1, threadTicks := s.threadTicks + 1 } rfl hst.sleep_nodup hsort
    (fun t ht => ((hst.placed t).sleeping ht).1)
  refine ⟨s', decide (timeSlice ≤ s.threadTicks + 1), ?_, hsl,
    (sleepView_wakeupFrom _ (by rfl) hst.sleep_nodup hw :), hdue⟩
  simp only [threadTick, if_pos hst.cur_running, threadWakeup]
  exact (congrArg (Option.map _) hw).trans rfl

/-- **Every timer tick wakes exactly the due sleepers.**  In every reachable state `sleep_list`
is sorted by wake-up tick, and the tick succeeds; after it `sleep_list` holds exactly the threads
whose wake-up tick is still ahead, in their order, and every thread that was due is READY in
`ready_list`. -/
theorem tick_wakes_due {mlfqs : Bool} (hs : Reachable mlfqs s) :
    s.SleepSorted ∧ ∃ s', step mlfqs s .tick = some s' ∧
      s'.sleepList = s.sleepList.filter (fun t => s.ticks + 1 < (s.tcb t).wakeupTime) ∧
      ∀ t ∈ s.sleepList, (s.tcb t).wakeupTime ≤ s.ticks + 1 →
        (s'.tcb t).status = .ready ∧ t ∈ s'.readyList := by
  obtain ⟨hst, hsort⟩ := reach_sleepSorted hs
  obtain ⟨s', b, ht, hsl, -, hdue⟩ := threadTick_after_tick hst hsort
  exact ⟨hsort, s', by simp only [step, timerInterrupt, ht, Option.map_some'], hsl, hdue⟩

/-- The initial thread sleeps until tick 1 and the idle thread takes over: the next tick empties
`sleep_list` and readies the sleeper. -/
theorem tick_wakes_due_after_sleep :
    ∃ s s', Reachable false s ∧ s.sleepList = [1] ∧ step false s .tick = some s' ∧
      s'.sleepList = [] ∧ (s'.tcb 1).status = .ready := by
  obtain ⟨s, hs, hl, ht, hw⟩ : ∃ s, Reachable false s ∧ s.sleepList = [1] ∧ s.ticks = 0 ∧
      (s.tcb 1).wakeupTime = 1 :=
    exists_reach_of_run false 1 2 3 (by decide) [.sleepBegin 1, .sleepEnd] (fun _ _ _ => trivial)
      (by decide)
  obtain ⟨-, s', hstep, hsl, hdue⟩ := tick_wakes_due hs
  refine ⟨s, s', hs, hl, hstep, by simp [hsl, hl, ht, hw], (hdue 1 (by simp [hl]) ?_).1⟩
  simp [ht, hw]

/-- **No sleeper wakes early.**  From every reachable state, after any step, a thread that sleeps
with a wake-up tick more than one tick ahead still sleeps, BLOCKED, with the same wake-up tick. -/
theorem sleeper_stays_asleep {mlfqs : Bool} {op : Op} {t : ℕ} (hs : Reachable mlfqs s)
    (hstep : step mlfqs s op = some s') (ht : t ∈ s.sleepList)
    (hlt : s.ticks + 1 < (s.tcb t).wakeupTime) :
    t ∈ s'.sleepList ∧ (s'.tcb t).status = .blocked ∧
      (s'.tcb t).wakeupTime = (s.tcb t).wakeupTime := by
  obtain ⟨hst, hsort⟩ := reach_sleepSorted hs
  have hkeep : (t, (s.tcb t).wakeupTime) ∈ s'.sleepView := by
    rcases step_sleepView hst hstep with hv | hv | ⟨b, htick⟩
    · rw [hv, mem_sleepView]; exact ⟨ht, rfl⟩
    · rw [hv]; exact List.mem_map_of_mem _ (mem_listInsertOrdered.2 (.inr ht))
    · -- the tick: `t` is not due, so `thread_wakeup` stops before it
      obtain ⟨s₂, b₂, ht₂, hsl, hsub, -⟩ := threadTick_after_tick hst hsort
      obtain ⟨rfl, -⟩ := Prod.mk.inj (Option.some.inj (htick.symm.trans ht₂))
      have hm : t ∈ s'.sleepList := by
        rw [hsl, List.mem_filter]; exact ⟨ht, decide_eq_true hlt⟩
      exact mem_sleepView.2 ⟨hm, (mem_sleepView.1 (hsub.subset (mem_sleepView.2 ⟨hm, rfl⟩))).2.symm⟩
  obtain ⟨hm, hw⟩ := mem_sleepView.1 hkeep
  exact ⟨hm, ((reachable_statusInv (.step hs trivial hstep)).placed t).sleeping hm |>.1, hw⟩

/-- The initial thread sleeps for five ticks from tick 0: it still sleeps after the first. -/
theorem sleeper_stays_asleep_after_tick :
    ∃ s s', Reachable false s ∧ step false s .tick = some s' ∧ 1 ∈ s.sleepList ∧
      s.ticks + 1 < (s.tcb 1).wakeupTime ∧ 1 ∈ s'.sleepList ∧ (s'.tcb 1).status = .blocked := by
  obtain ⟨s, hs, hl, ht, hw, hsome⟩ : ∃ s, Reachable false s ∧ s.sleepList = [1] ∧ s.ticks = 0 ∧
      (s.tcb 1).wakeupTime = 5 ∧ (step false s .tick).isSome :=
    exists_reach_of_run false 1 2 3 (by decide) [.sleepBegin 5, .sleepEnd] (fun _ _ _ => trivial)
      (by decide)
  obtain ⟨s', hs'⟩ := Option.isSome_iff_exists.1 hsome
  have h1 : 1 ∈ s.sleepList := by simp [hl]
  have hlt : s.ticks + 1 < (s.tcb 1).wakeupTime := by rw [ht, hw]; decide
  obtain ⟨hm, hb, -⟩ := sleeper_stays_asleep hs hs' h1 hlt
  exact ⟨s, s', hs, hs', h1, hlt, hm, hb⟩

/-- The thread that runs, in the initial state, `thread_sleep (1)` at tick 0 reads the tick count,
and tick 1 arrives before it queues itself: after tick 1 it is BLOCKED in `sleep_list` with wake-up
tick 1. -/
theorem sleep_race_late_wakeup :
    ∃ s, Reachable false s ∧ s.ticks = 1 ∧ (s.tcb 1).wakeupTime = 1 ∧ 1 ∈ s.sleepList ∧
      (s.tcb 1).status = .blocked :=
  exists_reach_of_run false 1 2 3 (by decide) [.sleepBegin 1, .tick, .sleepEnd]
    (fun _ _ _ => trivial) (by decide)

end Pintos
