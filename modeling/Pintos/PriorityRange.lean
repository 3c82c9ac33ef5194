import Pintos.Donation

/-!
**Priorities stay in range.**

`thread.c` keeps every priority within `[PRI_MIN, PRI_MAX]`.  `init_thread` and
`thread_set_priority` take only priorities in range, and `thread_set_priority` none at all under
MLFQS.  `update_priority` clamps what it computes from `recent_cpu` and `nice`.  A donation copies
the running thread's priority, and `thread_remove_lock` restores the base priority or takes a
lock's `max_priority` above it, which no donation raises beyond `PRI_MAX`.  This holds in both
scheduling modes, over every run.

Main definitions:

* `Pintos.Thread.InRange` — a descriptor whose working and base priorities are in range;
* `Pintos.Sched.RangeInv` — every descriptor in range, and no lock's `max_priority` above
  `PRI_MAX`.

Main results:

* `Pintos.rangeInv_updatePriority` — `update_priority` clamps;
* `Pintos.step_rangeInv` — every step keeps the invariant;
* `Pintos.priorities_in_range` — **in every reachable state every priority is in range**.
-/

set_option autoImplicit false

namespace Pintos

open Sched

/-- The working and base priorities of a descriptor lie in `[PRI_MIN, PRI_MAX]`. -/
def Thread.InRange (th : Thread) : Prop :=
  priMin ≤ th.priority ∧ th.priority ≤ priMax ∧ priMin ≤ th.oldPriority ∧ th.oldPriority ≤ priMax

/-- Every descriptor's priorities in range, and no lock's `max_priority` above `PRI_MAX`. -/
structure Sched.RangeInv (s : Sched) : Prop where
  tcb : ∀ t, (s.tcb t).InRange
  lock : ∀ l, (s.lock l).maxPriority ≤ priMax

namespace Sched

variable {s s' : Sched}

theorem RangeInv.of_keepsIdentity (h : s.RangeInv) (hk : KeepsIdentity s s') : s'.RangeInv where
  tcb t := by
    unfold Thread.InRange; rw [hk.priority_eq, hk.oldPriority_eq]; exact h.tcb t
  lock l := by rw [hk.lock_eq]; exact h.lock l

/-- Rewriting one descriptor with one in range. -/
theorem RangeInv.setThread (h : s.RangeInv) (t : ℕ) (th : Thread) (hth : th.InRange) :
    (s.setThread t th).RangeInv where
  tcb u := by
    by_cases hu : u = t
    · subst hu; rw [setThread_tcb_self]; exact hth
    · rw [setThread_tcb_of_ne _ _ hu]; exact h.tcb u
  lock := h.lock

/-- Handing over or releasing a lock whose `max_priority` is at most `PRI_MAX`. -/
theorem RangeInv.setLock (h : s.RangeInv) (l : ℕ) (v : Lock) (hv : v.maxPriority ≤ priMax) :
    ({ s with lock := Function.update s.lock l v } : Sched).RangeInv where
  tcb := h.tcb
  lock l' := by
    by_cases hl : l' = l
    · subst hl; simpa using hv
    · simpa [Function.update_noteq hl] using h.lock l'

end Sched

variable {s s' : Sched}

/-- `update_priority` clamps what it computes into range. -/
theorem rangeInv_updatePriority (h : s.RangeInv) (t : ℕ) : (updatePriority s t).RangeInv := by
  unfold updatePriority
  split_ifs
  · exact h
  · -- each outcome of the clamp's two comparisons is in range
    refine h.setThread t _ ⟨?_, ?_, (h.tcb t).2.2⟩ <;> dsimp only <;> split_ifs <;>
      simp only [priMin, priMax] at * <;> omega

theorem rangeInv_updateRecentCpu (h : s.RangeInv) (t : ℕ) : (updateRecentCpu s t).RangeInv := by
  unfold updateRecentCpu
  split_ifs
  · exact h
  · exact h.setThread t _ (h.tcb t)

theorem rangeInv_threadForeach {f : Sched → ℕ → Sched}
    (hf : ∀ s t, s.RangeInv → (f s t).RangeInv) (h : s.RangeInv) :
    (threadForeach f s).RangeInv := by
  unfold threadForeach
  suffices ∀ (l : List ℕ) (s : Sched), s.RangeInv → (l.foldl f s).RangeInv from this _ _ h
  intro l
  induction l with
  | nil => exact fun _ h => h
  | cons a l ih => exact fun s h => ih _ (hf s a h)

theorem rangeInv_createRecompute (mlfqs : Bool) (h : s.RangeInv) (t : ℕ) :
    (createRecompute mlfqs s t).RangeInv := by
  unfold createRecompute
  split_ifs
  · exact rangeInv_updatePriority (rangeInv_updateRecentCpu (rangeInv_updatePriority
      (rangeInv_updateRecentCpu h t) t) _) _
  · exact h

/-- `init_thread` takes only a priority in range. -/
theorem rangeInv_initThread {t : ℕ} {priority : ℤ} {s₁ : Sched} (h : s.RangeInv)
    (hi : initThread s t priority = some s₁) : s₁.RangeInv := by
  obtain ⟨⟨hlo, hhi⟩, rfl⟩ := initThread_eq_some_iff.1 hi
  refine ⟨(h.setThread t _ ?_).tcb, h.lock⟩
  exact ⟨hlo, hhi, hlo, hhi⟩

theorem rangeInv_threadCreate {mlfqs : Bool} {priority : ℤ} {t q : ℕ} {tid : Tid}
    (h : s.RangeInv) (hc : threadCreate mlfqs s priority (some t) (some q) = some (s', tid)) :
    s'.RangeInv := by
  rw [threadCreate_some_some] at hc
  obtain ⟨s₁, h₁, hc⟩ := Option.bind_eq_some.1 hc
  obtain ⟨s₇, h₇, hc⟩ := Option.bind_eq_some.1 hc
  cases hc
  have hr₁ := rangeInv_initThread h h₁
  have hr₂ : (s₁.registerChild t q).RangeInv :=
    ⟨(hr₁.setThread t { s₁.tcb t with tid := s₁.nextTid } (hr₁.tcb t)).tcb, hr₁.lock⟩
  exact (rangeInv_createRecompute mlfqs (hr₂.of_keepsIdentity (keepsIdentity_readied _ t))
    t).of_keepsIdentity (keepsIdentity_threadCondYield h₇)

/-- `thread_set_priority` takes only a priority in range, and none under MLFQS. -/
theorem rangeInv_threadSetPriority {mlfqs : Bool} {p : ℤ} (h : s.RangeInv)
    (hs : threadSetPriority mlfqs s p = some s') : s'.RangeInv := by
  unfold threadSetPriority at hs
  by_cases hr : p > priMax ∨ p < priMin
  · rw [if_pos hr] at hs; cases hs; exact h
  have hp : priMin ≤ p ∧ p ≤ priMax := by omega
  have h₁ := h.setThread s.cur { s.tcb s.cur with oldPriority := p }
    ⟨(h.tcb _).1, (h.tcb _).2.1, hp.1, hp.2⟩
  rw [if_neg hr] at hs
  dsimp only at hs
  split_ifs at hs
  · cases hs; exact h
  · refine (h₁.setThread s.cur _ ?_).of_keepsIdentity (keepsIdentity_threadYield hs)
    exact ⟨hp.1, hp.2, (h₁.tcb s.cur).2.2⟩
  · cases hs; exact h₁

theorem rangeInv_threadSetNice {n : ℤ} (h : s.RangeInv) (hs : threadSetNice s n = some s') :
    s'.RangeInv := by
  unfold threadSetNice at hs
  split_ifs at hs
  · cases hs; exact h
  · cases hs; exact h
  have h₁ := rangeInv_updatePriority (h.setThread s.cur { s.tcb s.cur with nice := n } (h.tcb _))
    s.cur
  dsimp only at hs
  split at hs
  · cases hs; exact ⟨h₁.1, h₁.2⟩
  · exact h₁.of_keepsIdentity (keepsIdentity_threadCondYield hs)
  · cases hs; exact h₁

/-- A donation copies the running thread's priority. -/
theorem rangeInv_threadDonatePriority {t : ℕ} (h : s.RangeInv)
    (hd : threadDonatePriority s t = some s') : s'.RangeInv := by
  have h₁ := h.setThread t { s.tcb t with priority := (s.tcb s.cur).priority }
    ⟨(h.tcb s.cur).1, (h.tcb s.cur).2.1, (h.tcb t).2.2⟩
  unfold threadDonatePriority at hd
  dsimp only at hd
  split at hd
  · cases hd
    refine RangeInv.of_keepsIdentity ?_ (keepsIdentity_pushReady _ t)
    exact ⟨h₁.1, h₁.2⟩
  · exact h₁.of_keepsIdentity (keepsIdentity_threadCondYield hd)
  · cases hd; exact h₁

/-- `thread_remove_lock` restores the base priority or takes a lock's `max_priority` above it. -/
theorem removeLockPriority_mem (h : s.RangeInv) (rest : List ℕ) :
    priMin ≤ removeLockPriority s rest ∧ removeLockPriority s rest ≤ priMax := by
  obtain ⟨hlo, hhi, holo, hohi⟩ := h.tcb s.cur
  unfold removeLockPriority
  split
  · exact ⟨holo, hohi⟩
  · split_ifs with hgt
    · exact ⟨by omega, h.lock _⟩
    · exact ⟨hlo, hhi⟩

theorem rangeInv_threadRemoveLock (h : s.RangeInv) (l : ℕ) : (threadRemoveLock s l).RangeInv := by
  rw [threadRemoveLock_eq]
  exact h.setThread _ _ ⟨(removeLockPriority_mem h _).1, (removeLockPriority_mem h _).2,
    (h.tcb s.cur).2.2⟩

/-- **Every step keeps every priority in range**, in both scheduling modes. -/
theorem step_rangeInv {mlfqs : Bool} {op : Op} (h : s.RangeInv)
    (hs : step mlfqs s op = some s') : s'.RangeInv := by
  cases op with
  | create priority tcbPage infoPage =>
      obtain ⟨-, rfl⟩ | ⟨t, q, tid, -, -, -, -, -, hc⟩ := step_create_cases _ hs
      · exact h
      · exact rangeInv_threadCreate h hc
  | semaDown | semaUp _ | idleBlock | yield | sleepBegin _ | sleepEnd | tick =>
      exact h.of_keepsIdentity (keepsIdentity_step hs trivial)
  | setPriority p =>
      simp only [step] at hs
      split_ifs at hs
      exact rangeInv_threadSetPriority h hs
  | setNice n =>
      simp only [step] at hs
      split_ifs at hs
      exact rangeInv_threadSetNice h hs
  | holdTheLock l m =>
      simp only [step] at hs
      split_ifs at hs with hg
      cases hs
      refine (h.setLock l _ ?_).setThread _ _ ?_
      · exact hg.2.2.trans (h.tcb s.cur).2.1
      · exact h.tcb s.cur
  | donatePriority l =>
      simp only [step] at hs
      split at hs
      · cases hs
      · split_ifs at hs
        exact rangeInv_threadDonatePriority (h.setLock l _ (h.tcb s.cur).2.1) hs
  | removeLock l =>
      simp only [step] at hs
      split_ifs at hs
      cases hs
      have h₁ := rangeInv_threadRemoveLock h l
      exact h₁.setLock l _ (h₁.lock l)
  | exit =>
      simp only [step, threadExit] at hs
      split_ifs at hs
      refine (RangeInv.setThread ?_ s.cur _ ?_).of_keepsIdentity (keepsIdentity_schedule hs)
      · exact ⟨h.1, h.2⟩
      · exact h.tcb s.cur
  | increaseRecentCpu =>
      simp only [step, increaseRecentCpu] at hs
      split_ifs at hs <;> cases hs
      · exact h
      · exact h.setThread _ _ (h.tcb s.cur)
      · exact h
  | updateLoadAvg =>
      simp only [step, updateLoadAvg] at hs
      split_ifs at hs <;> cases hs <;> exact ⟨h.1, h.2⟩
  | updateRecentCpuForEach =>
      simp only [step, updateRecentCpuForEach] at hs
      split_ifs at hs
      cases hs
      exact rangeInv_threadForeach (fun _ t h => rangeInv_updateRecentCpu h t) h
  | updatePriorityForEach =>
      simp only [step] at hs
      split_ifs at hs
      cases hs
      have h₁ := rangeInv_threadForeach (fun _ t h => rangeInv_updatePriority h t) h
      exact ⟨h₁.1, h₁.2⟩

theorem started_rangeInv {mlfqs : Bool} (hs : Started mlfqs s) : s.RangeInv := by
  obtain ⟨p, pi, pq, -, -, -, h⟩ := hs
  simp only [threadStart, threadInit, Option.bind_eq_bind, Option.bind_eq_some] at h
  obtain ⟨s₀, ⟨s₁, h₁, h₀⟩, ⟨s₂, tid⟩, h₂, s₃, h₃, s₄, h₄, h₅⟩ := h
  -- `thread_init`: the initial thread on a blank scheduler
  have hr₁ := rangeInv_initThread ⟨fun _ => by simp [Thread.InRange, Thread.zero, priMin, priMax],
    fun _ => by simp [priMax]⟩ h₁
  have hr₀ : s₀.RangeInv := by
    cases h₀
    have hrun := hr₁.setThread p { s₁.tcb p with status := .running } (hr₁.tcb p)
    have htid : (allocateTid (s₁.setThread p { s₁.tcb p with status := .running })).2.RangeInv :=
      ⟨hrun.1, hrun.2⟩
    refine ⟨(htid.setThread p _ ?_).1, htid.2⟩
    exact htid.tcb p
  -- the idle thread's creation, and the handshake that starts it
  have hr₂ := rangeInv_threadCreate hr₀ h₂
  have hr₃ : s₃.RangeInv := by
    refine RangeInv.of_keepsIdentity ?_ (keepsIdentity_threadBlock h₃)
    exact ⟨hr₂.1, hr₂.2⟩
  obtain ⟨-, rfl⟩ := threadUnblock_eq_some_iff.1 h₄
  refine (RangeInv.of_keepsIdentity ?_ (keepsIdentity_readied _ p)).of_keepsIdentity
    (keepsIdentity_threadBlock h₅)
  exact ⟨hr₃.1, hr₃.2⟩

theorem reach_rangeInv {mlfqs : Bool} {ok : Sched → Op → Prop} (hs : Reach mlfqs ok s) :
    s.RangeInv :=
  Reach.invariant mlfqs (fun _ h => started_rangeInv h) (fun _ _ _ h _ hs => step_rangeInv h hs) hs

/-- **Every priority stays in range.**  In every reachable state, in both scheduling modes, every
thread's working and base priorities lie in `[PRI_MIN, PRI_MAX]`, whatever its `recent_cpu` and
`nice`, and whatever was donated to it. -/
theorem priorities_in_range {mlfqs : Bool} (hs : Reachable mlfqs s) (t : ℕ) :
    priMin ≤ (s.tcb t).priority ∧ (s.tcb t).priority ≤ priMax ∧
      priMin ≤ (s.tcb t).oldPriority ∧ (s.tcb t).oldPriority ≤ priMax :=
  (reach_rangeInv hs).tcb t

/-- Under MLFQS the initial thread sets `nice` to -20: `update_priority` computes 103, and the
priority is clamped to `PRI_MAX`. -/
theorem priorities_in_range_after_set_nice :
    ∃ s, Reachable true s ∧ (s.tcb 1).nice = -20 ∧ (s.tcb 1).priority = priMax ∧
      priMin ≤ (s.tcb 1).priority ∧ (s.tcb 1).priority ≤ priMax ∧
      priMin ≤ (s.tcb 1).oldPriority ∧ (s.tcb 1).oldPriority ≤ priMax := by
  obtain ⟨s, hs, hn, hp⟩ : ∃ s, Reachable true s ∧ (s.tcb 1).nice = -20 ∧
      (s.tcb 1).priority = priMax :=
    exists_reach_of_run true 1 2 3 (by decide) [.setNice (-20)] (fun _ _ _ => trivial) (by decide)
  exact ⟨s, hs, hn, hp, priorities_in_range hs 1⟩

end Pintos
