import Pintos.DispatchFrame

/-!
**The MLFQS statistics: `load_avg`, and the `recent_cpu` of a new thread.**

`load_avg` starts at 0 in `thread_init`, and only `update_load_avg` writes it, once a second:
`load_avg = 59/60 load_avg + 1/60 ready_threads`, in 17.14 fixed point.  The two coefficients
are truncated, `59/60` to `16110 / 2^14` and `1/60` to `273 / 2^14`, and they sum to less than
one; so a run in which `ready_threads` never exceeds `R` keeps `load_avg` in `[0, R F]`.  This
bounds the divisor of `update_recent_cpu` away from zero and the product of
`thread_get_load_avg` below `2^31`.

`thread_create` under MLFQS does not copy the creator's `recent_cpu`: `init_thread` stores the
readout `thread_get_recent_cpu ()`, which is 100 times `recent_cpu` rounded to an integer, in the
fixed-point field, and `thread_create` then runs the once-a-second decay `update_recent_cpu` on
the new thread and on the creator.

Main definitions:

* `Pintos.Sched.readyThreads` — `ready_threads` of `update_load_avg`.

Main results:

* `Pintos.step_loadAvg` — only `update_load_avg` writes `load_avg`;
* `Pintos.load_avg_bounded` — **`load_avg` stays in `[0, R F]`** in every run where
  `ready_threads` never exceeds `R`;
* `Pintos.threadCreate_recentCpu` — what `thread_create` makes of the `recent_cpu` of both
  threads;
* `Pintos.create_decays_recent_cpu` — so a creator with `recent_cpu = 1` leaves both threads at 0.
-/

set_option autoImplicit false

namespace Pintos

open FixedPoint Sched

/-- `ready_threads` of `update_load_avg ()`: the threads of `ready_list`, and the running thread
unless it is idle. -/
def Sched.readyThreads (s : Sched) : ℤ :=
  if s.idleThread ≠ some s.cur then s.readyList.length + 1 else s.readyList.length

theorem Sched.readyThreads_nonneg (s : Sched) : 0 ≤ s.readyThreads := by
  unfold readyThreads; split_ifs <;> omega

theorem updateLoadAvg_true (s : Sched) :
    updateLoadAvg true s = some { s with
      loadAvg := mult (divInt (convertToFp 59) 60) s.loadAvg +
        multInt (divInt (convertToFp 1) 60) s.readyThreads } :=
  rfl

/-! ### One update -/

/-- `59/60` truncates to `16110 / 2^14`. -/
theorem divInt_convertToFp_59 : divInt (convertToFp 59) 60 = 16110 := rfl

/-- `1/60` truncates to `273 / 2^14`. -/
theorem divInt_convertToFp_1 : divInt (convertToFp 1) 60 = 273 := rfl

/-- One update keeps `load_avg` in `[0, R F]` when `ready_threads` is at most `R`: the truncated
coefficients sum to `16383 / 2^14`. -/
theorem loadAvg_update_mem {L r R : ℤ} (hL : 0 ≤ L) (hLR : L ≤ R * F) (hr : 0 ≤ r) (hrR : r ≤ R) :
    0 ≤ mult (divInt (convertToFp 59) 60) L + multInt (divInt (convertToFp 1) 60) r ∧
      mult (divInt (convertToFp 59) 60) L + multInt (divInt (convertToFp 1) 60) r ≤ R * F := by
  have hq : (16110 * L).tdiv 16384 = 16110 * L / 16384 := Int.tdiv_eq_ediv (by omega) (by omega)
  rw [divInt_convertToFp_59, divInt_convertToFp_1, mult, multInt, F, hq]
  unfold F at hLR
  omega

/-! ### Who writes `load_avg` -/

variable {s s' : Sched}

theorem loadAvg_updatePriority (s : Sched) (t : ℕ) : (updatePriority s t).loadAvg = s.loadAvg := by
  unfold updatePriority; split_ifs <;> rfl

theorem loadAvg_updateRecentCpu (s : Sched) (t : ℕ) :
    (updateRecentCpu s t).loadAvg = s.loadAvg := by
  unfold updateRecentCpu; split_ifs <;> rfl

theorem loadAvg_threadForeach {f : Sched → ℕ → Sched} (hf : ∀ s t, (f s t).loadAvg = s.loadAvg)
    (s : Sched) : (threadForeach f s).loadAvg = s.loadAvg := by
  unfold threadForeach
  generalize s.allList = l
  induction l generalizing s with
  | nil => rfl
  | cons t l ih => exact (ih _).trans (hf s t)

theorem loadAvg_createRecompute (mlfqs : Bool) (s : Sched) (t : ℕ) :
    (createRecompute mlfqs s t).loadAvg = s.loadAvg := by
  cases mlfqs
  · rfl
  · simp only [createRecompute, if_true, loadAvg_updatePriority, loadAvg_updateRecentCpu]

theorem loadAvg_threadRemoveLock (s : Sched) (l : ℕ) :
    (threadRemoveLock s l).loadAvg = s.loadAvg := by
  unfold threadRemoveLock
  dsimp only
  split
  · rfl
  · split_ifs <;> rfl

theorem loadAvg_threadCreate {mlfqs : Bool} {priority : ℤ} {t q : ℕ} {tid : Tid}
    (hc : threadCreate mlfqs s priority (some t) (some q) = some (s', tid)) :
    s'.loadAvg = s.loadAvg := by
  rw [threadCreate_some_some] at hc
  obtain ⟨s₁, h₁, hc⟩ := Option.bind_eq_some.1 hc
  obtain ⟨s₇, h₇, hc⟩ := Option.bind_eq_some.1 hc
  cases hc
  obtain ⟨-, rfl⟩ := initThread_eq_some_iff.1 h₁
  rw [(keepsIdentity_threadCondYield h₇).loadAvg_eq, loadAvg_createRecompute]
  rfl

/-- **Only `update_load_avg` writes `load_avg`.** -/
theorem step_loadAvg {mlfqs : Bool} {op : Op} (hop : op ≠ .updateLoadAvg)
    (hs : step mlfqs s op = some s') : s'.loadAvg = s.loadAvg := by
  cases op with
  | create p a b =>
      obtain ⟨-, rfl⟩ | ⟨t, q, tid, -, -, -, -, -, hc⟩ := step_create_cases _ hs
      · rfl
      · exact loadAvg_threadCreate hc
  | semaDown | semaUp _ | idleBlock | yield | sleepBegin _ | sleepEnd | tick =>
      exact (keepsIdentity_step hs trivial).loadAvg_eq
  | setPriority p =>
      simp only [step, threadSetPriority] at hs
      split_ifs at hs <;> first | (cases hs; rfl) | exact (keepsIdentity_threadYield hs).loadAvg_eq
  | setNice n =>
      simp only [step, threadSetNice] at hs
      split_ifs at hs
      · cases hs; rfl
      · cases hs; rfl
      · split at hs
        · cases hs; exact loadAvg_updatePriority _ _
        · exact (keepsIdentity_threadCondYield hs).loadAvg_eq.trans (loadAvg_updatePriority _ _)
        · cases hs; exact loadAvg_updatePriority _ _
  | holdTheLock l m =>
      simp only [step] at hs
      split_ifs at hs
      cases hs; rfl
  | donatePriority l =>
      simp only [step] at hs
      split at hs
      · cases hs
      · split_ifs at hs
        unfold threadDonatePriority at hs
        dsimp only at hs
        split at hs
        · cases hs; rfl
        · exact (keepsIdentity_threadCondYield hs).loadAvg_eq
        · cases hs; rfl
  | removeLock l =>
      simp only [step] at hs
      split_ifs at hs
      cases hs
      exact loadAvg_threadRemoveLock s l
  | exit =>
      simp only [step, threadExit] at hs
      split_ifs at hs
      exact (keepsIdentity_schedule hs).loadAvg_eq
  | increaseRecentCpu =>
      simp only [step, increaseRecentCpu] at hs
      split_ifs at hs <;> cases hs <;> rfl
  | updateLoadAvg => exact absurd rfl hop
  | updateRecentCpuForEach =>
      simp only [step, updateRecentCpuForEach] at hs
      split_ifs at hs
      cases hs
      exact loadAvg_threadForeach loadAvg_updateRecentCpu s
  | updatePriorityForEach =>
      simp only [step] at hs
      split_ifs at hs
      cases hs
      exact loadAvg_threadForeach loadAvg_updatePriority s

/-- `thread_start` returns with `load_avg` at the 0 that `thread_init` stored. -/
theorem started_loadAvg {mlfqs : Bool} (hs : Started mlfqs s) : s.loadAvg = 0 := by
  obtain ⟨p, pi, pq, -, -, -, h⟩ := hs
  simp only [threadStart, threadInit, Option.bind_eq_bind, Option.bind_eq_some] at h
  obtain ⟨s₀, ⟨s₁, -, h₀⟩, ⟨s₂, tid⟩, h₂, s₃, h₃, s₄, h₄, h₅⟩ := h
  cases h₀
  obtain ⟨-, rfl⟩ := threadUnblock_eq_some_iff.1 h₄
  rw [(keepsIdentity_threadBlock h₅).loadAvg_eq, readied_loadAvg,
    (keepsIdentity_threadBlock h₃).loadAvg_eq]
  exact loadAvg_threadCreate h₂

/-! ### `load_avg` over a run -/

/-- `load_avg` stays in `[0, R F]` in every run whose `update_load_avg` calls all see at most `R`
ready threads. -/
theorem reach_loadAvg_mem (R : ℕ)
    (hs : Reach true (fun s op => op = .updateLoadAvg → s.readyThreads ≤ R) s) :
    0 ≤ s.loadAvg ∧ s.loadAvg ≤ R * F := by
  refine @Reach.invariant true _ (fun s => 0 ≤ s.loadAvg ∧ s.loadAvg ≤ R * F)
    (fun s h => ?_) (fun s s' op h hok hst => ?_) s hs <;> dsimp only at *
  · rw [started_loadAvg h]; exact ⟨le_rfl, by unfold F; omega⟩
  · by_cases hop : op = .updateLoadAvg
    · subst hop
      rw [step, updateLoadAvg_true, Option.some.injEq] at hst
      subst hst
      exact loadAvg_update_mem h.1 h.2 s.readyThreads_nonneg (hok rfl)
    · rw [step_loadAvg hop hst]; exact h

/-- **`load_avg` stays in `[0, R F]`** in every MLFQS run from `thread_start` in which
`ready_threads` never exceeds `R` at an `update_load_avg`.  Hence the divisor
`2 load_avg + F` of `update_recent_cpu` is positive, and for `R ≤ 1310` the product
`100 load_avg` of `thread_get_load_avg` fits in a 32-bit `int`. -/
theorem load_avg_bounded (R : ℕ)
    (hs : Reach true (fun s op => op = .updateLoadAvg → s.readyThreads ≤ R) s) :
    0 ≤ s.loadAvg ∧ s.loadAvg ≤ R * F ∧ 0 < addInt (multInt s.loadAvg 2) 1 ∧
      (R ≤ 1310 → 0 ≤ multInt s.loadAvg 100 ∧ multInt s.loadAvg 100 < 2 ^ 31) := by
  obtain ⟨h0, hR⟩ := reach_loadAvg_mem R hs
  unfold F at hR
  refine ⟨h0, by unfold F; exact hR, by simp only [addInt, multInt, F]; omega, fun h1310 => ?_⟩
  simp only [multInt]
  have : (R : ℤ) ≤ 1310 := by exact_mod_cast h1310
  constructor <;> omega

/-- From `thread_start`, with the initial thread the one ready thread, one `update_load_avg` sets
`load_avg` to `273`, `1/60` in fixed point. -/
theorem load_avg_bounded_after_update :
    ∃ s, Reach true (fun s op => op = .updateLoadAvg → s.readyThreads ≤ ((1 : ℕ) : ℤ)) s ∧
      s.loadAvg = 273 ∧ 0 ≤ s.loadAvg ∧ s.loadAvg ≤ (1 : ℕ) * F ∧
      0 < addInt (multInt s.loadAvg 2) 1 ∧
      ((1 : ℕ) ≤ 1310 → 0 ≤ multInt s.loadAvg 100 ∧ multInt s.loadAvg 100 < 2 ^ 31) := by
  have h : (threadStart true 1 2 3).map (fun s => decide (s.readyThreads ≤ ((1 : ℕ) : ℤ)) &&
      decide ((updateLoadAvg true s).map Sched.loadAvg = some 273)) = some true := by decide
  cases h₀ : threadStart true 1 2 3 with
  | none => simp [h₀] at h
  | some s₀ =>
      simp only [h₀, Option.map_some', Option.some.injEq, Bool.and_eq_true,
        decide_eq_true_eq] at h
      obtain ⟨hr, hl⟩ := h
      obtain ⟨s₁, hs₁, hla⟩ := Option.map_eq_some'.1 hl
      have hreach : Reach true (fun s op => op = .updateLoadAvg → s.readyThreads ≤ ((1 : ℕ) : ℤ)) s₁ :=
        @Reach.step true _ s₀ s₁ .updateLoadAvg (.start ⟨1, 2, 3, by decide, by decide, by decide, h₀⟩)
          (fun _ => hr) hs₁
      exact ⟨s₁, hreach, hla, load_avg_bounded 1 hreach⟩

/-! ### `recent_cpu` across `thread_create` -/

@[simp] theorem updatePriority_tcb_recentCpu (s : Sched) (t u : ℕ) :
    ((updatePriority s t).tcb u).recentCpu = (s.tcb u).recentCpu := by
  unfold updatePriority; split_ifs
  · rfl
  · by_cases h : u = t <;> simp [h]

@[simp] theorem updatePriority_tcb_nice (s : Sched) (t u : ℕ) :
    ((updatePriority s t).tcb u).nice = (s.tcb u).nice := by
  unfold updatePriority; split_ifs
  · rfl
  · by_cases h : u = t <;> simp [h]

@[simp] theorem updatePriority_cur (s : Sched) (t : ℕ) : (updatePriority s t).cur = s.cur := by
  unfold updatePriority; split_ifs <;> rfl

@[simp] theorem updatePriority_idleThread (s : Sched) (t : ℕ) :
    (updatePriority s t).idleThread = s.idleThread := by
  unfold updatePriority; split_ifs <;> rfl

@[simp] theorem updateRecentCpu_tcb_nice (s : Sched) (t u : ℕ) :
    ((updateRecentCpu s t).tcb u).nice = (s.tcb u).nice := by
  unfold updateRecentCpu; split_ifs
  · rfl
  · by_cases h : u = t <;> simp [h]

@[simp] theorem updateRecentCpu_cur (s : Sched) (t : ℕ) : (updateRecentCpu s t).cur = s.cur := by
  unfold updateRecentCpu; split_ifs <;> rfl

@[simp] theorem updateRecentCpu_idleThread (s : Sched) (t : ℕ) :
    (updateRecentCpu s t).idleThread = s.idleThread := by
  unfold updateRecentCpu; split_ifs <;> rfl

/-- `update_recent_cpu (t)` decays the `recent_cpu` of `t`, unless `t` is idle, and no other. -/
theorem updateRecentCpu_tcb_recentCpu (s : Sched) (t u : ℕ) :
    ((updateRecentCpu s t).tcb u).recentCpu =
      if u = t ∧ s.idleThread ≠ some t then
        addInt (mult (div (multInt s.loadAvg 2) (addInt (multInt s.loadAvg 2) 1)) (s.tcb t).recentCpu)
          (s.tcb t).nice
      else (s.tcb u).recentCpu := by
  unfold updateRecentCpu
  by_cases hi : s.idleThread = some t
  · simp [hi]
  · by_cases hu : u = t <;> simp [hi, hu]

/-- What `thread_create` under MLFQS makes of `recent_cpu` and `nice`: the new thread `t` takes its
creator's `nice`, starts from the readout `thread_get_recent_cpu ()` of its creator, and then both
threads go through the once-a-second decay of `update_recent_cpu`. -/
theorem threadCreate_recentCpu {priority : ℤ} {t q : ℕ} {tid : Tid}
    (hc : threadCreate true s priority (some t) (some q) = some (s', tid)) (hcur : t ≠ s.cur)
    (hinit : t ≠ s.initialThread) (hidle : s.idleThread ≠ some t)
    (hidleCur : s.idleThread ≠ some s.cur) :
    (s'.tcb t).nice = (s.tcb s.cur).nice ∧
      (s'.tcb t).recentCpu = addInt (mult (div (multInt s.loadAvg 2)
        (addInt (multInt s.loadAvg 2) 1)) (threadGetRecentCpu s)) (s.tcb s.cur).nice ∧
      (s'.tcb s.cur).recentCpu = addInt (mult (div (multInt s.loadAvg 2)
        (addInt (multInt s.loadAvg 2) 1)) (s.tcb s.cur).recentCpu) (s.tcb s.cur).nice := by
  rw [threadCreate_some_some] at hc
  obtain ⟨s₁, h₁, hc⟩ := Option.bind_eq_some.1 hc
  obtain ⟨s₇, h₇, hc⟩ := Option.bind_eq_some.1 hc
  cases hc
  obtain ⟨-, rfl⟩ := initThread_eq_some_iff.1 h₁
  have hk := keepsIdentity_threadCondYield h₇
  rw [hk.nice_eq, hk.recentCpu_eq, hk.recentCpu_eq]
  simp [createRecompute, updateRecentCpu_tcb_recentCpu, loadAvg_updatePriority, loadAvg_updateRecentCpu,
    hcur, hcur.symm, hinit, hidle, hidleCur]

/-- Under MLFQS the initial thread, charged one tick so that its `recent_cpu` is `1` (the
fixed-point `F`), creates a thread at `PRI_DEFAULT`: the new thread gets its `nice`, but both
threads come out of `thread_create` with `recent_cpu` 0.  The child started from the readout
`100`, not from `F`, and the decay with `load_avg` 0 cleared both. -/
theorem create_decays_recent_cpu :
    ∃ s, Reachable true s ∧ (s.tcb s.cur).recentCpu = F ∧ ∃ s' tid,
      threadCreate true s priDefault (some 4) (some 5) = some (s', tid) ∧
      (s'.tcb 4).nice = (s.tcb s.cur).nice ∧ (s'.tcb 4).recentCpu = 0 ∧
      (s'.tcb s.cur).recentCpu = 0 := by
  obtain ⟨s, hs, hF, hP⟩ : ∃ s, Reachable true s ∧ (s.tcb s.cur).recentCpu = F ∧
      (threadCreate true s priDefault (some 4) (some 5)).map (fun r =>
        ((r.1.tcb 4).nice, (r.1.tcb 4).recentCpu, (r.1.tcb s.cur).recentCpu)) =
        some ((s.tcb s.cur).nice, 0, 0) :=
    exists_reach_of_run true 1 2 3 (by decide) [.increaseRecentCpu] (fun _ _ _ => trivial)
      (by decide)
  obtain ⟨⟨s', tid⟩, hc, he⟩ := Option.map_eq_some'.1 hP
  simp only [Prod.mk.injEq] at he
  exact ⟨s, hs, hF, s', tid, hc, he⟩

end Pintos
