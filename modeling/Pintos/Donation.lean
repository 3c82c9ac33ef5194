import Pintos.StatusRuns
import Pintos.DispatchFrame

/-!
**Priority donation.**

Without MLFQS a thread's working `priority` is raised by `thread_donate_priority` when a thread of
higher priority waits for one of its locks, and `thread_remove_lock` recomputes it when the thread
releases a lock.  Its base priority `old_priority` is what `thread_set_priority` last asked for.

What holds, over every run that calls neither `thread_set_nice` (which rewrites the priority of the
caller whatever the mode) nor `thread_exit` from a thread holding a lock: the working priority never
falls below the base, and equals it whenever the thread holds no lock.  What does not hold is that
the working priority is the maximum of the base and the `max_priority` of the held locks:
`thread_remove_lock` reads only the front lock of `locks`, and when that lock does not exceed the
base it leaves the priority where it was, donation included.

Main definitions:

* `Pintos.Sched.DonationInv` — the donation discipline;
* `Pintos.DonationStep` — the steps it is stated for.

Main results:

* `Pintos.step_donationInv` — every such step keeps it;
* `Pintos.donation_base_priority` — **the base priority is a floor, and the value with no lock
  held**, in every reachable state;
* `Pintos.remove_lock_keeps_donation` — a release that leaves a donated priority in place.
-/

set_option autoImplicit false

namespace Pintos

open Sched

/-- The donation discipline: the base priority is a floor of the working priority, and its value
when the thread holds no lock; a lock's holder is a registered thread that lists the lock. -/
structure Sched.DonationInv (s : Sched) : Prop where
  base_le : ∀ t ∈ s.allList, (s.tcb t).oldPriority ≤ (s.tcb t).priority
  base_of_free : ∀ t ∈ s.allList, (s.tcb t).locks = [] → (s.tcb t).priority = (s.tcb t).oldPriority
  holder_holds : ∀ l h, (s.lock l).holder = some h → h ∈ s.allList ∧ l ∈ (s.tcb h).locks

/-- The steps the donation law is stated for: no `thread_set_nice`, and `thread_exit` only from a
thread that holds no lock. -/
def DonationStep (s : Sched) : Op → Prop
  | .setNice _ => False
  | .exit => (s.tcb s.cur).locks = []
  | _ => True

variable {s s' : Sched}

/-- The discipline reads only the priorities and locks of the registered threads and the lock
holders. -/
theorem Sched.DonationInv.congr (h : s.DonationInv)
    (hp : ∀ t ∈ s.allList, (s'.tcb t).priority = (s.tcb t).priority ∧
      (s'.tcb t).oldPriority = (s.tcb t).oldPriority ∧ (s'.tcb t).locks = (s.tcb t).locks)
    (ha : s'.allList = s.allList) (hl : ∀ l, (s'.lock l).holder = (s.lock l).holder) :
    s'.DonationInv where
  base_le t ht := by
    rw [ha] at ht; obtain ⟨h₁, h₂, -⟩ := hp t ht; rw [h₁, h₂]; exact h.base_le t ht
  base_of_free t ht := by
    rw [ha] at ht; obtain ⟨h₁, h₂, h₃⟩ := hp t ht; rw [h₁, h₂, h₃]; exact h.base_of_free t ht
  holder_holds l x hx := by
    obtain ⟨hm, hlx⟩ := h.holder_holds l x (hl l ▸ hx)
    exact ⟨ha ▸ hm, (hp x hm).2.2 ▸ hlx⟩

theorem Sched.DonationInv.of_keepsIdentity (h : s.DonationInv) (hk : KeepsIdentity s s') :
    s'.DonationInv :=
  h.congr (fun t _ => ⟨hk.priority_eq t, hk.oldPriority_eq t, hk.locks_eq t⟩) hk.allList_eq
    fun l => by rw [hk.lock_eq]

/-- Rewriting the descriptor of page `t` in fields the discipline does not read. -/
theorem Sched.DonationInv.setThread (h : s.DonationInv) (t : ℕ) (th : Thread)
    (hth : th.priority = (s.tcb t).priority ∧ th.oldPriority = (s.tcb t).oldPriority ∧
      th.locks = (s.tcb t).locks) : (s.setThread t th).DonationInv :=
  h.congr (fun u _ => by by_cases hu : u = t <;> simp [hu, hth]) rfl fun _ => rfl

/-- One descriptor changes as the discipline allows: its base priority stays a floor, and the value
when no lock is held, and it keeps every lock it held. -/
theorem Sched.DonationInv.update (h : s.DonationInv) (t : ℕ)
    (hother : ∀ u, u ≠ t → s'.tcb u = s.tcb u)
    (hle : (s'.tcb t).oldPriority ≤ (s'.tcb t).priority)
    (hfree : (s'.tcb t).locks = [] → (s'.tcb t).priority = (s'.tcb t).oldPriority)
    (hsub : (s.tcb t).locks ⊆ (s'.tcb t).locks) (ha : s'.allList = s.allList)
    (hl : ∀ l, (s'.lock l).holder = (s.lock l).holder) : s'.DonationInv where
  base_le u hu := by
    by_cases hut : u = t
    · exact hut ▸ hle
    · rw [hother u hut]; exact h.base_le u (ha ▸ hu)
  base_of_free u hu := by
    by_cases hut : u = t
    · exact hut ▸ hfree
    · rw [hother u hut]; exact h.base_of_free u (ha ▸ hu)
  holder_holds l x hx := by
    obtain ⟨hm, hlx⟩ := h.holder_holds l x (hl l ▸ hx)
    refine ⟨ha ▸ hm, ?_⟩
    by_cases hxt : x = t
    · subst hxt; exact hsub hlx
    · rw [hother x hxt]; exact hlx

theorem keepsIdentity_pushReady (s : Sched) (t : ℕ) : KeepsIdentity s (pushReady s t) :=
  ⟨fun u => by by_cases hu : u = t <;> simp [hu, Thread.identity], rfl⟩

/-- `thread_set_priority` without MLFQS: the base priority is recorded, and the working priority
follows it when no lock is held or it rises. -/
theorem threadSetPriority_donationInv (h : s.DonationInv) {p : ℤ}
    (hp : threadSetPriority false s p = some s') : s'.DonationInv := by
  unfold threadSetPriority at hp
  dsimp only at hp
  split_ifs at hp with hr hm hc
  · cases hp; exact h
  · exact hm.elim
  · refine Sched.DonationInv.of_keepsIdentity ?_ (keepsIdentity_threadYield hp)
    refine h.update s.cur (fun u hu => by simp [hu]) (by simp) (by simp) (by simp) rfl
      fun _ => rfl
  · cases hp
    refine h.update s.cur (fun u hu => by simp [hu]) ?_
      (fun hl => absurd (Or.inl (by simpa using hl)) hc) (by simp) rfl fun _ => rfl
    simp only [Sched.setThread_tcb_self]
    omega

/-! ### Locks -/

/-- The priority `thread_remove_lock` leaves the running thread with, once `rest` is what remains
of its locks: the base priority when none remains, the front lock's `max_priority` when it exceeds
the base, and otherwise the priority it had. -/
def removeLockPriority (s : Sched) (rest : List ℕ) : ℤ :=
  match rest with
  | [] => (s.tcb s.cur).oldPriority
  | f :: _ =>
      if (s.lock f).maxPriority > (s.tcb s.cur).oldPriority then (s.lock f).maxPriority
      else (s.tcb s.cur).priority

/-- `thread_remove_lock` rewrites only the running thread's descriptor. -/
theorem threadRemoveLock_eq (s : Sched) (l : ℕ) : threadRemoveLock s l =
    s.setThread s.cur
      { s.tcb s.cur with
        locks := (s.tcb s.cur).locks.erase l
        priority := removeLockPriority s ((s.tcb s.cur).locks.erase l) } := by
  unfold threadRemoveLock removeLockPriority
  dsimp only
  split <;> rename_i h <;> simp only [Sched.setThread_tcb_self] at h
  · simp [h]
  · split_ifs with hgt <;>
      simp only [Sched.setThread_tcb_self, Sched.setThread_lock] at hgt <;> simp [h, hgt]

/-- `thread_hold_the_lock`, on a free lock handed to the running thread. -/
theorem holdTheLock_donationInv (hst : s.StatusInv) (h : s.DonationInv) {l : ℕ} {m : ℤ} :
    (threadHoldTheLock { s with lock := Function.update s.lock l ⟨some s.cur, m⟩ } l).DonationInv
    where
  base_le u hu := by
    by_cases huc : u = s.cur
    · subst huc; simpa [threadHoldTheLock] using h.base_le _ hu
    · simpa [threadHoldTheLock, huc] using h.base_le u hu
  base_of_free u hu hl := by
    by_cases huc : u = s.cur
    · subst huc; simp [threadHoldTheLock, ← List.length_eq_zero] at hl
    · simp only [threadHoldTheLock, Sched.setThread_tcb, huc, if_false] at hl ⊢
      exact h.base_of_free u hu hl
  holder_holds l' x hx := by
    by_cases hl : l' = l
    · subst hl
      simp only [threadHoldTheLock, Sched.setThread_lock, Function.update_same,
        Option.some.injEq] at hx
      subst hx
      exact ⟨hst.cur_registered, by simp [threadHoldTheLock]⟩
    · simp only [threadHoldTheLock, Sched.setThread_lock, Function.update_noteq hl] at hx
      obtain ⟨hm, hlx⟩ := h.holder_holds l' x hx
      refine ⟨hm, ?_⟩
      by_cases hxc : x = s.cur
      · subst hxc; simp [threadHoldTheLock, hlx]
      · simpa [threadHoldTheLock, hxc] using hlx

/-- `thread_remove_lock`, followed by the release of the lock. -/
theorem removeLock_donationInv (h : s.DonationInv) (l : ℕ) :
    ({ threadRemoveLock s l with
        lock := Function.update (threadRemoveLock s l).lock l
          { (threadRemoveLock s l).lock l with holder := none } } : Sched).DonationInv := by
  rw [threadRemoveLock_eq]
  refine ⟨fun u hu => ?_, fun u hu hl => ?_, fun l' x hx => ?_⟩
  · by_cases huc : u = s.cur
    · subst huc
      have := h.base_le _ hu
      simp only [Sched.setThread_tcb_self, removeLockPriority]
      split
      · exact le_rfl
      · split_ifs with hgt <;> omega
    · simpa [huc] using h.base_le u hu
  · by_cases huc : u = s.cur
    · subst huc
      simp only [Sched.setThread_tcb_self] at hl ⊢
      simp [removeLockPriority, hl]
    · simp only [Sched.setThread_tcb, huc, if_false] at hl ⊢
      exact h.base_of_free u hu hl
  · by_cases hl : l' = l
    · subst hl; simp at hx
    · simp only [Sched.setThread_lock, Function.update_noteq hl] at hx
      obtain ⟨hm, hlx⟩ := h.holder_holds l' x hx
      refine ⟨hm, ?_⟩
      by_cases hxc : x = s.cur
      · subst hxc; simpa using (List.mem_erase_of_ne hl).2 hlx
      · simpa [hxc] using hlx

/-- `thread_donate_priority (t)` on the holder `t` of a lock, raising it to the caller's higher
priority. -/
theorem threadDonatePriority_donationInv (h : s.DonationInv) (l : ℕ) {t : ℕ}
    (hl : (s.lock l).holder = some t) (hlt : (s.tcb t).priority < (s.tcb s.cur).priority)
    (hd : threadDonatePriority s t = some s') : s'.DonationInv := by
  obtain ⟨hm, hlt'⟩ := h.holder_holds l t hl
  have h₁ : (s.setThread t { s.tcb t with priority := (s.tcb s.cur).priority }).DonationInv :=
    h.update t (fun u hu => by simp [hu]) (by simpa using (h.base_le t hm).trans hlt.le)
      (fun hn => by simp at hn; simp [hn] at hlt') (by simp) rfl fun _ => rfl
  unfold threadDonatePriority at hd
  dsimp only at hd
  split at hd
  · cases hd
    refine Sched.DonationInv.of_keepsIdentity ?_ (keepsIdentity_pushReady _ t)
    exact h₁.of_keepsIdentity ⟨fun _ => rfl, rfl⟩
  · exact h₁.of_keepsIdentity (keepsIdentity_threadCondYield hd)
  · cases hd; exact h₁

/-! ### Creation and exit -/

/-- `thread_create` on a fresh page: the new thread starts at its base priority and holds no
lock, and no lock names it as holder. -/
theorem threadCreate_donationInv (hst : s.StatusInv) (h : s.DonationInv) {priority : ℤ}
    {t q : ℕ} {tid : Tid} (ht : s.FreshPage t)
    (hc : threadCreate false s priority (some t) (some q) = some (s', tid)) : s'.DonationInv := by
  rw [threadCreate_some_some] at hc
  obtain ⟨s₁, h₁, hc⟩ := Option.bind_eq_some.1 hc
  obtain ⟨s₇, h₇, hc⟩ := Option.bind_eq_some.1 hc
  cases hc
  obtain ⟨-, rfl⟩ := initThread_eq_some_iff.1 h₁
  have hta : t ∉ s.allList := fun hm => (hst.all_allocated t hm).elim ht.1 ht.2
  have hreg : ∀ u ∈ s.allList, u ≠ t := fun u hu he => hta (he ▸ hu)
  refine (Sched.DonationInv.of_keepsIdentity ?_ (keepsIdentity_readied _ t)).of_keepsIdentity
    (keepsIdentity_threadCondYield (by simpa using h₇))
  refine ⟨fun u hu => ?_, fun u hu hl => ?_, fun l x hx => ?_⟩
  · rcases List.mem_cons.1 hu with rfl | hu
    · simp
    · simpa [hreg u hu] using h.base_le u hu
  · rcases List.mem_cons.1 hu with rfl | hu
    · simp
    · simp only [Sched.registerChild_tcb, Sched.setThread_tcb, hreg u hu, if_false] at hl ⊢
      exact h.base_of_free u hu hl
  · obtain ⟨hm, hlx⟩ := h.holder_holds l x (by simpa using hx)
    simpa [hm, hreg x hm] using hlx

/-- `thread_exit` from a thread that holds no lock: the thread leaves `all_list`, and no lock
names it as holder. -/
theorem threadExit_donationInv (h : s.DonationInv) (hl : (s.tcb s.cur).locks = [])
    (he : threadExit s = some s') : s'.DonationInv := by
  unfold threadExit at he
  have h₀ : ({ s with allList := s.allList.erase s.cur } : Sched).DonationInv :=
    ⟨fun u hu => h.base_le u (List.mem_of_mem_erase hu),
      fun u hu => h.base_of_free u (List.mem_of_mem_erase hu), fun l x hx => by
        obtain ⟨hm, hlx⟩ := h.holder_holds l x hx
        have hxc : x ≠ s.cur := by rintro rfl; simp [hl] at hlx
        exact ⟨(List.mem_erase_of_ne hxc).2 hm, hlx⟩⟩
  exact (h₀.setThread s.cur _ (by exact ⟨rfl, rfl, rfl⟩)).of_keepsIdentity
    (keepsIdentity_schedule he)

/-! ### Runs -/

variable {op : Op}

/-- **Every step the law is stated for keeps the donation discipline.** -/
theorem step_donationInv (hst : s.StatusInv) (h : s.DonationInv) (hok : DonationStep s op)
    (hs : step false s op = some s') : s'.DonationInv := by
  cases op with
  | create priority tcbPage infoPage =>
      obtain ⟨-, rfl⟩ | ⟨t, q, tid, -, -, ht, -, -, hc⟩ := step_create_cases _ hs
      · exact h
      · exact threadCreate_donationInv hst h ht hc
  | semaDown | semaUp _ | idleBlock | yield | sleepBegin _ | sleepEnd | tick =>
      exact h.of_keepsIdentity (keepsIdentity_step hs trivial)
  | setPriority p =>
      simp only [step] at hs
      split_ifs at hs
      exact threadSetPriority_donationInv h hs
  | setNice n => exact hok.elim
  | holdTheLock l m =>
      simp only [step] at hs
      split_ifs at hs
      cases hs
      exact holdTheLock_donationInv hst h
  | donatePriority l =>
      simp only [step] at hs
      split at hs
      · cases hs
      · rename_i x hx
        split_ifs at hs with hg
        refine threadDonatePriority_donationInv ?_ l (by simp) ?_ hs
        · refine h.congr (fun _ _ => ⟨rfl, rfl, rfl⟩) rfl fun l' => ?_
          by_cases hl' : l' = l
          · subst hl'; simp [hx]
          · simp [hl']
        · exact hg.2.2
  | removeLock l =>
      simp only [step] at hs
      split_ifs at hs
      cases hs
      exact removeLock_donationInv h l
  | exit =>
      simp only [step] at hs
      split_ifs at hs
      exact threadExit_donationInv h hok hs
  | increaseRecentCpu => simp [step, increaseRecentCpu] at hs
  | updateLoadAvg => simp [step, updateLoadAvg] at hs
  | updateRecentCpuForEach => simp [step, updateRecentCpuForEach] at hs
  | updatePriorityForEach => simp [step] at hs

/-- `thread_start` returns with no lock held and every priority at its base. -/
theorem started_donationInv (hs : Started false s) : s.DonationInv := by
  obtain ⟨p, pIdle, pInfo, h1, -, -, h⟩ := hs
  obtain ⟨-, -, -, -, -, -, -, -, hlock, -, -, -, -, -, -, -, hfree, -⟩ := threadStart_spec h1 h
  exact ⟨fun u _ => ((hfree u).2.2 rfl).ge, fun u _ _ => (hfree u).2.2 rfl,
    fun l x hx => by simp [hlock] at hx⟩

theorem reach_donationInv (hs : Reach false DonationStep s) : s.DonationInv :=
  (@Reach.invariant false DonationStep (fun s => s.StatusInv ∧ s.DonationInv)
    (fun _ h => ⟨started_statusInv h, started_donationInv h⟩)
    (fun _ _ _ h hok hst => ⟨step_statusInv h.1 hst, step_donationInv h.1 h.2 hok hst⟩) s hs).2

/-- **The base priority is a floor of the working priority, and its value when no lock is held**,
for every registered thread, at every operation boundary of every run without MLFQS that calls no
`thread_set_nice` and exits only from threads that hold no lock. -/
theorem donation_base_priority (hs : Reach false DonationStep s) :
    ∀ t ∈ s.allList, (s.tcb t).oldPriority ≤ (s.tcb t).priority ∧
      ((s.tcb t).locks = [] → (s.tcb t).priority = (s.tcb t).oldPriority) :=
  fun t ht => ⟨(reach_donationInv hs).base_le t ht, (reach_donationInv hs).base_of_free t ht⟩

/-- The initial thread takes a lock and releases it: it is back at its base priority. -/
theorem donation_base_priority_after_release :
    ∃ s, Reach false DonationStep s ∧ (s.tcb 1).locks = [] ∧
      (s.tcb 1).priority = (s.tcb 1).oldPriority := by
  obtain ⟨s, hs, hl, h1⟩ : ∃ s, Reach false DonationStep s ∧ (s.tcb 1).locks = [] ∧ 1 ∈ s.allList :=
    exists_reach_of_run false 1 2 3 (by decide) [.holdTheLock 10 0, .removeLock 10]
      (by simp [DonationStep]) (by decide)
  exact ⟨s, hs, hl, (donation_base_priority hs 1 h1).2 hl⟩

/-- The initial thread, at priority 31, takes locks 10 and 11, both with `max_priority` 0, and
creates a thread of priority 40, which runs, donates its priority through lock 10 and blocks on
it.  When the initial thread releases lock 10 it still holds lock 11, whose `max_priority` 0 does
not exceed its base 31: `thread_remove_lock` leaves the donated 40 in place. -/
theorem remove_lock_keeps_donation :
    ∃ s, Reach false DonationStep s ∧ (s.tcb 1).locks = [11] ∧ (s.lock 11).maxPriority = 0 ∧
      (s.tcb 1).oldPriority = 31 ∧ (s.tcb 1).priority = 40 :=
  exists_reach_of_run false 1 2 3 (by decide)
    [.holdTheLock 10 0, .holdTheLock 11 0, .create 40 (some 4) (some 5), .donatePriority 10,
      .semaDown, .removeLock 10]
    (by simp [DonationStep]) (by decide)

end Pintos
