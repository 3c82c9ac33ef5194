import Pintos.Vm.Frame
import Mathlib.Data.List.Rotate

/-!
**The second-chance loop of `frame_get`.**

When `palloc_get_page` finds no free page, `frame_get` runs the hand of the clock over
`frame_clock_list`: while the page of `current_frame` has been accessed, it clears the page's
accessed bit and calls `frame_swap_next`.  On a clock list whose items hold pages of distinct
owners and addresses, the loop is the second-chance policy.  The hand stops at the first item, in
cyclic order from where it stood, whose page had not been accessed, or back where it started when
every page had been; it clears the bits of exactly the items it passes; and it takes one turn per
item passed, never more than the length of the list, so the fuel `frame_get` gives it is enough.

`frame_swap_next` covers the whole cycle through its two special cases: from the back of the list
it goes to the front, and on a list of one item it stays.

Main definitions:

* `Pintos.Vm.Frames.pageOf`, `Pintos.Vm.Frames.bitOf` — the page an item holds, and its accessed
  bit;
* `Pintos.Vm.cyclicFrom` — the clock list in cyclic order from an item;
* `Pintos.Vm.Frames.passCount` — how many items the hand passes.

Main results:

* `Pintos.Vm.frameSwapNext_getElem` — `frame_swap_next` moves the hand to the next item in cyclic
  order;
* `Pintos.Vm.clock_loop_second_chance` — the loop ends after `passCount` turns, with the hand on
  the victim and the bits of the items passed cleared.
-/

set_option autoImplicit false

namespace Pintos.Vm

namespace Frames

/-- The page item `id` holds, as its owner and user address: what its accessed bit belongs to. -/
def pageOf (s : Frames) (id : ℕ) : Option (ℕ × ℕ) := (s.item? id).map fun it => (it.t, it.upage)

/-- The accessed bit of the page item `id` holds. -/
def bitOf (s : Frames) (id : ℕ) : Bool :=
  match s.item? id with
  | some it => s.accessed it.t it.upage
  | none => false

/-- The accessed bits, with those of the pages of the items `ids` cleared. -/
def clearBits (s : Frames) (ids : List ℕ) (t u : ℕ) : Bool :=
  if some (t, u) ∈ ids.map s.pageOf then false else s.accessed t u

end Frames

/-- The list `l` in cyclic order from its item `c`. -/
def cyclicFrom (l : List ℕ) (c : ℕ) : List ℕ := l.rotate (l.indexOf c)

/-- How many items the hand passes from `c`: the position, in cyclic order from `c`, of the first
item whose page has not been accessed, or the length of the list when every page has been. -/
def Frames.passCount (s : Frames) (c : ℕ) : ℕ :=
  (cyclicFrom s.clock c).findIdx fun id => !s.bitOf id

/-! ### One turn -/

/-- The `next` pointer of an item of a list without repeats, other than the last, is the item
after it. -/
theorem nextPtr_getElem : ∀ {l : List ℕ}, l.Nodup → ∀ {i : ℕ} (hi : i + 1 < l.length),
    nextPtr l l[i] = .item l[i + 1]
  | [], _, _, hi => absurd hi (by simp)
  | a :: l, _, 0, hi => by
      cases l with
      | nil => simp at hi
      | cons b l => simp [nextPtr]
  | a :: l, hnd, i + 1, hi => by
      have hi' : i + 1 < l.length := by simpa using hi
      have hne : a ≠ l[i] := fun h => (List.nodup_cons.1 hnd).1 (h ▸ List.getElem_mem _)
      simp only [List.getElem_cons_succ, nextPtr, hne, if_false]
      exact nextPtr_getElem (List.nodup_cons.1 hnd).2 hi'

/-- **`frame_swap_next` moves the hand to the next item in cyclic order**, on a list without
repeats: to the item after it, to the front from the back, and nowhere on a list of one item. -/
theorem frameSwapNext_getElem (x : Frames) (hnd : x.clock.Nodup) {i : ℕ}
    (hi : i < x.clock.length) (hc : x.current = .item x.clock[i]) :
    frameSwapNext x (nextPtr x.clock x.clock[i]) = some { x with
      current := .item (x.clock.get ⟨(i + 1) % x.clock.length, Nat.mod_lt _ (by omega)⟩) } := by
  obtain ⟨table, l, cur, acc, lk⟩ := x
  dsimp only at hnd hi hc ⊢
  subst hc
  match l, hnd, hi with
  | [], _, hi => exact absurd hi (by simp)
  | [a], _, hi =>
      obtain rfl : i = 0 := by simpa using hi
      simp [frameSwapNext]
  | a :: b :: rest, hnd, hi =>
      have hlast : (a :: b :: rest).getLast? = some (a :: b :: rest)[rest.length + 1] := by
        rw [List.getLast?_eq_getElem?]; simp
      by_cases hback : i = rest.length + 1
      · subst hback
        simp [frameSwapNext, hlast]
      · have hlt : i + 1 < rest.length + 2 := by simp at hi; omega
        have hne : (a :: b :: rest)[i] ≠ (b :: rest)[rest.length] := fun h => by
          have h' : (a :: b :: rest)[i] = (a :: b :: rest)[rest.length + 1] := h
          exact hback (hnd.getElem_inj_iff.1 h')
        rw [nextPtr_getElem hnd hlt]
        simp [frameSwapNext, hlast, hne, Nat.mod_eq_of_lt hlt]

/-- One turn of the loop on an item whose page has been accessed: the bit is cleared, and the hand
moves to the next item in cyclic order. -/
theorem clockLoop_succ_of_accessed (x : Frames) (hnd : x.clock.Nodup) {i : ℕ}
    (hi : i < x.clock.length) (hc : x.current = .item x.clock[i]) {it : FrameItem}
    (hit : x.item? x.clock[i] = some it) (hb : x.accessed it.t it.upage = true) (fuel : ℕ) :
    clockLoop (fuel + 1) x = clockLoop fuel { x with
      current := .item (x.clock.get ⟨(i + 1) % x.clock.length, Nat.mod_lt _ (by omega)⟩)
      accessed := fun t u => if t = it.t ∧ u = it.upage then false else x.accessed t u } := by
  have hs := frameSwapNext_getElem { x with
    accessed := fun t u => if t = it.t ∧ u = it.upage then false else x.accessed t u } hnd hi hc
  dsimp only at hs
  rw [hc] at hs
  simp only [clockLoop, hc, hit, hb, if_true]
  rw [hs, Option.some_bind]

/-- The loop stops on an item whose page has not been accessed. -/
theorem clockLoop_succ_of_not_accessed (x : Frames) {id : ℕ} (hc : x.current = .item id)
    {it : FrameItem} (hit : x.item? id = some it) (hb : x.accessed it.t it.upage = false)
    (fuel : ℕ) : clockLoop (fuel + 1) x = some x := by
  simp [clockLoop, hc, hit, hb]

/-! ### The whole loop -/

/-- Position `j` of the cyclic order from `c`, where position `length` is `c` again. -/
theorem cyclicFrom_getD {l : List ℕ} {c : ℕ} (hcm : c ∈ l) {j : ℕ} (hj : j ≤ l.length) :
    (cyclicFrom l c).getD j c =
      l.get ⟨(j + l.indexOf c) % l.length, Nat.mod_lt _ (List.length_pos_of_mem hcm)⟩ := by
  have hp := List.indexOf_lt_length.2 hcm
  rcases hj.lt_or_eq with hj | rfl
  · have hj' : j < (cyclicFrom l c).length := by rwa [cyclicFrom, List.length_rotate]
    simp only [List.getD_eq_getElem?_getD, List.getElem?_eq_getElem hj', Option.getD_some]
    exact List.getElem_rotate _ _ _ _
  · have hlen : (cyclicFrom l c).length = l.length := List.length_rotate _ _
    rw [List.getD_eq_getElem?_getD, List.getElem?_eq_none (by rw [hlen]), Option.getD_none]
    simp only [Nat.add_mod_left, Nat.mod_eq_of_lt hp]
    exact (List.getElem_indexOf hp).symm

namespace Frames

variable {s : Frames}

/-- Clearing one more item. -/
theorem clearBits_take_succ (s : Frames) {L : List ℕ} {j : ℕ} (hj : j < L.length) {it : FrameItem}
    (hit : s.item? L[j] = some it) :
    s.clearBits (L.take (j + 1)) =
      fun t u => if t = it.t ∧ u = it.upage then false else s.clearBits (L.take j) t u := by
  funext t u
  by_cases h : t = it.t ∧ u = it.upage
  · obtain ⟨rfl, rfl⟩ := h
    have hpj : s.pageOf L[j] = some (it.t, it.upage) := by simp [pageOf, hit]
    rw [if_pos ⟨rfl, rfl⟩]
    exact if_pos (List.mem_map.2 ⟨L[j], List.mem_take_iff_getElem.2 ⟨j, by simp; omega, rfl⟩, hpj⟩)
  · have : some (t, u) ≠ s.pageOf L[j] := by
      simp only [pageOf, hit, Option.map_some', ne_eq, Option.some.injEq, Prod.mk.injEq]
      exact h
    simp only [clearBits, List.take_succ, List.getElem?_eq_getElem hj, Option.toList_some,
      List.map_append, List.mem_append, List.map_cons, List.map_nil, List.mem_singleton, this,
      or_false, if_neg h]

/-- An item's bit survives clearing the items before it, when the items of the clock hold distinct
pages. -/
theorem clearBits_take_getElem (hpages : (s.clock.map s.pageOf).Nodup) {L : List ℕ} (hL : L.Nodup)
    (hsub : L ⊆ s.clock) {j : ℕ} (hj : j < L.length) {it : FrameItem}
    (hit : s.item? L[j] = some it) :
    s.clearBits (L.take j) it.t it.upage = s.accessed it.t it.upage := by
  refine if_neg fun hm => ?_
  obtain ⟨id, hid, hpg⟩ := List.mem_map.1 hm
  obtain ⟨i, hi, rfl⟩ := List.mem_take_iff_getElem.1 hid
  have hpj : s.pageOf L[j] = some (it.t, it.upage) := by simp [pageOf, hit]
  have heq : L[i] = L[j] := List.inj_on_of_nodup_map hpages (hsub (List.getElem_mem _))
    (hsub (List.getElem_mem _)) (hpg.trans hpj.symm)
  have := hL.getElem_inj_iff.1 heq
  simp only [lt_inf_iff] at hi
  omega

end Frames

/-- The state after `j` turns of the loop from item `c`: the hand at position `j` of the cyclic
order from `c`, and the bits of the items before it cleared. -/
def Frames.turned (s : Frames) (c j : ℕ) : Frames :=
  { s with
    current := .item ((cyclicFrom s.clock c).getD j c)
    accessed := s.clearBits ((cyclicFrom s.clock c).take j) }

section Turns

variable {s : Frames} {c : ℕ}

theorem passCount_le_length : s.passCount c ≤ s.clock.length :=
  (List.length_rotate s.clock _) ▸ List.findIdx_le_length _

theorem turned_zero (hc : s.current = .item c) (hcm : c ∈ s.clock) : s.turned c 0 = s := by
  have hacc : s.clearBits ((cyclicFrom s.clock c).take 0) = s.accessed := by
    funext t u; simp [Frames.clearBits]
  have hget : (cyclicFrom s.clock c).getD 0 c = c := by
    rw [cyclicFrom_getD hcm (Nat.zero_le _)]
    simp only [Nat.zero_add, Nat.mod_eq_of_lt (List.indexOf_lt_length.2 hcm), List.get_eq_getElem,
      List.getElem_indexOf]
  simp only [Frames.turned, hget, hacc, ← hc]

variable (hnd : s.clock.Nodup) (hlive : ∀ id ∈ s.clock, (s.item? id).isSome)
  (hpages : (s.clock.map s.pageOf).Nodup) (hcm : c ∈ s.clock)
include hnd hlive hpages hcm

/-- A turn on an item before the victim: its page had been accessed, so the loop clears the bit
and moves the hand on. -/
theorem clockLoop_turned_succ {j : ℕ} (hj : j < s.passCount c) (fuel : ℕ) :
    clockLoop (fuel + 1) (s.turned c j) = clockLoop fuel (s.turned c (j + 1)) := by
  have hn : 0 < s.clock.length := List.length_pos_of_mem hcm
  have hjL : j < (cyclicFrom s.clock c).length := lt_of_lt_of_le hj (List.findIdx_le_length _)
  have hjn : j + 1 ≤ s.clock.length := by rw [cyclicFrom, List.length_rotate] at hjL; omega
  obtain ⟨it, hit⟩ :=
    Option.isSome_iff_exists.1 (hlive _ (List.mem_rotate.1 (List.getElem_mem hjL)))
  have hb : (s.turned c j).accessed it.t it.upage = true :=
    (Frames.clearBits_take_getElem hpages (List.nodup_rotate.2 hnd)
      (fun _ h => List.mem_rotate.1 h) hjL hit).trans
      (by simpa [Frames.bitOf, hit] using List.not_of_lt_findIdx hj)
  have hLj : (cyclicFrom s.clock c)[j] =
      s.clock.get ⟨(j + s.clock.indexOf c) % s.clock.length, Nat.mod_lt _ hn⟩ :=
    List.getElem_rotate _ _ _ _
  have hcur : (s.turned c j).current = .item (cyclicFrom s.clock c)[j] := by
    simp [Frames.turned, hjL]
  rw [hLj] at hcur hit
  rw [clockLoop_succ_of_accessed (s.turned c j) hnd (Nat.mod_lt _ hn) hcur hit hb]
  rw [← hLj] at hit
  have hnext : ((j + s.clock.indexOf c) % s.clock.length + 1) % s.clock.length =
      (j + 1 + s.clock.indexOf c) % s.clock.length := by
    rw [Nat.mod_add_mod, Nat.add_right_comm]
  unfold Frames.turned
  congr 2
  · simp only [cyclicFrom_getD hcm hjn, hnext]
  · exact (Frames.clearBits_take_succ s hjL hit).symm

/-- The turn on the victim: its page had not been accessed, or it is `c` again and its bit has just
been cleared, so the loop ends there. -/
theorem clockLoop_turned_passCount (fuel : ℕ) :
    clockLoop (fuel + 1) (s.turned c (s.passCount c)) = some (s.turned c (s.passCount c)) := by
  rcases (passCount_le_length (s := s) (c := c)).lt_or_eq with hlt | heq
  · have hmL : s.passCount c < (cyclicFrom s.clock c).length := by
      rwa [cyclicFrom, List.length_rotate]
    obtain ⟨it, hit⟩ :=
      Option.isSome_iff_exists.1 (hlive _ (List.mem_rotate.1 (List.getElem_mem hmL)))
    have hbit : s.bitOf (cyclicFrom s.clock c)[s.passCount c] = false := by
      simpa using @List.findIdx_getElem _ _ _ hmL
    have hcur : (s.turned c (s.passCount c)).current =
        .item (cyclicFrom s.clock c)[s.passCount c] := by
      simp [Frames.turned, hmL]
    refine clockLoop_succ_of_not_accessed _ hcur hit ?_ fuel
    exact (Frames.clearBits_take_getElem hpages (List.nodup_rotate.2 hnd)
      (fun _ h => List.mem_rotate.1 h) hmL hit).trans (by simpa [Frames.bitOf, hit] using hbit)
  · have hlen : (cyclicFrom s.clock c).length = s.passCount c := by
      rw [cyclicFrom, List.length_rotate, heq]
    obtain ⟨it, hit⟩ := Option.isSome_iff_exists.1 (hlive c hcm)
    have hcur : (s.turned c (s.passCount c)).current = .item c := by
      simp [Frames.turned, ← hlen]
    refine clockLoop_succ_of_not_accessed _ hcur hit ?_ fuel
    refine if_pos (List.mem_map.2 ⟨c, ?_, by simp [Frames.pageOf, hit]⟩)
    rw [← hlen, List.take_length]
    exact List.mem_rotate.2 hcm

/-- The turns left from position `j`: with more fuel than turns left the loop ends at the victim;
with no more, it runs out. -/
theorem clockLoop_turned : ∀ k j, j + k = s.passCount c →
    (∀ fuel, clockLoop (fuel + k + 1) (s.turned c j) = some (s.turned c (s.passCount c))) ∧
      ∀ fuel, fuel ≤ k → clockLoop fuel (s.turned c j) = none
  | 0, j, hj => by
      subst hj
      exact ⟨clockLoop_turned_passCount hnd hlive hpages hcm,
        fun fuel hf => by rw [Nat.le_zero.1 hf]; rfl⟩
  | k + 1, j, hj => by
      obtain ⟨ih₁, ih₂⟩ := clockLoop_turned k (j + 1) (by omega)
      have hturn := clockLoop_turned_succ hnd hlive hpages hcm (j := j) (by omega)
      refine ⟨fun fuel => ?_, fun fuel hf => ?_⟩
      · rw [show fuel + (k + 1) + 1 = fuel + k + 1 + 1 by omega, hturn]
        exact ih₁ fuel
      · cases fuel with
        | zero => rfl
        | succ f => rw [hturn]; exact ih₂ f (by omega)

end Turns

/-- **The second-chance loop.**  On a clock list without repeats, whose items are live and hold
pages of distinct owners and addresses, with the hand on one of its items `c`: the loop takes
`passCount` turns, at most the length of the list; it stops at the first item in cyclic order
from `c` whose page had not been accessed, or at `c` when every page had been; and it clears the
accessed bits of exactly the items it passed.  With fewer turns of fuel it does not finish. -/
theorem clock_loop_second_chance {s : Frames} {c : ℕ} (hnd : s.clock.Nodup)
    (hlive : ∀ id ∈ s.clock, (s.item? id).isSome) (hpages : (s.clock.map s.pageOf).Nodup)
    (hc : s.current = .item c) (hcm : c ∈ s.clock) :
    s.passCount c ≤ s.clock.length ∧
      (∀ fuel, s.passCount c < fuel → clockLoop fuel s = some { s with
        current := .item ((cyclicFrom s.clock c).getD (s.passCount c) c)
        accessed := s.clearBits ((cyclicFrom s.clock c).take (s.passCount c)) }) ∧
      ∀ fuel, fuel ≤ s.passCount c → clockLoop fuel s = none := by
  obtain ⟨h₁, h₂⟩ := clockLoop_turned hnd hlive hpages hcm (s.passCount c) 0 (Nat.zero_add _)
  rw [turned_zero hc hcm] at h₁ h₂
  refine ⟨passCount_le_length, fun fuel hf => ?_, h₂⟩
  obtain ⟨f, rfl⟩ : ∃ f, fuel = f + s.passCount c + 1 := ⟨fuel - s.passCount c - 1, by omega⟩
  exact h₁ f

/-- Three items, the hand on item 1, the pages of items 1 and 2 accessed and that of item 0 not:
the loop passes items 1 and 2, clearing their bits, and stops at item 0 after two turns. -/
theorem clock_loop_second_chance_example : ∃ s : Frames,
    s.clock = [0, 1, 2] ∧ s.current = .item 1 ∧ s.passCount 1 = 2 ∧
      (cyclicFrom s.clock 1).getD 2 1 = 0 ∧ s.passCount 1 ≤ s.clock.length ∧
      (∀ fuel, s.passCount 1 < fuel → clockLoop fuel s = some { s with
        current := .item ((cyclicFrom s.clock 1).getD (s.passCount 1) 1)
        accessed := s.clearBits ((cyclicFrom s.clock 1).take (s.passCount 1)) }) ∧
      ∀ fuel, fuel ≤ s.passCount 1 → clockLoop fuel s = none :=
  let s : Frames := ⟨[⟨0, 100, 0, 7, false⟩, ⟨1, 101, 1, 8, false⟩, ⟨2, 102, 2, 8, false⟩],
    [0, 1, 2], .item 1, fun t _ => t == 8, false⟩
  ⟨s, rfl, rfl, by decide, by decide,
    clock_loop_second_chance (by decide) (by decide) (by decide) rfl (by decide)⟩

end Pintos.Vm
