import Mathlib.Data.List.Nodup

/-!
**The frame table and the clock hand of `vm/frame.c`.**

`frame.c` keeps a `frame_item` for every user frame it has handed out, in the hash table
`frame_table` keyed by the frame's address.  A frame that `frame_set_unswapable` has marked goes
on `frame_clock_list`, and `current_frame` is the hand of a second-chance clock over that list:
when `palloc_get_page` finds no free page, `frame_get` advances the hand past every frame whose
page has been accessed since the hand last passed it, and evicts the frame the hand stops at.

`frame_swap_next` moves the hand one element on, wrapping at the back of the list, and does
nothing on a list of one element.  `frame_free` and the eviction in `frame_get` move the hand off
the frame they remove with it; on a list of one element the hand stays where it was, on the item
being freed.

An item is named by the address `malloc` returned for it.  `malloc` hands out memory that no live
item occupies, and may hand out the address of an item freed before: the one the hand was left on,
or the victim `frame_get` has just freed.  The hand may then point at a live item that is not on
the clock list.  Evicting such an item runs `list_remove` on a list element that was never put on
the list: a fault of the model, as is reading a freed item.

Main definitions:

* `Pintos.Vm.frameGetFrame`, `Pintos.Vm.frameGet`, `Pintos.Vm.frameFree`,
  `Pintos.Vm.frameSetUnswapable`, `Pintos.Vm.frameSwapNext`, `Pintos.Vm.clockLoop` — the
  functions of `frame.c`;
* `Pintos.Vm.FrameReach` — the states reachable from `frame_init`;
* `Pintos.Vm.Frames.ClockInv` — the clock list and the frame table agree.

Main results:

* `Pintos.Vm.FrameReach.clockInv` — **`frame_clock_list` holds exactly the items of
  `frame_table` whose `swapable` flag is false, each once, no two items share an address, and the
  hand is `NULL` only when the list is empty**, in every reachable state, whatever addresses
  `malloc` reuses;
* `Pintos.Vm.clockInv_after_reuse` — a reachable state whose hand is on a live item that
  `malloc` placed at a freed item's address, off the clock list;
* `Pintos.Vm.frame_free_keeps_hand` — a reachable state with an empty clock list and a hand that
  is not `NULL`;
* `Pintos.Vm.frameGetFrame_spec`, `Pintos.Vm.frameGet_lockHeld` — what `frame_get` does before
  its `malloc`, and that every return of it releases `all_lock` but one;
* `Pintos.Vm.frameGet_table` — what `frame_get` does to `frame_table` on each of its paths;
* `Pintos.Vm.frames_held_once` — **no frame is held by two items of `frame_table`**, in every
  reachable state, and the frame `frame_get` returns, a free page or an evicted one, is held by the
  caller's new item alone.
-/

set_option autoImplicit false

namespace Pintos.Vm

/-- `struct frame_item`: a user frame, the page it holds for its thread, and whether it is off the
clock.  `id` is the address `malloc` returned for the item, which may be that of an item freed
before. -/
structure FrameItem where
  id : ℕ
  frame : ℕ
  upage : ℕ
  t : ℕ
  swapable : Bool
  deriving DecidableEq, Repr

/-- What `current_frame` points at: nothing, a `frame_item` (which may since have been freed), or
the tail sentinel of `frame_clock_list`, which `list_entry` turns into a pointer to no item. -/
inductive Cursor
  | null
  | item (id : ℕ)
  | tail
  deriving DecidableEq, Repr

/-- The state of `frame.c`: `frame_table`, `frame_clock_list` (by item address, front first),
`current_frame`, the accessed bits of the page directories (by thread and user page), and whether
`all_lock` is held. -/
structure Frames where
  table : List FrameItem
  clock : List ℕ
  current : Cursor
  accessed : ℕ → ℕ → Bool
  lockHeld : Bool

namespace Frames

/-- The item at address `id`, if it has not been freed. -/
def item? (s : Frames) (id : ℕ) : Option FrameItem := s.table.find? fun it => it.id = id

/-- `frame_get_item (frame)`: the item of `frame_table` for that frame. -/
def getItem (s : Frames) (frame : ℕ) : Option FrameItem := s.table.find? fun it => it.frame = frame

/-- The end of `frame_get`: a new item for `frame` at the address `addr` that `malloc` returned,
swapable and owned by thread `cur`, enters `frame_table`, and `all_lock` is released. -/
def insert (s : Frames) (addr cur upage frame : ℕ) : Frames :=
  { s with
    table := s.table ++ [⟨addr, frame, upage, cur, true⟩]
    lockHeld := false }

end Frames

/-- `frame_init ()`, with the page directories' accessed bits as they are. -/
def frameInit (accessed : ℕ → ℕ → Bool) : Frames := ⟨[], [], .null, accessed, false⟩

/-- The `next` pointer of the list element of item `id` in the list `l`: the item after it, or the
tail sentinel. -/
def nextPtr : List ℕ → ℕ → Cursor
  | [], _ => .tail
  | a :: l, id =>
      if a = id then (match l with
        | [] => .tail
        | n :: _ => .item n)
      else nextPtr l id

/-- `frame_swap_next ()`, where `next` is what the `next` pointer of `current_frame`'s list
element points at: nothing on a list of one element, the front of the list from its back, and
`next` otherwise.  `list_back` of an empty list fails its assertion. -/
def frameSwapNext (s : Frames) (next : Cursor) : Option Frames :=
  if s.current = .null then none
  else match s.clock with
    | [] => none
    | f :: rest =>
        if rest = [] then some s
        else if some s.current = (f :: rest).getLast?.map Cursor.item then
          some { s with current := .item f }
        else some { s with current := next }

/-- The second-chance loop of `frame_get`: while the page of `current_frame` has been accessed,
clear its accessed bit and advance the hand.  Reading a freed item or the tail sentinel as an item
is a fault.  `fuel` bounds the number of turns. -/
def clockLoop : ℕ → Frames → Option Frames
  | 0, _ => none
  | fuel + 1, s =>
      match s.current with
      | .item id =>
          match s.item? id with
          | some it =>
              if s.accessed it.t it.upage then
                (frameSwapNext { s with accessed := fun t u =>
                    if t = it.t ∧ u = it.upage then false else s.accessed t u }
                  (nextPtr s.clock id)).bind (clockLoop fuel)
              else some s
          | none => none
      | _ => none

/-- `frame_get (flag, upage)` up to its `malloc`, where `palloc` is what `palloc_get_page`
returns.  With no free page a frame is evicted: `toSwap` says whether the victim's page goes to
swap, `swapFull` whether `swap_store` then returns `(index_t) -1`, and `palAssert` whether `flag`
has `PAL_ASSERT`.  The state and the frame obtained, or `NULL` with `all_lock` still held.
`list_remove` of a victim that was never put on `frame_clock_list` reads its uninitialised list
element: a fault. -/
def frameGetFrame (s : Frames) (palloc : Option ℕ) (toSwap swapFull palAssert : Bool) :
    Option (Frames × Option ℕ) :=
  if s.lockHeld then none
  else
    let s0 := { s with lockHeld := true }
    match palloc with
    | some frame => some (s0, some frame)
    | none =>
        if s0.current = .null then none
        else (clockLoop (s0.clock.length + 1) s0).bind fun s1 =>
          match s1.current with
          | .item id =>
              match s1.item? id with
              | some victim =>
                  if toSwap ∧ swapFull then some (s1, none)
                  else if id ∉ s1.clock then none
                  else
                    let s2 := { s1 with clock := s1.clock.erase id }
                    let s3 := if s2.clock = [] then some { s2 with current := .null }
                      else frameSwapNext s2 (nextPtr s1.clock id)
                    s3.bind fun s3 =>
                      if palAssert then none
                      else some ({ s3 with table := s3.table.filter fun it => it.id ≠ id },
                        some victim.frame)
              | none => none
          | _ => none

/-- `frame_get (flag, upage)` run by thread `cur`: the frame `frameGetFrame` obtains goes to a new
item at the address `addr` that `malloc` returns.  The frame returned, or `NULL`. -/
def frameGet (s : Frames) (cur upage : ℕ) (palloc : Option ℕ) (toSwap swapFull palAssert : Bool)
    (addr : ℕ) : Option (Frames × Option ℕ) :=
  (frameGetFrame s palloc toSwap swapFull palAssert).map fun r =>
    match r.2 with
    | some frame => (r.1.insert addr cur upage frame, some frame)
    | none => r

/-- `frame_free (frame)`: an item on the clock first moves the hand off itself if the hand is on
it, and leaves the list; then it leaves `frame_table`.  Freeing a frame with no item panics. -/
def frameFree (s : Frames) (frame : ℕ) : Option Frames :=
  if s.lockHeld then none
  else match s.getItem frame with
    | none => none
    | some t =>
        let s1 := if t.swapable then some s
          else
            let s0 := if s.current = .item t.id then
                (if s.clock = [] then some { s with current := .null }
                  else frameSwapNext s (nextPtr s.clock t.id))
              else some s
            s0.map fun s0 => { s0 with clock := s0.clock.erase t.id }
        s1.map fun s1 => { s1 with table := s1.table.filter fun it => it.id ≠ t.id }

/-- `frame_set_unswapable (frame)`: the item goes to the back of the clock list, and the hand is
set on it when it is the only one. -/
def frameSetUnswapable (s : Frames) (frame : ℕ) : Option (Frames × Bool) :=
  if s.lockHeld then none
  else match s.getItem frame with
    | none => some (s, false)
    | some t =>
        if t.swapable = false then some (s, true)
        else
          let s1 := { s with
            table := s.table.map fun x => if x.id = t.id then { x with swapable := false } else x
            clock := s.clock ++ [t.id] }
          some (if s1.clock.length = 1 then { s1 with current := .item t.id } else s1, true)

/-! ### Runs -/

/-- What happens to the frame table: the three calls of `frame.c`, and the processor setting the
accessed bit of a page. -/
inductive FrameOp
  | get (cur upage : ℕ) (palloc : Option ℕ) (toSwap swapFull palAssert : Bool) (addr : ℕ)
  | free (frame : ℕ)
  | setUnswapable (frame : ℕ)
  | touch (t upage : ℕ)

/-- One operation.  `palloc_get_page` returns a page that is not in use, and `malloc` memory that
no item of the table occupies when `frame_get` calls it, which may be a freed item's. -/
def frameStep (s : Frames) : FrameOp → Option Frames
  | .get cur upage palloc toSwap swapFull palAssert addr =>
      if (palloc.all fun f => f ∉ s.table.map FrameItem.frame) ∧
          (frameGetFrame s palloc toSwap swapFull palAssert).all
            fun r => addr ∉ r.1.table.map FrameItem.id then
        (frameGet s cur upage palloc toSwap swapFull palAssert addr).map Prod.fst
      else none
  | .free frame => frameFree s frame
  | .setUnswapable frame => (frameSetUnswapable s frame).map Prod.fst
  | .touch t upage =>
      some { s with accessed := fun t' u => if t' = t ∧ u = upage then true else s.accessed t' u }

/-- The states reachable from `frame_init`. -/
inductive FrameReach : Frames → Prop
  | init (accessed : ℕ → ℕ → Bool) : FrameReach (frameInit accessed)
  | step {s s' : Frames} {op : FrameOp} : FrameReach s → frameStep s op = some s' → FrameReach s'

/-- A sequence of operations. -/
def frameRun (s : Frames) : List FrameOp → Option Frames
  | [] => some s
  | op :: ops => (frameStep s op).bind fun s' => frameRun s' ops

theorem FrameReach.run : ∀ {s s' : Frames} {ops : List FrameOp}, FrameReach s →
    frameRun s ops = some s' → FrameReach s'
  | _, _, [], hs, h => by cases h; exact hs
  | s, _, op :: ops, hs, h => by
      obtain ⟨s₁, h₁, h₂⟩ := Option.bind_eq_some.1 h
      exact FrameReach.run (hs.step h₁) h₂

/-! ### The clock list and the frame table -/

variable {s s' : Frames}

namespace Frames

/-- `frame_clock_list` holds, each once, exactly the items of `frame_table` that are off the
swapable pool; item addresses are distinct; and the hand is `NULL` only when the list is empty. -/
structure ClockInv (s : Frames) : Prop where
  clock_nodup : s.clock.Nodup
  clock_iff : ∀ id, id ∈ s.clock ↔ ∃ it ∈ s.table, it.id = id ∧ it.swapable = false
  ids_nodup : (s.table.map FrameItem.id).Nodup
  null_hand : s.current = .null → s.clock = []

theorem getItem_eq_some {frame : ℕ} {it : FrameItem} (h : s.getItem frame = some it) :
    it ∈ s.table := List.mem_of_find?_eq_some h

/-- An item that is not off the pool is not on the clock. -/
theorem ClockInv.not_mem_of_swapable (h : s.ClockInv) {t : FrameItem} (ht : t ∈ s.table)
    (hsw : t.swapable = true) : t.id ∉ s.clock := fun hm => by
  obtain ⟨it, hit, hid, hsw'⟩ := (h.clock_iff t.id).1 hm
  rw [List.inj_on_of_nodup_map h.ids_nodup hit ht hid, hsw] at hsw'
  cases hsw'

end Frames

open Frames

/-- The item after `id` in a list is in the list. -/
theorem nextPtr_mem : ∀ {l : List ℕ} {id n : ℕ}, nextPtr l id = .item n → n ∈ l
  | [], _, _, h => by cases h
  | a :: l, id, n, h => by
      simp only [nextPtr] at h
      split_ifs at h
      · cases l with
        | nil => cases h
        | cons m rest => cases h; simp
      · exact List.mem_cons_of_mem a (nextPtr_mem h)

theorem nextPtr_ne_null : ∀ (l : List ℕ) (id : ℕ), nextPtr l id ≠ .null
  | [], _ => by simp [nextPtr]
  | a :: l, id => by
      simp only [nextPtr]
      split_ifs
      · cases l <;> simp
      · exact nextPtr_ne_null l id

/-- `frame_swap_next` moves only the hand: it stays, goes to the front of the list, or follows the
`next` pointer. -/
theorem frameSwapNext_eq_some {next : Cursor} (h : frameSwapNext s next = some s') :
    s' = { s with current := s'.current } ∧
      (s'.current = s.current ∨ (∃ f ∈ s.clock, s'.current = .item f) ∨ s'.current = next) := by
  unfold frameSwapNext at h
  split_ifs at h
  split at h
  · cases h
  · rename_i f rest hcl
    split_ifs at h <;> cases h
    · exact ⟨rfl, .inl rfl⟩
    · exact ⟨rfl, .inr (.inl ⟨f, by simp [hcl], rfl⟩)⟩
    · exact ⟨rfl, .inr (.inr rfl)⟩

/-- `frame_swap_next` asserts the hand is not `NULL`, and does not make it `NULL` when the `next`
pointer is not. -/
theorem frameSwapNext_current_ne_null {next : Cursor} (h : frameSwapNext s next = some s')
    (hn : next ≠ .null) : s'.current ≠ .null := by
  have hs : s.current ≠ .null := fun he => by simp [frameSwapNext, he] at h
  rcases (frameSwapNext_eq_some h).2 with he | ⟨f, -, he⟩ | he <;> rw [he]
  · exact hs
  · exact Cursor.noConfusion
  · exact hn

namespace Frames

theorem clockInv_frameInit (accessed : ℕ → ℕ → Bool) : (frameInit accessed).ClockInv :=
  ⟨List.nodup_nil, by simp [frameInit], List.nodup_nil, fun _ => rfl⟩

/-- Moving only the hand, and not onto `NULL`. -/
theorem ClockInv.moveHand (h : s.ClockInv) (ht : s'.table = s.table) (hc : s'.clock = s.clock)
    (hcur : s'.current = .null → s.current = .null) : s'.ClockInv :=
  ⟨hc ▸ h.clock_nodup, by rw [hc, ht]; exact h.clock_iff, ht ▸ h.ids_nodup,
    fun hn => hc ▸ h.null_hand (hcur hn)⟩

/-- A live item leaves the table and the clock list, and the hand moves as `frame_free` and the
eviction move it: onto `NULL` only when the list is left empty. -/
theorem ClockInv.remove (h : s.ClockInv) (id : ℕ)
    (ht : s'.table = s.table.filter fun it => it.id ≠ id) (hc : s'.clock = s.clock.erase id)
    (hcur : s'.current = .null → s.current = .null ∨ s'.clock = []) : s'.ClockInv := by
  refine ⟨hc ▸ h.clock_nodup.erase id, fun x => ?_, ?_, fun hn => ?_⟩
  · rw [hc, h.clock_nodup.mem_erase_iff, h.clock_iff, ht]
    constructor
    · rintro ⟨hne, it, hit, rfl, hsw⟩
      exact ⟨it, List.mem_filter.2 ⟨hit, by simpa using hne⟩, rfl, hsw⟩
    · rintro ⟨it, hit, rfl, hsw⟩
      rw [List.mem_filter] at hit
      exact ⟨by simpa using hit.2, it, hit.1, rfl, hsw⟩
  · rw [ht]; exact h.ids_nodup.sublist ((List.filter_sublist _).map _)
  · rcases hcur hn with h₀ | h₀
    · rw [hc, h.null_hand h₀]; rfl
    · exact h₀

/-- The end of `frame_get`: a new, swapable item, at an address no item of the table holds. -/
theorem ClockInv.insert (h : s.ClockInv) {addr : ℕ} (hfresh : addr ∉ s.table.map FrameItem.id)
    (cur upage frame : ℕ) : (s.insert addr cur upage frame).ClockInv := by
  refine ⟨h.clock_nodup, fun x => ?_, ?_, h.null_hand⟩
  · simp only [Frames.insert, List.mem_append, List.mem_singleton]
    rw [h.clock_iff]
    constructor
    · rintro ⟨it, hit, hx, hsw⟩; exact ⟨it, .inl hit, hx, hsw⟩
    · rintro ⟨it, hit | rfl, hx, hsw⟩
      · exact ⟨it, hit, hx, hsw⟩
      · cases hsw
  · simpa [Frames.insert] using List.nodup_append.2
      ⟨h.ids_nodup, List.nodup_singleton _, List.disjoint_singleton.2 hfresh⟩

/-- `frame_set_unswapable`: a swapable item comes off the pool and goes to the back of the clock
list, and the hand, on it or where it was, is not `NULL`. -/
theorem ClockInv.mark (h : s.ClockInv) {t : FrameItem} (ht : t ∈ s.table)
    (hnot : t.id ∉ s.clock)
    (htab : s'.table = s.table.map fun x => if x.id = t.id then { x with swapable := false } else x)
    (hc : s'.clock = s.clock ++ [t.id]) (hcur : s'.current ≠ .null) : s'.ClockInv := by
  have hids : s'.table.map FrameItem.id = s.table.map FrameItem.id := by
    rw [htab, List.map_map]
    exact List.map_congr_left fun x _ => by dsimp only [Function.comp]; split_ifs <;> rfl
  refine ⟨hc ▸ h.clock_nodup.append (List.nodup_singleton _) (List.disjoint_singleton.2 hnot),
    fun x => ?_, hids ▸ h.ids_nodup, fun hn => absurd hn hcur⟩
  rw [hc, List.mem_append, List.mem_singleton, h.clock_iff, htab]
  constructor
  · rintro (⟨it, hit, rfl, hsw⟩ | rfl)
    · refine ⟨_, List.mem_map_of_mem _ hit, ?_⟩
      by_cases hx : it.id = t.id <;> simp [hx, hsw]
    · exact ⟨_, List.mem_map_of_mem _ ht, by simp⟩
  · rintro ⟨it, hit, rfl, hsw⟩
    obtain ⟨a, ha, rfl⟩ := List.mem_map.1 hit
    by_cases hat : a.id = t.id
    · exact .inr (by simp [hat])
    · simp only [hat, if_false] at hsw ⊢
      exact .inl ⟨a, ha, rfl, hsw⟩

end Frames

open Frames

/-- The second-chance loop keeps the agreement: it moves only the hand and the accessed bits, and
never onto `NULL`. -/
theorem clockLoop_clockInv : ∀ (fuel : ℕ) {s s' : Frames}, s.ClockInv →
    clockLoop fuel s = some s' → s'.ClockInv
  | 0, _, _, _, hl => by cases hl
  | fuel + 1, s, s', h, hl => by
      simp only [clockLoop] at hl
      split at hl
      · rename_i id _
        split at hl
        · split_ifs at hl
          · obtain ⟨s₁, hs, hl⟩ := Option.bind_eq_some.1 hl
            have he := (frameSwapNext_eq_some hs).1
            exact clockLoop_clockInv fuel (h.moveHand (by rw [he]) (by rw [he])
              fun hn => absurd hn (frameSwapNext_current_ne_null hs (nextPtr_ne_null _ _))) hl
          · cases hl; exact h
        · cases hl
      · cases hl

/-- `frame_get` up to its `malloc` keeps the clock list and the frame table in agreement, on every
path. -/
theorem frameGetFrame_clockInv {palloc : Option ℕ} {toSwap swapFull palAssert : Bool}
    {r : Option ℕ} (h : s.ClockInv)
    (hg : frameGetFrame s palloc toSwap swapFull palAssert = some (s', r)) : s'.ClockInv := by
  have h₀ : ({ s with lockHeld := true } : Frames).ClockInv := h.moveHand rfl rfl id
  unfold frameGetFrame at hg
  by_cases hlk : s.lockHeld
  · rw [if_pos hlk] at hg; cases hg
  rw [if_neg hlk] at hg
  dsimp only at hg
  cases palloc with
  | some frame => cases hg; exact h₀
  | none =>
  by_cases hnull : s.current = .null
  · rw [if_pos hnull] at hg; cases hg
  rw [if_neg hnull] at hg
  obtain ⟨s₁, hl, hg⟩ := Option.bind_eq_some.1 hg
  have h₁ := clockLoop_clockInv _ h₀ hl
  split at hg
  on_goal 2 => cases hg
  rename_i id _
  split at hg
  on_goal 2 => cases hg
  by_cases hts : toSwap ∧ swapFull
  · rw [if_pos hts] at hg; cases hg; exact h₁
  rw [if_neg hts] at hg
  by_cases hm : id ∉ s₁.clock
  · rw [if_pos hm] at hg; cases hg
  rw [if_neg hm] at hg
  obtain ⟨s₃, h₃, hg⟩ := Option.bind_eq_some.1 hg
  by_cases hpa : palAssert
  · rw [if_pos hpa] at hg; cases hg
  rw [if_neg hpa] at hg
  cases hg
  have hs₃ : s₃.table = s₁.table ∧ s₃.clock = s₁.clock.erase id ∧
      (s₃.current = .null → s₃.clock = []) := by
    split_ifs at h₃ with hc
    · cases h₃; exact ⟨rfl, rfl, fun _ => hc⟩
    · have he := (frameSwapNext_eq_some h₃).1
      exact ⟨by rw [he], by rw [he],
        fun hn => absurd hn (frameSwapNext_current_ne_null h₃ (nextPtr_ne_null _ _))⟩
  exact h₁.remove id (by rw [← hs₃.1]) hs₃.2.1 fun hn => .inr (hs₃.2.2 hn)

/-- `frame_get` keeps the clock list and the frame table in agreement, on every path, when
`malloc` returns an address no item holds. -/
theorem frameGet_clockInv {cur upage : ℕ} {palloc : Option ℕ} {toSwap swapFull palAssert : Bool}
    {addr : ℕ} {r : Option ℕ} (h : s.ClockInv)
    (hfresh : (frameGetFrame s palloc toSwap swapFull palAssert).all
      fun r => addr ∉ r.1.table.map FrameItem.id)
    (hg : frameGet s cur upage palloc toSwap swapFull palAssert addr = some (s', r)) :
    s'.ClockInv := by
  obtain ⟨⟨s₁, r₁⟩, h₁, he⟩ := Option.map_eq_some'.1 hg
  have hi := frameGetFrame_clockInv h h₁
  rw [h₁, Option.all_some, decide_eq_true_eq] at hfresh
  cases r₁ with
  | none => cases he; exact hi
  | some frame => cases he; exact hi.insert hfresh _ _ _

/-- `frame_free` keeps the clock list and the frame table in agreement. -/
theorem frameFree_clockInv {frame : ℕ} (h : s.ClockInv) (hf : frameFree s frame = some s') :
    s'.ClockInv := by
  unfold frameFree at hf
  by_cases hlk : s.lockHeld
  · rw [if_pos hlk] at hf; cases hf
  rw [if_neg hlk] at hf
  split at hf
  · cases hf
  rename_i t ht
  have htm := getItem_eq_some ht
  dsimp only at hf
  by_cases hsw : t.swapable
  · rw [if_pos hsw, Option.map_some', Option.some.injEq] at hf
    subst hf
    exact h.remove t.id rfl (List.erase_of_not_mem (h.not_mem_of_swapable htm hsw)).symm
      (fun hn => .inl hn)
  rw [if_neg hsw] at hf
  obtain ⟨s₁, h₁, rfl⟩ := Option.map_eq_some'.1 hf
  obtain ⟨s₀, h₀, rfl⟩ := Option.map_eq_some'.1 h₁
  have hs₀ : s₀.table = s.table ∧ s₀.clock = s.clock ∧
      (s₀.current = .null → s.current = .null ∨ s.clock = []) := by
    split_ifs at h₀ with _ hc
    · cases h₀; exact ⟨rfl, rfl, fun _ => .inr hc⟩
    · have he := (frameSwapNext_eq_some h₀).1
      exact ⟨by rw [he], by rw [he],
        fun hn => absurd hn (frameSwapNext_current_ne_null h₀ (nextPtr_ne_null _ _))⟩
    · cases h₀; exact ⟨rfl, rfl, .inl⟩
  refine h.remove t.id (by dsimp only; rw [hs₀.1]) (by dsimp only; rw [hs₀.2.1]) fun hn => ?_
  rcases hs₀.2.2 hn with h₀ | h₀
  · exact .inl h₀
  · exact .inr (by dsimp only; rw [hs₀.2.1, h₀]; rfl)

/-- `frame_set_unswapable` keeps the clock list and the frame table in agreement. -/
theorem frameSetUnswapable_clockInv {frame : ℕ} {b : Bool} (h : s.ClockInv)
    (hf : frameSetUnswapable s frame = some (s', b)) : s'.ClockInv := by
  unfold frameSetUnswapable at hf
  split_ifs at hf
  split at hf
  · cases hf; exact h
  rename_i t ht
  have htm := getItem_eq_some ht
  split_ifs at hf with hsw
  · cases hf; exact h
  simp only [Option.some.injEq, Prod.mk.injEq] at hf
  obtain ⟨rfl, -⟩ := hf
  have hnot := h.not_mem_of_swapable htm (by simpa using hsw)
  split_ifs with hlen
  · exact h.mark htm hnot rfl rfl Cursor.noConfusion
  · -- a second item on the list: the hand was on the first, so it is not `NULL`
    refine h.mark htm hnot rfl rfl fun hn => hlen ?_
    simp [h.null_hand hn]

theorem frameStep_clockInv {op : FrameOp} (h : s.ClockInv) (hs : frameStep s op = some s') :
    s'.ClockInv := by
  cases op with
  | get cur upage palloc toSwap swapFull palAssert addr =>
      simp only [frameStep] at hs
      split_ifs at hs with hg
      obtain ⟨⟨s₁, r⟩, hget, rfl⟩ := Option.map_eq_some'.1 hs
      exact frameGet_clockInv h hg.2 hget
  | free frame => exact frameFree_clockInv h hs
  | setUnswapable frame =>
      obtain ⟨⟨s₁, b⟩, hg, rfl⟩ := Option.map_eq_some'.1 hs
      exact frameSetUnswapable_clockInv h hg
  | touch t upage =>
      cases hs
      exact h.moveHand rfl rfl id

/-- **`frame_clock_list` holds exactly the items of `frame_table` whose `swapable` flag is false,
each once; no two items share an address; and `current_frame` is `NULL` only when the list is
empty**, so the assertion of `frame_get` on the hand holds whenever the list is not empty.  This
holds in every state reachable from `frame_init`, whatever addresses of freed items `malloc`
hands out again, the one the hand was left on included. -/
theorem FrameReach.clockInv (hs : FrameReach s) : s.ClockInv := by
  induction hs with
  | init accessed => exact clockInv_frameInit accessed
  | step _ hst ih => exact frameStep_clockInv ih hst

/-- A thread gets frame 100 with a free page, for an item at address 0, marks it unswapable and
frees it, which leaves the hand on address 0.  Its next `frame_get` gets frame 101, and `malloc`
returns address 0 again: the hand is on the new, swapable item, off the clock list, which is empty,
and the clock list and the frame table agree. -/
theorem clockInv_after_reuse : ∃ s, FrameReach s ∧ s.clock = [] ∧ s.current = .item 0 ∧
    (s.item? 0).isSome ∧ s.ClockInv := by
  have h : (frameRun (frameInit fun _ _ => false)
      [.get 1 0 (some 100) false false false 0, .setUnswapable 100, .free 100,
        .get 1 1 (some 101) false false false 0]).map
      (fun s => decide (s.clock = [] ∧ s.current = .item 0 ∧ (s.item? 0).isSome)) = some true := by
    decide
  obtain ⟨s, hr, hP⟩ := Option.map_eq_some'.1 h
  have hs : FrameReach s := (FrameReach.init _).run hr
  simp only [decide_eq_true_eq] at hP
  exact ⟨s, hs, hP.1, hP.2.1, hP.2.2, FrameReach.clockInv hs⟩

/-- A thread gets frame 100 with a free page, marks it unswapable, which puts it on the clock with
the hand on it, and frees it: `frame_swap_next` leaves the hand on the freed item, and the list is
empty. -/
theorem frame_free_keeps_hand :
    ∃ s, FrameReach s ∧ s.clock = [] ∧ s.current ≠ .null ∧ s.table = [] := by
  have h : (frameRun (frameInit fun _ _ => false)
      [.get 1 0 (some 100) false false false 0, .setUnswapable 100, .free 100]).map
      (fun s => decide (s.clock = [] ∧ s.current ≠ .null ∧ s.table = [])) = some true := by
    decide
  obtain ⟨s, hr, hP⟩ := Option.map_eq_some'.1 h
  exact ⟨s, (FrameReach.init _).run hr, by simpa using hP⟩

/-! ### `all_lock` -/

/-- The second-chance loop moves only the hand and the accessed bits. -/
theorem clockLoop_eq_some : ∀ {fuel : ℕ} {s s' : Frames}, clockLoop fuel s = some s' →
    s' = { s with current := s'.current, accessed := s'.accessed }
  | 0, _, _, hl => by cases hl
  | fuel + 1, s, s', hl => by
      simp only [clockLoop] at hl
      split at hl
      · split at hl
        · split_ifs at hl
          · obtain ⟨s₁, hs, hl⟩ := Option.bind_eq_some.1 hl
            rw [clockLoop_eq_some hl, (frameSwapNext_eq_some hs).1]
          · cases hl; rfl
        · cases hl
      · cases hl

@[simp] theorem Frames.insert_lockHeld (s : Frames) (addr cur upage frame : ℕ) :
    (s.insert addr cur upage frame).lockHeld = false := rfl

/-- **What `frame_get` does before its `malloc`**: it returns with `all_lock` held, and either
with `NULL`, when the victim's page is bound for swap and `swap_store` finds no slot, leaving
`frame_table` and `frame_clock_list` as they were; or with the page `palloc_get_page` returned and
the table as it was; or, with no free page and the victim's page not stuck, with the frame of the
victim the clock stopped at, whose item has left the table. -/
theorem frameGetFrame_spec {palloc : Option ℕ} {toSwap swapFull palAssert : Bool} {r : Option ℕ}
    (hg : frameGetFrame s palloc toSwap swapFull palAssert = some (s', r)) :
    s'.lockHeld = true ∧
      ((r = none ∧ palloc = none ∧ toSwap = true ∧ swapFull = true ∧ s'.table = s.table ∧
          s'.clock = s.clock) ∨
        ∃ frame, r = some frame ∧ ((palloc = some frame ∧ s'.table = s.table) ∨
          (palloc = none ∧ ¬(toSwap = true ∧ swapFull = true) ∧ ∃ victim ∈ s.table,
            victim.frame = frame ∧ s'.table = s.table.filter fun it => it.id ≠ victim.id))) := by
  unfold frameGetFrame at hg
  rw [if_neg (by rintro h; rw [if_pos h] at hg; cases hg)] at hg
  dsimp only at hg
  cases palloc with
  | some frame => cases hg; exact ⟨rfl, .inr ⟨frame, rfl, .inl ⟨rfl, rfl⟩⟩⟩
  | none =>
  rw [if_neg (by rintro h; rw [if_pos h] at hg; cases hg)] at hg
  obtain ⟨s₁, hl, hg⟩ := Option.bind_eq_some.1 hg
  have he := clockLoop_eq_some hl
  split at hg
  on_goal 2 => cases hg
  rename_i id _
  split at hg
  on_goal 2 => cases hg
  rename_i victim hv
  -- the victim is the live item the hand stopped at
  have hvm : victim ∈ s.table := by rw [he] at hv; exact List.mem_of_find?_eq_some hv
  have hvid : victim.id = id := by simpa using List.find?_some hv
  by_cases hts : toSwap = true ∧ swapFull = true
  · rw [if_pos hts] at hg
    cases hg
    rw [he]
    exact ⟨rfl, .inl ⟨rfl, rfl, hts.1, hts.2, rfl, rfl⟩⟩
  rw [if_neg hts] at hg
  by_cases hm : id ∉ s₁.clock
  · rw [if_pos hm] at hg; cases hg
  rw [if_neg hm] at hg
  obtain ⟨s₃, h₃, hg⟩ := Option.bind_eq_some.1 hg
  split_ifs at hg
  cases hg
  have hs₃ : s₃.table = s₁.table ∧ s₃.lockHeld = s₁.lockHeld := by
    split_ifs at h₃
    · cases h₃; exact ⟨rfl, rfl⟩
    · rw [(frameSwapNext_eq_some h₃).1]; exact ⟨rfl, rfl⟩
  refine ⟨?_, .inr ⟨victim.frame, rfl, .inr ⟨rfl, hts, victim, hvm, rfl, ?_⟩⟩⟩
  · dsimp only; rw [hs₃.2, he]
  · dsimp only; rw [hs₃.1, hvid, he]

/-- **Every return of `frame_get` releases `all_lock` but one**: when the victim's page is bound
for swap and `swap_store` finds no slot, `frame_get` returns `NULL` with the lock still held, and
with `frame_table` and `frame_clock_list` as it found them. -/
theorem frameGet_lockHeld {cur upage : ℕ} {palloc : Option ℕ} {toSwap swapFull palAssert : Bool}
    {addr : ℕ} {r : Option ℕ}
    (hg : frameGet s cur upage palloc toSwap swapFull palAssert addr = some (s', r)) :
    s'.lockHeld = (palloc.isNone && toSwap && swapFull) ∧
      (s'.lockHeld = true → r = none ∧ s'.table = s.table ∧ s'.clock = s.clock) := by
  obtain ⟨⟨s₁, r₁⟩, h₁, he⟩ := Option.map_eq_some'.1 hg
  obtain ⟨hl, ⟨rfl, rfl, rfl, rfl, ht, hc⟩ | ⟨frame, rfl, ⟨rfl, -⟩ | ⟨rfl, hts, -⟩⟩⟩ :=
    frameGetFrame_spec h₁ <;> cases he
  · exact ⟨hl, fun _ => ⟨rfl, ht, hc⟩⟩
  · exact ⟨rfl, fun h => by cases h⟩
  · refine ⟨?_, fun h => by cases h⟩
    rw [Frames.insert_lockHeld]
    cases toSwap <;> cases swapFull <;> simp_all

/-- `frame_free` releases `all_lock`. -/
theorem frameFree_lockHeld {frame : ℕ} (hf : frameFree s frame = some s') : s'.lockHeld = false := by
  unfold frameFree at hf
  by_cases hlk : s.lockHeld
  · rw [if_pos hlk] at hf; cases hf
  rw [if_neg hlk] at hf
  split at hf
  · cases hf
  dsimp only at hf
  split_ifs at hf
  · cases hf; simpa using hlk
  all_goals
    obtain ⟨s₁, h₁, rfl⟩ := Option.map_eq_some'.1 hf
    obtain ⟨s₀, h₀, rfl⟩ := Option.map_eq_some'.1 h₁
    have : s₀.lockHeld = s.lockHeld := by
      first | (cases h₀; rfl) | rw [(frameSwapNext_eq_some h₀).1]
    simpa [this] using hlk

/-- `frame_set_unswapable` releases `all_lock`. -/
theorem frameSetUnswapable_lockHeld {frame : ℕ} {b : Bool}
    (hf : frameSetUnswapable s frame = some (s', b)) : s'.lockHeld = false := by
  unfold frameSetUnswapable at hf
  split_ifs at hf with hlk
  split at hf
  · cases hf; simpa using hlk
  split_ifs at hf
  · cases hf; simpa using hlk
  simp only [Option.some.injEq, Prod.mk.injEq] at hf
  obtain ⟨rfl, -⟩ := hf
  split_ifs <;> simpa using hlk

/-- With `all_lock` held, every call of `frame.c` waits on it for good. -/
theorem frame_calls_of_lockHeld (h : s.lockHeld = true) (cur upage : ℕ) (palloc : Option ℕ)
    (toSwap swapFull palAssert : Bool) (addr frame : ℕ) :
    frameGet s cur upage palloc toSwap swapFull palAssert addr = none ∧ frameFree s frame = none ∧
      frameSetUnswapable s frame = none := by
  simp [frameGet, frameGetFrame, frameFree, frameSetUnswapable, h]

/-- Thread 1 gets frame 100 with a free page and marks it unswapable.  When it next asks for a
frame with none free, the hand stops at that frame, whose page is anonymous and bound for swap;
`swap_store` finds no slot, and `frame_get` returns `NULL` with `all_lock` held.  Every later call
of `frame.c` then waits on the lock. -/
theorem frame_get_swap_full_keeps_lock :
    ∃ s, FrameReach s ∧ ∃ s', frameGet s 1 0 none true true false 1 = some (s', none) ∧
      FrameReach s' ∧ s'.lockHeld = true ∧ s'.table = s.table ∧ s'.clock = s.clock ∧
      ∀ cur upage palloc toSwap swapFull palAssert addr frame,
        frameGet s' cur upage palloc toSwap swapFull palAssert addr = none ∧
          frameFree s' frame = none ∧ frameSetUnswapable s' frame = none := by
  let s₀ : Frames := ⟨[⟨0, 100, 0, 1, false⟩], [0], .item 0, fun _ _ => false, false⟩
  have hr : frameRun (frameInit fun _ _ => false)
      [.get 1 0 (some 100) false false false 0, .setUnswapable 100] = some s₀ := rfl
  have hs₀ : FrameReach s₀ := (FrameReach.init _).run hr
  have hg : frameGet s₀ 1 0 none true true false 1 = some ({ s₀ with lockHeld := true }, none) :=
    rfl
  refine ⟨s₀, hs₀, _, hg, @FrameReach.step _ _ (.get 1 0 none true true false 1) hs₀ rfl,
    rfl, rfl, rfl, fun cur upage palloc toSwap swapFull palAssert addr frame =>
      frame_calls_of_lockHeld rfl cur upage palloc toSwap swapFull palAssert addr frame⟩

/-! ### The frames of the table -/

/-- **What `frame_get` does to `frame_table`.**  On a path that returns `NULL` the table is as it
was.  On a path that returns a frame, a new swapable item of the caller for its page and that
frame enters the table at the address `malloc` returned: the frame is the page `palloc_get_page`
returned, or the frame of the victim the clock stopped at, whose item left the table first. -/
theorem frameGet_table {cur upage : ℕ} {palloc : Option ℕ} {toSwap swapFull palAssert : Bool}
    {addr : ℕ} {r : Option ℕ}
    (hg : frameGet s cur upage palloc toSwap swapFull palAssert addr = some (s', r)) :
    (r = none ∧ s'.table = s.table) ∨
      ∃ frame, r = some frame ∧
        ((palloc = some frame ∧ s'.table = s.table ++ [⟨addr, frame, upage, cur, true⟩]) ∨
          (palloc = none ∧ ∃ victim ∈ s.table, victim.frame = frame ∧
            s'.table = s.table.filter (fun it => it.id ≠ victim.id) ++
              [⟨addr, frame, upage, cur, true⟩])) := by
  obtain ⟨⟨s₁, r₁⟩, h₁, he⟩ := Option.map_eq_some'.1 hg
  obtain ⟨-, ⟨rfl, -, -, -, ht, -⟩ | ⟨frame, rfl, ⟨hp, ht⟩ | ⟨hp, -, victim, hv, hf, ht⟩⟩⟩ :=
    frameGetFrame_spec h₁ <;> cases he
  · exact .inl ⟨rfl, ht⟩
  · exact .inr ⟨frame, rfl, .inl ⟨hp, by simp only [Frames.insert, ht]⟩⟩
  · exact .inr ⟨frame, rfl, .inr ⟨hp, victim, hv, hf, by simp only [Frames.insert, ht]⟩⟩

/-- `frame_free` takes the item of the frame out of the table. -/
theorem frameFree_table {frame : ℕ} (hf : frameFree s frame = some s') :
    ∃ t ∈ s.table, t.frame = frame ∧ s'.table = s.table.filter fun it => it.id ≠ t.id := by
  unfold frameFree at hf
  rw [if_neg (by rintro h; rw [if_pos h] at hf; cases hf)] at hf
  split at hf
  · cases hf
  rename_i t ht
  refine ⟨t, getItem_eq_some ht, by simpa using List.find?_some ht, ?_⟩
  dsimp only at hf
  by_cases hsw : t.swapable
  · rw [if_pos hsw, Option.map_some', Option.some.injEq] at hf
    subst hf; rfl
  rw [if_neg hsw] at hf
  obtain ⟨s₁, h₁, rfl⟩ := Option.map_eq_some'.1 hf
  obtain ⟨s₀, h₀, rfl⟩ := Option.map_eq_some'.1 h₁
  have : s₀.table = s.table := by
    split_ifs at h₀ <;> first | (cases h₀; rfl) | rw [(frameSwapNext_eq_some h₀).1]
  simp only [this]

/-- `frame_set_unswapable` changes no item's frame. -/
theorem frameSetUnswapable_table {frame : ℕ} {b : Bool}
    (hf : frameSetUnswapable s frame = some (s', b)) :
    s'.table.map FrameItem.frame = s.table.map FrameItem.frame := by
  unfold frameSetUnswapable at hf
  split_ifs at hf
  split at hf
  · cases hf; rfl
  split_ifs at hf
  · cases hf; rfl
  simp only [Option.some.injEq, Prod.mk.injEq] at hf
  obtain ⟨rfl, -⟩ := hf
  have hmap : ∀ t : FrameItem,
      (s.table.map fun x => if x.id = t.id then { x with swapable := false } else x).map
        FrameItem.frame = s.table.map FrameItem.frame := fun t => by
    rw [List.map_map]
    exact List.map_congr_left fun x _ => by dsimp only [Function.comp]; split_ifs <;> rfl
  split_ifs <;> exact hmap _

/-- A frame that no item holds. -/
theorem filter_frame_eq_nil {l : List FrameItem} {frame : ℕ} (h : frame ∉ l.map FrameItem.frame) :
    l.filter (fun it => it.frame = frame) = [] :=
  List.filter_eq_nil_iff.2 fun it hit he => h (by simpa using (⟨it, hit, by simpa using he⟩ :
    ∃ a ∈ l, a.frame = frame))

/-- With every frame held once, no item but the victim's holds the victim's frame. -/
theorem frame_not_mem_filter_victim {l : List FrameItem} (h : (l.map FrameItem.frame).Nodup)
    {victim : FrameItem} (hv : victim ∈ l) :
    victim.frame ∉ (l.filter fun it => it.id ≠ victim.id).map FrameItem.frame := fun hm => by
  obtain ⟨it, hit, he⟩ := List.mem_map.1 hm
  rw [List.mem_filter] at hit
  have := List.inj_on_of_nodup_map h hit.1 hv he
  simp [this] at hit

/-- One operation keeps every frame held by one item at most; `palloc_get_page` returns a page no
item holds. -/
theorem frameStep_frames_nodup {op : FrameOp} (h : (s.table.map FrameItem.frame).Nodup)
    (hs : frameStep s op = some s') : (s'.table.map FrameItem.frame).Nodup := by
  cases op with
  | get cur upage palloc toSwap swapFull palAssert addr =>
      simp only [frameStep] at hs
      split_ifs at hs with hfresh
      obtain ⟨⟨s₁, r⟩, hg, rfl⟩ := Option.map_eq_some'.1 hs
      rcases frameGet_table hg with ⟨-, ht⟩ | ⟨frame, -, ⟨rfl, ht⟩ | ⟨-, victim, hv, rfl, ht⟩⟩
      · rwa [ht]
      · rw [ht, List.map_append, List.nodup_append]
        exact ⟨h, List.nodup_singleton _, List.disjoint_singleton.2 (of_decide_eq_true hfresh.1)⟩
      · rw [ht, List.map_append, List.nodup_append]
        exact ⟨h.sublist ((List.filter_sublist _).map _), List.nodup_singleton _,
          List.disjoint_singleton.2 (frame_not_mem_filter_victim h hv)⟩
  | free frame =>
      obtain ⟨t, -, -, ht⟩ := frameFree_table hs
      rw [ht]
      exact h.sublist ((List.filter_sublist _).map _)
  | setUnswapable frame =>
      obtain ⟨⟨s₁, b⟩, hg, rfl⟩ := Option.map_eq_some'.1 hs
      rwa [frameSetUnswapable_table hg]
  | touch t upage => cases hs; exact h

/-- **No frame is handed out twice.**  In every state reachable from `frame_init` no two items of
`frame_table` hold the same frame; and `frame_get`, on every path that returns a frame, whether a
free page of `palloc_get_page` or the frame of the victim it evicts, leaves exactly one item
holding it: the new, swapable item of the caller for its page. -/
theorem frames_held_once (hs : FrameReach s) :
    (s.table.map FrameItem.frame).Nodup ∧
      ∀ cur upage palloc toSwap swapFull palAssert addr s' frame,
        (palloc.all fun f => f ∉ s.table.map FrameItem.frame) →
        frameGet s cur upage palloc toSwap swapFull palAssert addr = some (s', some frame) →
        s'.table.filter (fun it => it.frame = frame) = [⟨addr, frame, upage, cur, true⟩] := by
  have h : (s.table.map FrameItem.frame).Nodup := by
    induction hs with
    | init accessed => exact List.nodup_nil
    | step _ hst ih => exact frameStep_frames_nodup ih hst
  refine ⟨h, fun cur upage palloc toSwap swapFull palAssert addr s' frame hfresh hg => ?_⟩
  rcases frameGet_table hg with ⟨he, -⟩ | ⟨frame', he, ⟨rfl, ht⟩ | ⟨-, victim, hv, rfl, ht⟩⟩
  · cases he
  · cases he
    rw [ht, List.filter_append, filter_frame_eq_nil (of_decide_eq_true hfresh)]
    simp
  · cases he
    rw [ht, List.filter_append, filter_frame_eq_nil (frame_not_mem_filter_victim h hv)]
    simp

/-- Thread 1 gets frame 100 from a free page and marks it unswapable.  Frame 100 is then held
once, and a `frame_get` of thread 2 with no free page evicts it and returns it, in a new item at
the address of the victim's, which `malloc` hands out again. -/
theorem frames_held_once_after_mark :
    ∃ s, FrameReach s ∧ s.table.map FrameItem.frame = [100] ∧
      (frameGet s 2 5 none false false false 0).map Prod.snd = some (some 100) ∧
      (s.table.map FrameItem.frame).Nodup ∧
      ∀ cur upage palloc toSwap swapFull palAssert addr s' frame,
        (palloc.all fun f => f ∉ s.table.map FrameItem.frame) →
        frameGet s cur upage palloc toSwap swapFull palAssert addr = some (s', some frame) →
        s'.table.filter (fun it => it.frame = frame) = [⟨addr, frame, upage, cur, true⟩] := by
  let s₀ : Frames := ⟨[⟨0, 100, 0, 1, false⟩], [0], .item 0, fun _ _ => false, false⟩
  have hr : frameRun (frameInit fun _ _ => false)
      [.get 1 0 (some 100) false false false 0, .setUnswapable 100] = some s₀ := rfl
  have hs₀ : FrameReach s₀ := (FrameReach.init _).run hr
  exact ⟨s₀, hs₀, rfl, rfl, frames_held_once hs₀⟩

end Pintos.Vm
