import Mathlib.Data.List.Nodup
import Mathlib.Data.List.FinRange
import Mathlib.Algebra.Group.Nat.Basic

/-!
**The swap slots of `vm/swap.c`.**

`swap.c` hands out slots of `BLOCK_PER_PAGE` sectors on the swap device: the front of
`swap_free_list` when that list is not empty, and otherwise the slot at `top_index`, a bump
pointer that `swap_free` lowers again when the slot just below it is freed.  A slot is named by the
`index_t` of its first sector, and `(index_t) -1` means that no slot was found.

A client calls `swap_load` and `swap_free` only on a slot that `swap_store` returned and that it
has neither loaded nor freed since.  In every run of such a client the slots in use, the slots in
`swap_free_list` and the slots from `top_index` up partition the device below its end, so
`swap_store` never hands out a slot in use, and `swap_load` reads back the page stored.  The test
`top_index + BLOCK_PER_PAGE < block_size` is computed in 32 bits; on a device whose size is within
8 sectors of 2^32 it wraps, and `swap_store` then writes past the end of the device, which the
block layer stops with a panic before `swap_store` can return.

Main definitions:

* `Pintos.Vm.swapStore`, `Pintos.Vm.swapFree`, `Pintos.Vm.swapLoad` — the functions of `swap.c`;
* `Pintos.Vm.SwapReach` — the allocator states, with the slots in use, that a client reaches;
* `Pintos.Vm.Swap.Inv` — the partition of the device;
* `Pintos.Vm.Swap.Covers` — every slot below `top_index` is in use or free.

Main results:

* `Pintos.Vm.SwapReach.inv` — **the partition holds in every run**;
* `Pintos.Vm.swap_slots_sound` — `swap_store` returns a free, aligned slot within the device, and
  `swap_load` returns the page stored in the slot;
* `Pintos.Vm.swap_slots_accounted` — **no slot is lost**: the slots in use and those of
  `swap_free_list` are exactly the slots below `top_index`, so `swap_store` gives up only when all
  of them are in use.
-/

set_option autoImplicit false

namespace Pintos.Vm

/-- `BLOCK_PER_PAGE = PGSIZE / BLOCK_SECTOR_SIZE`: a 4096-byte page takes eight 512-byte
sectors. -/
def blockPerPage : ℕ := 8

/-- `(index_t) -1`, what `swap_store` returns when it finds no slot: `index_t` is a 32-bit unsigned
integer. -/
def indexError : ℕ := 2 ^ 32 - 1

/-- A page, as the `BLOCK_PER_PAGE` sector-sized pieces it is written to the device in. -/
abbrev Page (α : Type) := Fin blockPerPage → α

/-- The swap device `swap_block`: `block_size (swap_block)` sectors, a `block_sector_t` count, each
holding a sector of data of type `α`. -/
structure Block (α : Type) where
  size : ℕ
  size_lt : size < 2 ^ 32
  data : ℕ → α

variable {α : Type}

namespace Block

/-- `block_write (block, sector, buffer)` of the block layer: a sector at or past the end of the
device is a kernel panic. -/
def write (b : Block α) (sector : ℕ) (d : α) : Option (Block α) :=
  if sector < b.size then some { b with data := Function.update b.data sector d } else none

/-- The loop of `swap_store`: `block_write (swap_block, index + i, kpage + i * BLOCK_SECTOR_SIZE)`
for each `i` of `is`, the sector number computed in 32 bits. -/
def writePage (b : Block α) (index : ℕ) (page : Page α) :
    List (Fin blockPerPage) → Option (Block α)
  | [] => some b
  | i :: is => (b.write ((index + i) % 2 ^ 32) (page i)).bind fun b' => b'.writePage index page is

/-- The loop of `swap_load`: `block_read (swap_block, index + i, kpage + i * BLOCK_SECTOR_SIZE)`
for every `i`.  Reading a sector at or past the end of the device is a kernel panic, and a read
changes nothing else. -/
def readPage (b : Block α) (index : ℕ) : Option (Page α) :=
  if ∀ i : Fin blockPerPage, (index + i) % 2 ^ 32 < b.size then
    some fun i => b.data ((index + i) % 2 ^ 32)
  else none

variable {b b' : Block α} {index : ℕ} {page : Page α}

theorem write_eq_some {n : ℕ} {d : α} :
    b.write n d = some b' ↔ n < b.size ∧ b' = { b with data := Function.update b.data n d } := by
  unfold write; split_ifs with h <;> simp [h, eq_comm]

/-- What the writes of `is` did: the device keeps its size, every sector they name was within it
and holds its piece of the page, and every other sector is unchanged. -/
theorem writePage_spec : ∀ {is : List (Fin blockPerPage)} {b b' : Block α},
    b.writePage index page is = some b' →
    b'.size = b.size ∧ (∀ i ∈ is, (index + i) % 2 ^ 32 < b.size) ∧
      (∀ n, (∀ i ∈ is, n ≠ (index + i) % 2 ^ 32) → b'.data n = b.data n) ∧
      ∀ i ∈ is, b'.data ((index + i) % 2 ^ 32) = page i
  | [], _, _, h => by cases h; simp
  | j :: js, b, b', h => by
      obtain ⟨b₁, hw, h⟩ := Option.bind_eq_some.1 h
      obtain ⟨hj, rfl⟩ := write_eq_some.1 hw
      obtain ⟨hsize, hin, hframe, hdata⟩ := writePage_spec h
      have hsec : ∀ i : Fin blockPerPage, i ≠ j →
          (index + j) % 2 ^ 32 ≠ (index + i) % 2 ^ 32 := fun i hij he => by
        have := i.isLt; have := j.isLt; unfold blockPerPage at *
        exact hij (Fin.ext (by omega))
      refine ⟨hsize, fun i hi => ?_, fun n hn => ?_, fun i hi => ?_⟩
      · rcases List.mem_cons.1 hi with rfl | hi
        · exact hj
        · exact hin i hi
      · rw [hframe n fun i hi => hn i (.tail _ hi)]
        exact Function.update_noteq (hn j (.head _)) _ _
      · by_cases hij : i ∈ js
        · exact hdata i hij
        · obtain rfl : i = j := (List.mem_cons.1 hi).resolve_right hij
          rw [hframe _ fun k hk => hsec k (fun he => hij (he ▸ hk))]
          exact Function.update_same _ _ _

/-- A slot that ends within the device reads back sector by sector. -/
theorem readPage_of_le (h : index + blockPerPage ≤ b.size) :
    b.readPage index = some fun i : Fin blockPerPage => b.data (index + i) := by
  have hlt := b.size_lt
  have hmod : ∀ i : Fin blockPerPage, (index + i) % 2 ^ 32 = index + i := fun i =>
    Nat.mod_eq_of_lt (by have := i.isLt; omega)
  simp only [readPage, hmod]
  rw [if_pos fun i => by have := i.isLt; omega]

end Block

/-- The state of `swap.c`: the device, `swap_free_list` (the `index` of each `swap_item`, front
first) and `top_index`. -/
structure Swap (α : Type) where
  block : Block α
  freeList : List ℕ
  topIndex : ℕ

/-- `swap_init ()`, with `top_index` at its static initial value 0. -/
def swapInit (b : Block α) : Swap α := ⟨b, [], 0⟩

/-- `swap_store (kpage)`: the slot at the front of `swap_free_list`, or else the slot at
`top_index` when `top_index + BLOCK_PER_PAGE < block_size (swap_block)`, computed in 32 bits;
`(index_t) -1` when there is neither.  The page is then written to the slot. -/
def swapStore (s : Swap α) (page : Page α) : Option (Swap α × ℕ) :=
  let (index, s1) : ℕ × Swap α := match s.freeList with
    | [] =>
        if (s.topIndex + blockPerPage) % 2 ^ 32 < s.block.size then
          (s.topIndex, { s with topIndex := (s.topIndex + blockPerPage) % 2 ^ 32 })
        else (indexError, s)
    | i :: rest => (i, { s with freeList := rest })
  if index = indexError then some (s1, index)
  else (s1.block.writePage index page (List.finRange blockPerPage)).map fun b =>
    ({ s1 with block := b }, index)

/-- `swap_free (index)`: the slot just below `top_index` lowers it; any other slot goes to the
back of `swap_free_list`. -/
def swapFree (s : Swap α) (index : ℕ) : Option (Swap α) :=
  if index % blockPerPage ≠ 0 then none
  else if s.topIndex = (index + blockPerPage) % 2 ^ 32 then some { s with topIndex := index }
  else some { s with freeList := s.freeList ++ [index] }

/-- `swap_load (index, kpage)`: read the slot into the page, then `swap_free` it. -/
def swapLoad (s : Swap α) (index : ℕ) : Option (Swap α × Page α) :=
  if index = indexError ∨ index % blockPerPage ≠ 0 then none
  else (s.block.readPage index).bind fun page => (swapFree s index).map fun s' => (s', page)

/-! ### Clients -/

/-- What the swap area holds for its clients: each index `swap_store` returned that has been
neither loaded nor freed since, with the page stored there. -/
abbrev Slots (α : Type) := List (ℕ × Page α)

/-- What a client of the swap area does. -/
inductive SwapOp (α : Type)
  | store (page : Page α)
  | load (index : ℕ)
  | free (index : ℕ)

/-- One operation of a client, which calls `swap_load` and `swap_free` only on a slot in use. -/
def swapStep (s : Swap α) (used : Slots α) : SwapOp α → Option (Swap α × Slots α)
  | .store page => (swapStore s page).map fun r =>
      (r.1, if r.2 = indexError then used else (r.2, page) :: used)
  | .load i =>
      if i ∈ used.map Prod.fst then (swapLoad s i).map fun r => (r.1, used.filter fun p => p.1 ≠ i)
      else none
  | .free i =>
      if i ∈ used.map Prod.fst then (swapFree s i).map fun s' => (s', used.filter fun p => p.1 ≠ i)
      else none

/-- The states of the allocator, with the slots in use, that a client reaches from `swap_init` on
the device `b`. -/
inductive SwapReach (b : Block α) : Swap α → Slots α → Prop
  | init : SwapReach b (swapInit b) []
  | step {s s' : Swap α} {used used' : Slots α} {op : SwapOp α} : SwapReach b s used →
      swapStep s used op = some (s', used') → SwapReach b s' used'

/-! ### The partition of the device -/

/-- The slots in use, the slots of `swap_free_list` and the slots from `top_index` up are disjoint,
aligned and within the device, and each slot in use holds the page stored there. -/
structure Swap.Inv (s : Swap α) (used : Slots α) : Prop where
  nodup : (used.map Prod.fst ++ s.freeList).Nodup
  aligned : ∀ i ∈ used.map Prod.fst ++ s.freeList, i % blockPerPage = 0
  below_top : ∀ i ∈ used.map Prod.fst ++ s.freeList, i + blockPerPage ≤ s.topIndex
  top_aligned : s.topIndex % blockPerPage = 0
  top_le : s.topIndex ≤ s.block.size
  stored : ∀ p ∈ used, ∀ k : Fin blockPerPage, s.block.data (p.1 + k) = p.2 k

variable {s s' : Swap α} {used used' : Slots α}

theorem swapInit_inv (b : Block α) : (swapInit b).Inv [] :=
  ⟨List.nodup_nil, by simp [swapInit], by simp [swapInit], rfl, Nat.zero_le _, by simp⟩

/-- Two different aligned slots share no sector. -/
theorem slot_disjoint {i j : ℕ} (hi : i % blockPerPage = 0) (hj : j % blockPerPage = 0) (hij : i ≠ j)
    (k l : Fin blockPerPage) : i + k ≠ j + l := by
  have := k.isLt; have := l.isLt; unfold blockPerPage at *; omega

/-- Removing a slot from the slots in use. -/
theorem map_fst_filter_ne (used : Slots α) (i : ℕ) :
    (used.filter fun p => p.1 ≠ i).map Prod.fst = (used.map Prod.fst).filter (· ≠ i) := by
  rw [List.filter_map]; rfl

/-- Writing a page to a slot within the device, aligned and apart from the slots in use, stores it
there and keeps the others. -/
theorem Swap.Inv.write {i : ℕ} {page : Page α} {b : Block α} (h : s.Inv used)
    (hi : i % blockPerPage = 0) (hused : i ∉ used.map Prod.fst) (hb : i + blockPerPage ≤ 2 ^ 32)
    (hw : s.block.writePage i page (List.finRange blockPerPage) = some b) :
    b.size = s.block.size ∧ ∀ p ∈ (i, page) :: used, ∀ k : Fin blockPerPage, b.data (p.1 + k) = p.2 k := by
  obtain ⟨hsize, -, hframe, hdata⟩ := Block.writePage_spec hw
  have hmod : ∀ k : Fin blockPerPage, (i + k) % 2 ^ 32 = i + k := fun k =>
    Nat.mod_eq_of_lt (by have := k.isLt; unfold blockPerPage at *; omega)
  refine ⟨hsize, fun p hp k => ?_⟩
  rcases List.mem_cons.1 hp with rfl | hp
  · show b.data (i + k) = page k
    rw [← hmod k]
    exact hdata k (List.mem_finRange k)
  · have hpi : p.1 ≠ i := fun he => hused (he ▸ List.mem_map_of_mem Prod.fst hp)
    have hpa := h.aligned _ (List.mem_append_left _ (List.mem_map_of_mem Prod.fst hp))
    rw [hframe _ fun l _ => by rw [hmod]; exact slot_disjoint hpa hi hpi k l, h.stored p hp k]

/-- `swap_store` keeps the partition, and hands out a free, aligned slot within the device. -/
theorem Swap.Inv.store {page : Page α} {i : ℕ} (h : s.Inv used)
    (hs : swapStore s page = some (s', i)) :
    s'.Inv (if i = indexError then used else (i, page) :: used) ∧
      (i ≠ indexError → i ∉ used.map Prod.fst ∧ i % blockPerPage = 0 ∧
        i + blockPerPage ≤ s.block.size) := by
  have hlt := s.block.size_lt
  have htop := h.top_le
  cases hfl : s.freeList with
  | nil =>
      by_cases hfit : (s.topIndex + blockPerPage) % 2 ^ 32 < s.block.size
      · -- the slot at `top_index`
        have hta := h.top_aligned
        have herr : s.topIndex ≠ indexError := by
          simp only [indexError, blockPerPage] at hta ⊢; omega
        simp only [swapStore, hfl, if_pos hfit, if_neg herr, Option.map_eq_some',
          Prod.mk.injEq] at hs
        obtain ⟨b, hw, rfl, rfl⟩ := hs
        obtain ⟨-, hin, -, -⟩ := Block.writePage_spec hw
        have h7 := hin ⟨7, by decide⟩ (List.mem_finRange _)
        have hwrap : s.topIndex + blockPerPage < 2 ^ 32 := by
          simp only [blockPerPage, Fin.val_mk] at *; omega
        rw [Nat.mod_eq_of_lt hwrap] at hfit ⊢
        have hnot : s.topIndex ∉ used.map Prod.fst := fun hm => by
          have := h.below_top _ (List.mem_append_left _ hm); omega
        obtain ⟨hsize, hstored⟩ := h.write hta hnot hwrap.le hw
        refine ⟨?_, fun _ => ⟨hnot, hta, hfit.le⟩⟩
        rw [if_neg herr]
        refine ⟨?_, fun j hj => ?_, fun j hj => ?_, ?_, ?_, hstored⟩ <;> dsimp only at *
        · simpa using List.nodup_cons.2 ⟨hnot, by simpa [hfl] using h.nodup⟩
        · simp only [List.append_nil, List.map_cons, List.mem_cons] at hj
          rcases hj with rfl | hj
          · exact hta
          · exact h.aligned j (by simp [hj])
        · simp only [List.append_nil, List.map_cons, List.mem_cons] at hj
          rcases hj with rfl | hj
          · exact le_rfl
          · have := h.below_top j (by simp [hj]); omega
        · unfold blockPerPage at *; omega
        · rw [hsize]; exact hfit.le
      · -- no slot
        simp only [swapStore, hfl, if_neg hfit, if_pos rfl, Option.some.injEq, Prod.mk.injEq] at hs
        obtain ⟨rfl, rfl⟩ := hs
        exact ⟨by simpa using h, fun hne => absurd rfl hne⟩
  | cons j rest =>
      -- the slot at the front of `swap_free_list`
      have hj : j ∈ used.map Prod.fst ++ s.freeList := by simp [hfl]
      have hja := h.aligned j hj
      have hjt := h.below_top j hj
      have herr : j ≠ indexError := by simp only [indexError, blockPerPage] at hja ⊢; omega
      simp only [swapStore, hfl, if_neg herr, Option.map_eq_some', Prod.mk.injEq] at hs
      obtain ⟨b, hw, rfl, rfl⟩ := hs
      have hnd : (j :: (used.map Prod.fst ++ rest)).Nodup :=
        h.nodup.perm (by rw [hfl]; exact List.perm_middle)
      have hnot : j ∉ used.map Prod.fst := fun hm =>
        (List.nodup_cons.1 hnd).1 (List.mem_append_left _ hm)
      have hmem : ∀ k ∈ ((j, page) :: used).map Prod.fst ++ rest,
          k ∈ used.map Prod.fst ++ s.freeList := fun k hk => by
        simp only [List.map_cons, List.cons_append, List.mem_cons, List.mem_append] at hk
        rcases hk with rfl | hk | hk
        · exact hj
        · simp [hk]
        · simp [hfl, hk]
      obtain ⟨hsize, hstored⟩ := h.write hja hnot (by omega) hw
      refine ⟨?_, fun _ => ⟨hnot, hja, by omega⟩⟩
      rw [if_neg herr]
      exact ⟨by simpa using hnd, fun k hk => h.aligned k (hmem k hk),
        fun k hk => h.below_top k (hmem k hk), h.top_aligned, hsize ▸ htop, hstored⟩

/-- `swap_free` of a slot in use keeps the partition. -/
theorem Swap.Inv.free {i : ℕ} (h : s.Inv used) (hi : i ∈ used.map Prod.fst)
    (hs : swapFree s i = some s') : s'.Inv (used.filter fun p => p.1 ≠ i) := by
  have hia := h.aligned i (List.mem_append_left _ hi)
  have hit := h.below_top i (List.mem_append_left _ hi)
  have hlt := s.block.size_lt
  have htop := h.top_le
  have hkeys : (used.map Prod.fst).Perm (i :: (used.map Prod.fst).filter (· ≠ i)) := by
    have hnd := (List.nodup_append.1 h.nodup).1
    refine (List.perm_cons_erase hi).trans (List.Perm.cons _ (.of_eq ?_))
    rw [hnd.erase_eq_filter]
    exact List.filter_congr fun x _ => by by_cases hx : x = i <;> simp [hx]
  have hnd' := h.nodup.perm (hkeys.append_right _)
  have hsub : ∀ j ∈ (used.map Prod.fst).filter (· ≠ i) ++ s.freeList,
      j ∈ used.map Prod.fst ++ s.freeList ∧ j ≠ i := fun j hj => by
    rcases List.mem_append.1 hj with hj | hj
    · exact ⟨List.mem_append_left _ (List.mem_of_mem_filter hj), by simpa using (List.mem_filter.1 hj).2⟩
    · exact ⟨List.mem_append_right _ hj, fun he => (List.nodup_cons.1 hnd').1 (he ▸ List.mem_append_right _ hj)⟩
  have hstored : ∀ p ∈ used.filter (fun p => p.1 ≠ i), ∀ k : Fin blockPerPage,
      s.block.data (p.1 + k) = p.2 k := fun p hp => h.stored p (List.mem_of_mem_filter hp)
  unfold swapFree at hs
  split_ifs at hs with hna htopi
  · -- the slot just below `top_index`: it is lowered
    cases hs
    have htopi' : s.topIndex = i + blockPerPage := by
      rw [htopi, Nat.mod_eq_of_lt (by omega)]
    refine ⟨by rw [map_fst_filter_ne]; exact (List.nodup_cons.1 hnd').2, fun j hj => ?_,
      fun j hj => ?_, hia, show i ≤ s.block.size by omega, hstored⟩ <;>
      rw [map_fst_filter_ne] at hj
    · exact h.aligned j (hsub j hj).1
    · obtain ⟨hm, hne⟩ := hsub j hj
      have := h.below_top j hm; have := h.aligned j hm
      show j + blockPerPage ≤ i
      unfold blockPerPage at *; omega
  · -- any other slot: to the back of `swap_free_list`
    cases hs
    refine ⟨?_, fun j hj => ?_, fun j hj => ?_, h.top_aligned, htop, hstored⟩
    · rw [map_fst_filter_ne, ← List.append_assoc]
      exact (List.nodup_cons.1 hnd').2.append (List.nodup_singleton i)
        (List.disjoint_singleton.2 (List.nodup_cons.1 hnd').1)
    · rw [map_fst_filter_ne, ← List.append_assoc, List.mem_append, List.mem_singleton] at hj
      rcases hj with hj | rfl
      · exact h.aligned j (hsub j hj).1
      · exact hia
    · rw [map_fst_filter_ne, ← List.append_assoc, List.mem_append, List.mem_singleton] at hj
      rcases hj with hj | rfl
      · exact h.below_top j (hsub j hj).1
      · exact hit

/-- `swap_load` of a slot in use reads back the page stored there, then frees the slot. -/
theorem Swap.Inv.load {i : ℕ} {page : Page α} (h : s.Inv used) (hi : (i, page) ∈ used) :
    ∃ s', swapLoad s i = some (s', page) ∧ s'.Inv (used.filter fun p => p.1 ≠ i) := by
  have hmem : i ∈ used.map Prod.fst := List.mem_map_of_mem Prod.fst hi
  have hia := h.aligned i (List.mem_append_left _ hmem)
  have hit := h.below_top i (List.mem_append_left _ hmem)
  have hread : s.block.readPage i = some page := by
    rw [Block.readPage_of_le (by have := h.top_le; omega)]
    exact congrArg some (funext fun k => h.stored _ hi k)
  have hfree : ∃ s', swapFree s i = some s' := by
    unfold swapFree; split_ifs <;> simp_all
  obtain ⟨s', hs'⟩ := hfree
  refine ⟨s', ?_, h.free hmem hs'⟩
  have herr : ¬(i = indexError ∨ i % blockPerPage ≠ 0) := by
    simp only [indexError, blockPerPage] at hia ⊢; omega
  simp only [swapLoad, if_neg herr, hread, Option.some_bind, hs', Option.map_some']

/-- **The partition holds in every run** of a client. -/
theorem SwapReach.inv {b : Block α} (hr : SwapReach b s used) : s.Inv used := by
  induction hr with
  | init => exact swapInit_inv b
  | @step s s' used used' op _ hst ih =>
      cases op with
      | store page =>
          obtain ⟨⟨s₁, i⟩, hs, he⟩ := Option.map_eq_some'.1 hst
          cases he
          exact (ih.store hs).1
      | load i =>
          simp only [swapStep] at hst
          split_ifs at hst with hi
          obtain ⟨⟨s₁, pg⟩, hl, he⟩ := Option.map_eq_some'.1 hst
          cases he
          obtain ⟨⟨j, page⟩, hj, rfl⟩ := List.mem_map.1 hi
          obtain ⟨s₂, hl₂, hinv⟩ := ih.load hj
          rw [hl₂] at hl
          cases hl
          exact hinv
      | free i =>
          simp only [swapStep] at hst
          split_ifs at hst with hi
          obtain ⟨s₁, hf, he⟩ := Option.map_eq_some'.1 hst
          cases he
          exact ih.free hi hf

/-- **`swap.c` serves its clients soundly.**  In every run of a client, a slot `swap_store`
returns, unless it is `(index_t) -1`, is not in use, starts at a multiple of `BLOCK_PER_PAGE` and
ends within the device; and `swap_load` of a slot in use succeeds and returns exactly the page
stored there. -/
theorem swap_slots_sound {b : Block α} (hr : SwapReach b s used) :
    (∀ (page : Page α) s' i, swapStore s page = some (s', i) → i ≠ indexError →
      i ∉ used.map Prod.fst ∧ i % blockPerPage = 0 ∧ i + blockPerPage ≤ s.block.size) ∧
    ∀ i page, (i, page) ∈ used → ∃ s', swapLoad s i = some (s', page) := by
  have h := hr.inv
  exact ⟨fun _ _ _ hs => (h.store hs).2, fun _ _ hi => (h.load hi).imp fun _ h => h.1⟩

/-! ### The last slot of the device -/

/-- `swap_store` with an empty `swap_free_list` and no room below the end of the device for a slot
at `top_index` returns `(index_t) -1` and changes nothing. -/
theorem swapStore_of_full {page : Page α} (hfl : s.freeList = [])
    (h : s.block.size ≤ (s.topIndex + blockPerPage) % 2 ^ 32) :
    swapStore s page = some (s, indexError) := by
  unfold swapStore
  rw [hfl]
  dsimp only
  rw [if_neg (Nat.not_lt.2 h), if_pos rfl]

/-- `swap_store` keeps the size of the device, and leaves `top_index` or sets it below the end of
the device: it raises it only past the strict test `top_index + BLOCK_PER_PAGE < block_size`. -/
theorem swapStore_top {page : Page α} {i : ℕ} (hs : swapStore s page = some (s', i)) :
    s'.block.size = s.block.size ∧ (s'.topIndex = s.topIndex ∨ s'.topIndex < s.block.size) := by
  cases hfl : s.freeList with
  | nil =>
      by_cases hfit : (s.topIndex + blockPerPage) % 2 ^ 32 < s.block.size
      · simp only [swapStore, hfl, if_pos hfit] at hs
        split_ifs at hs
        · cases hs; exact ⟨rfl, .inr hfit⟩
        · obtain ⟨b, hw, he⟩ := Option.map_eq_some'.1 hs
          cases he
          exact ⟨(Block.writePage_spec hw).1, .inr hfit⟩
      · rw [swapStore_of_full hfl (Nat.not_lt.1 hfit)] at hs
        cases hs
        exact ⟨rfl, .inl rfl⟩
  | cons j rest =>
      simp only [swapStore, hfl] at hs
      split_ifs at hs
      · cases hs; exact ⟨rfl, .inl rfl⟩
      · obtain ⟨b, hw, he⟩ := Option.map_eq_some'.1 hs
        cases he
        exact ⟨(Block.writePage_spec hw).1, .inl rfl⟩

/-- `swap_free` of a slot in use keeps the device, and leaves `top_index` or lowers it to the slot,
which lies below the end of the device. -/
theorem Swap.Inv.free_top {i : ℕ} (h : s.Inv used) (hi : i ∈ used.map Prod.fst)
    (hs : swapFree s i = some s') :
    s'.block = s.block ∧ (s'.topIndex = s.topIndex ∨ s'.topIndex < s.block.size) := by
  have hit := h.below_top i (List.mem_append_left _ hi)
  have htop := h.top_le
  unfold swapFree at hs
  split_ifs at hs <;> cases hs
  · exact ⟨rfl, .inr (by unfold blockPerPage at hit; dsimp only; omega)⟩
  · exact ⟨rfl, .inl rfl⟩

/-- The slots in use fit below `top_index`: they are distinct and aligned. -/
theorem Swap.Inv.length_mul_le (h : s.Inv used) : used.length * blockPerPage ≤ s.topIndex := by
  have hnd := (List.nodup_append.1 h.nodup).1
  have hmem : ∀ x ∈ used.map Prod.fst, x % blockPerPage = 0 ∧ x + blockPerPage ≤ s.topIndex :=
    fun x hx => ⟨h.aligned x (List.mem_append_left _ hx), h.below_top x (List.mem_append_left _ hx)⟩
  have hk : ((used.map Prod.fst).map (· / blockPerPage)).Nodup := hnd.map_on fun x hx y hy hxy => by
    have := hmem x hx; have := hmem y hy
    simp only [blockPerPage] at *; omega
  have hsub : (used.map Prod.fst).map (· / blockPerPage) ⊆ List.range (s.topIndex / blockPerPage) :=
    fun k hk => by
      obtain ⟨x, hx, rfl⟩ := List.mem_map.1 hk
      have := hmem x hx
      simp only [List.mem_range, blockPerPage] at *; omega
  have hlen := (List.subperm_of_subset hk hsub).length_le
  simp only [List.length_map, List.length_range] at hlen
  have := Nat.div_mul_le_self s.topIndex blockPerPage
  calc used.length * blockPerPage ≤ s.topIndex / blockPerPage * blockPerPage :=
        Nat.mul_le_mul_right _ hlen
    _ ≤ s.topIndex := this

/-- In every run the device keeps its size, and `top_index` is 0 or strictly below the end of the
device. -/
theorem SwapReach.top_lt {b : Block α} (hr : SwapReach b s used) :
    s.block.size = b.size ∧ (s.topIndex = 0 ∨ s.topIndex < b.size) := by
  induction hr with
  | init => exact ⟨rfl, .inl rfl⟩
  | @step s s' used used' op hr hst ih =>
      obtain ⟨hsz, htop⟩ := ih
      have h := hr.inv
      have hkeep : s'.block.size = s.block.size ∧
          (s'.topIndex = s.topIndex ∨ s'.topIndex < s.block.size) := by
        cases op with
        | store page =>
            obtain ⟨⟨s₁, i⟩, hs, he⟩ := Option.map_eq_some'.1 hst
            cases he
            exact swapStore_top hs
        | load i =>
            simp only [swapStep] at hst
            split_ifs at hst with hi
            obtain ⟨⟨s₁, pg⟩, hl, he⟩ := Option.map_eq_some'.1 hst
            cases he
            simp only [swapLoad] at hl
            split_ifs at hl
            obtain ⟨page, -, hmap⟩ := Option.bind_eq_some.1 hl
            obtain ⟨s₂, hf, he⟩ := Option.map_eq_some'.1 hmap
            obtain ⟨rfl, -⟩ := Prod.mk.inj he
            obtain ⟨hb, ht⟩ := h.free_top hi hf
            exact ⟨by rw [hb], ht⟩
        | free i =>
            simp only [swapStep] at hst
            split_ifs at hst with hi
            obtain ⟨s₁, hf, he⟩ := Option.map_eq_some'.1 hst
            cases he
            obtain ⟨hb, ht⟩ := h.free_top hi hf
            exact ⟨by rw [hb], ht⟩
      refine ⟨hkeep.1.trans hsz, ?_⟩
      rcases hkeep.2 with ht | ht
      · exact ht ▸ htop
      · exact .inr (hsz ▸ ht)

/-- **The last slot of the device is never used.**  In every run, either no slot is in use or the
slots in use cover strictly less than the device: a device of `k * BLOCK_PER_PAGE` sectors never
holds more than `k - 1` pages at once. -/
theorem SwapReach.length_mul_lt {b : Block α} (hr : SwapReach b s used) :
    used = [] ∨ used.length * blockPerPage < b.size := by
  have hle := hr.inv.length_mul_le
  rcases hr.top_lt.2 with h0 | hlt
  · left
    rw [h0] at hle
    exact List.length_eq_zero.1 (by unfold blockPerPage at hle; omega)
  · exact .inr (lt_of_le_of_lt hle hlt)

/-! ### No slot is lost -/

/-- What `swap_store` does to the allocator of a partitioned device: it takes the front of
`swap_free_list`, or takes the slot at `top_index` and raises it by one slot, or finds no slot and
changes nothing.  Only in the last case does it return `(index_t) -1`. -/
theorem Swap.Inv.store_cases {page : Page α} {i : ℕ} (h : s.Inv used)
    (hs : swapStore s page = some (s', i)) :
    (s.freeList = i :: s'.freeList ∧ s'.topIndex = s.topIndex ∧ i ≠ indexError) ∨
      (s.freeList = [] ∧ s'.freeList = [] ∧ i = s.topIndex ∧
        s'.topIndex = s.topIndex + blockPerPage ∧ i ≠ indexError) ∨
      (s.freeList = [] ∧ i = indexError ∧ s' = s ∧
        s.block.size ≤ (s.topIndex + blockPerPage) % 2 ^ 32) := by
  cases hfl : s.freeList with
  | cons j rest =>
      have hja := h.aligned j (by simp [hfl])
      have herr : j ≠ indexError := by simp only [indexError, blockPerPage] at hja ⊢; omega
      simp only [swapStore, hfl, if_neg herr, Option.map_eq_some', Prod.mk.injEq] at hs
      obtain ⟨b, -, rfl, rfl⟩ := hs
      exact .inl ⟨rfl, rfl, herr⟩
  | nil =>
      by_cases hfit : (s.topIndex + blockPerPage) % 2 ^ 32 < s.block.size
      · have hta := h.top_aligned
        have herr : s.topIndex ≠ indexError := by
          simp only [indexError, blockPerPage] at hta ⊢; omega
        simp only [swapStore, hfl, if_pos hfit, if_neg herr, Option.map_eq_some',
          Prod.mk.injEq] at hs
        obtain ⟨b, hw, rfl, rfl⟩ := hs
        -- the last sector of the slot was written, so `top_index + BLOCK_PER_PAGE` did not wrap
        have h7 := (Block.writePage_spec hw).2.1 ⟨7, by decide⟩ (List.mem_finRange _)
        have hwrap : s.topIndex + blockPerPage < 2 ^ 32 := by
          have := s.block.size_lt; have := h.top_le
          simp only [blockPerPage, Fin.val_mk] at hta h7 ⊢; omega
        exact .inr (.inl ⟨rfl, rfl, rfl, Nat.mod_eq_of_lt hwrap, herr⟩)
      · rw [swapStore_of_full hfl (Nat.not_lt.1 hfit), Option.some.injEq, Prod.mk.injEq] at hs
        obtain ⟨rfl, rfl⟩ := hs
        exact .inr (.inr ⟨rfl, rfl, rfl, Nat.not_lt.1 hfit⟩)

/-- A successful `swap_load` is a `swap_free` of the slot read. -/
theorem swapFree_of_swapLoad {i : ℕ} {page : Page α} (hl : swapLoad s i = some (s', page)) :
    swapFree s i = some s' := by
  unfold swapLoad at hl
  split_ifs at hl
  obtain ⟨pg, -, hmap⟩ := Option.bind_eq_some.1 hl
  obtain ⟨s₂, hf, he⟩ := Option.map_eq_some'.1 hmap
  cases he
  exact hf

/-- What one operation of a client does: a `swap_store`, or a `swap_free` of a slot in use, which
leaves the slots in use. -/
theorem swapStep_cases {op : SwapOp α} (hst : swapStep s used op = some (s', used')) :
    (∃ page i, swapStore s page = some (s', i) ∧
        used' = if i = indexError then used else (i, page) :: used) ∨
      ∃ i ∈ used.map Prod.fst, swapFree s i = some s' ∧ used' = used.filter fun p => p.1 ≠ i := by
  cases op with
  | store page =>
      obtain ⟨⟨s₁, i⟩, hs, he⟩ := Option.map_eq_some'.1 hst
      cases he
      exact .inl ⟨page, i, hs, rfl⟩
  | load i =>
      simp only [swapStep] at hst
      split_ifs at hst with hi
      obtain ⟨⟨s₁, pg⟩, hl, he⟩ := Option.map_eq_some'.1 hst
      cases he
      exact .inr ⟨i, hi, swapFree_of_swapLoad hl, rfl⟩
  | free i =>
      simp only [swapStep] at hst
      split_ifs at hst with hi
      obtain ⟨s₁, hf, he⟩ := Option.map_eq_some'.1 hst
      cases he
      exact .inr ⟨i, hi, hf, rfl⟩

/-- Every slot below `top_index` is in use or in `swap_free_list`. -/
def Swap.Covers (s : Swap α) (used : Slots α) : Prop :=
  ∀ j, j % blockPerPage = 0 → j < s.topIndex → j ∈ used.map Prod.fst ++ s.freeList

theorem Swap.Inv.covers_store {page : Page α} {i : ℕ} (h : s.Inv used) (hc : s.Covers used)
    (hs : swapStore s page = some (s', i)) :
    s'.Covers (if i = indexError then used else (i, page) :: used) := by
  intro j hj hjt
  rcases h.store_cases hs with ⟨hfl, htop, herr⟩ | ⟨hfl, hfl', rfl, htop, herr⟩ | ⟨-, rfl, rfl, -⟩
  · -- the front of `swap_free_list` moves to the slots in use
    have := hc j hj (htop ▸ hjt)
    rw [hfl] at this
    rw [if_neg herr]
    simp only [List.map_cons, List.cons_append, List.mem_cons, List.mem_append] at this ⊢
    exact or_left_comm.1 this
  · -- the slot at `top_index` moves to the slots in use, and `top_index` passes it
    rw [if_neg herr, List.map_cons, List.cons_append, List.mem_cons]
    by_cases hjt' : j < s.topIndex
    · have := hc j hj hjt'
      rw [hfl] at this
      exact .inr (by rwa [hfl'])
    · have := h.top_aligned
      rw [htop] at hjt
      left; unfold blockPerPage at *; omega
  · rw [if_pos rfl]; exact hc j hj hjt

theorem Swap.Inv.covers_free {i : ℕ} (h : s.Inv used) (hc : s.Covers used)
    (hi : i ∈ used.map Prod.fst) (hs : swapFree s i = some s') :
    s'.Covers (used.filter fun p => p.1 ≠ i) := by
  have hit := h.below_top i (List.mem_append_left _ hi)
  have htop := h.top_le
  have hlt := s.block.size_lt
  intro j hj hjt
  rw [map_fst_filter_ne, List.mem_append, List.mem_filter]
  unfold swapFree at hs
  split_ifs at hs with hna htopi <;> cases hs
  · -- `top_index` is lowered to the slot freed, so `j` lies below it
    rw [Nat.mod_eq_of_lt (by omega)] at htopi
    dsimp only at hjt
    have := hc j hj (by omega)
    rw [List.mem_append] at this
    exact this.imp (fun hm => ⟨hm, by simpa using Nat.ne_of_lt hjt⟩) id
  · -- the slot freed goes to the back of `swap_free_list`
    by_cases hji : j = i
    · exact .inr (by simp [hji])
    · have := hc j hj hjt
      rw [List.mem_append] at this
      exact this.imp (fun hm => ⟨hm, by simpa using hji⟩) (fun hm => by simp [hm])

/-- Every slot below `top_index` is in use or free, in every run. -/
theorem SwapReach.covers {b : Block α} (hr : SwapReach b s used) : s.Covers used := by
  induction hr with
  | init => intro j _ hj; exact absurd hj (Nat.not_lt_zero _)
  | step hr hst ih =>
      rcases swapStep_cases hst with ⟨page, i, hs, rfl⟩ | ⟨i, hi, hf, rfl⟩
      · exact hr.inv.covers_store ih hs
      · exact hr.inv.covers_free ih hi hf

/-- **No slot of the swap device is lost.**  In every run of a client, the slots in use and the
slots of `swap_free_list` are, each once, exactly the slots below `top_index`; so `swap_store`
returns `(index_t) -1` only when every slot below `top_index` is in use and no slot fits at
`top_index`, and then it changes nothing. -/
theorem swap_slots_accounted {b : Block α} (hr : SwapReach b s used) :
    (used.map Prod.fst ++ s.freeList).Perm
        ((List.range (s.topIndex / blockPerPage)).map (· * blockPerPage)) ∧
      ∀ (page : Page α) s', swapStore s page = some (s', indexError) →
        s' = s ∧ used.length = s.topIndex / blockPerPage ∧
          s.block.size ≤ (s.topIndex + blockPerPage) % 2 ^ 32 := by
  have h := hr.inv
  have hslots : ((List.range (s.topIndex / blockPerPage)).map (· * blockPerPage)).Nodup :=
    (List.nodup_range _).map fun a b (hab : a * blockPerPage = b * blockPerPage) => by
      unfold blockPerPage at hab; omega
  have hperm := (List.perm_ext_iff_of_nodup h.nodup hslots).2 fun j => by
    rw [List.mem_map]
    constructor
    · intro hj
      have := h.aligned j hj; have := h.below_top j hj
      exact ⟨j / blockPerPage, List.mem_range.2 (by unfold blockPerPage at *; omega),
        by unfold blockPerPage at *; omega⟩
    · rintro ⟨k, hk, rfl⟩
      rw [List.mem_range] at hk
      exact hr.covers _ (by simp [blockPerPage]) (by unfold blockPerPage at *; omega)
  refine ⟨hperm, fun page s' hs => ?_⟩
  rcases h.store_cases hs with ⟨-, -, herr⟩ | ⟨-, -, -, -, herr⟩ | ⟨hfl, -, rfl, hsize⟩
  · exact absurd rfl herr
  · exact absurd rfl herr
  · have hlen := hperm.length_eq
    simp only [List.length_append, List.length_map, hfl, List.length_nil, add_zero,
      List.length_range] at hlen
    exact ⟨rfl, hlen, hsize⟩

/-- On a 64-sector device a client stores two pages, in slots 0 and 8, and frees slot 0: slot 0
goes to `swap_free_list`, slot 8 stays in use, and `top_index` stays at 16. -/
theorem swap_slots_accounted_after_free : ∃ (s : Swap ℕ) (used : Slots ℕ),
    SwapReach ⟨64, by decide, fun _ => 0⟩ s used ∧ used.map Prod.fst = [8] ∧ s.freeList = [0] ∧
      s.topIndex = 16 ∧
      (used.map Prod.fst ++ s.freeList).Perm
        ((List.range (s.topIndex / blockPerPage)).map (· * blockPerPage)) ∧
      ∀ (page : Page ℕ) s', swapStore s page = some (s', indexError) →
        s' = s ∧ used.length = s.topIndex / blockPerPage ∧
          s.block.size ≤ (s.topIndex + blockPerPage) % 2 ^ 32 := by
  have h : ((swapStep (swapInit ⟨64, by decide, fun _ => 0⟩) [] (.store fun k => (k : ℕ))).bind
      fun r => (swapStep r.1 r.2 (.store fun k => (k : ℕ))).bind fun r => swapStep r.1 r.2 (.free 0)
      ).map (fun r => (r.2.map Prod.fst, r.1.freeList, r.1.topIndex)) = some ([8], [0], 16) := by
    decide
  obtain ⟨⟨s, used⟩, hrun, he⟩ := Option.map_eq_some'.1 h
  obtain ⟨⟨s₁, u₁⟩, h₁, hrun⟩ := Option.bind_eq_some.1 hrun
  obtain ⟨⟨s₂, u₂⟩, h₂, h₃⟩ := Option.bind_eq_some.1 hrun
  have hr := ((SwapReach.init.step h₁).step h₂).step h₃
  simp only [Prod.mk.injEq] at he
  exact ⟨s, used, hr, he.1, he.2.1, he.2.2, swap_slots_accounted hr⟩

/-- A device of 16 sectors, room for two pages: after one page is stored, in slot 0, `swap_store`
returns `(index_t) -1` and changes nothing, though slot 8 lies within the device and is neither in
use nor in `swap_free_list`. -/
theorem swap_store_refuses_last_slot : ∃ (s : Swap ℕ) (used : Slots ℕ),
    SwapReach ⟨16, by decide, fun _ => 0⟩ s used ∧ used.map Prod.fst = [0] ∧ s.freeList = [] ∧
      8 + blockPerPage ≤ s.block.size ∧ ∀ page : Page ℕ, swapStore s page = some (s, indexError) := by
  have h0 : (swapStep (swapInit ⟨16, by decide, fun _ => 0⟩) [] (.store fun k => (k : ℕ))).map
      (fun r => (r.2.map Prod.fst, r.1.freeList, r.1.topIndex, r.1.block.size)) =
        some ([0], [], 8, 16) := by decide
  obtain ⟨⟨s, used⟩, hst, he⟩ := Option.map_eq_some'.1 h0
  simp only [Prod.mk.injEq] at he
  obtain ⟨hu, hfl, htop, hsz⟩ := he
  refine ⟨s, used, .step .init hst, hu, hfl, by rw [hsz]; decide, fun page => ?_⟩
  exact swapStore_of_full hfl (by rw [htop, hsz]; decide)

/-- A client of a 64-sector device that has stored one page, in slot 0, and not yet loaded it. -/
theorem swap_slots_sound_after_store : ∃ (s : Swap ℕ) (used : Slots ℕ),
    SwapReach ⟨64, by decide, fun _ => 0⟩ s used ∧ used.map Prod.fst = [0] ∧
    (∀ (page : Page ℕ) s' i, swapStore s page = some (s', i) → i ≠ indexError →
      i ∉ used.map Prod.fst ∧ i % blockPerPage = 0 ∧ i + blockPerPage ≤ s.block.size) ∧
    ∀ i page, (i, page) ∈ used → ∃ s', swapLoad s i = some (s', page) := by
  have h0 : (swapStep (swapInit ⟨64, by decide, fun _ => 0⟩) [] (.store fun k => (k : ℕ))).map
      (fun r => r.2.map Prod.fst) = some [0] := by decide
  obtain ⟨⟨s, used⟩, hst⟩ := Option.map_eq_some'.1 h0
  have hr := SwapReach.step .init hst.1
  exact ⟨s, used, hr, hst.2, swap_slots_sound hr⟩

end Pintos.Vm
