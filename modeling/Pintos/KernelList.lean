import Mathlib.Data.List.Perm.Basic
import Mathlib.Data.List.Pairwise
import Mathlib.Data.List.Sort

/-!
**The ordered operations of the kernel's doubly linked lists.**

`thread.c` keeps its queues in the intrusive lists of `lib/kernel/list.c` and orders them with two
library calls: `list_insert_ordered`, which puts an element before the first element it is `less`
than, and `list_sort`, a stable merge sort.  A queue is a Lean list of thread pages here, and the
two calls are:

* `Pintos.listInsertOrdered` — the scan of `list_insert_ordered`;
* `Pintos.listSort` — `list_sort`, as the library's stable `List.mergeSort`.

Main results:

* `Pintos.listInsertOrdered_perm` — insertion adds exactly the one element;
* `Pintos.pairwise_listInsertOrdered` — **insertion keeps a list ordered**: if the list is ordered
  by a transitive relation `R` and the new element is `R`-after every element it is not `less`
  than and `R`-before the first one it is, the result is ordered by `R`.
-/

set_option autoImplicit false

namespace Pintos

variable {α : Type*}

/-- `list_insert_ordered (list, elem, less, aux)`: walk from the front and insert `x` before the
first element `e` with `less x e`, or at the back if there is none. -/
def listInsertOrdered (less : α → α → Bool) (x : α) : List α → List α
  | [] => [x]
  | e :: l => if less x e then x :: e :: l else e :: listInsertOrdered less x l

@[simp] theorem listInsertOrdered_nil (less : α → α → Bool) (x : α) :
    listInsertOrdered less x [] = [x] := rfl

theorem listInsertOrdered_cons (less : α → α → Bool) (x e : α) (l : List α) :
    listInsertOrdered less x (e :: l) =
      if less x e then x :: e :: l else e :: listInsertOrdered less x l := rfl

/-- Insertion adds exactly the one element. -/
theorem listInsertOrdered_perm (less : α → α → Bool) (x : α) :
    ∀ l : List α, (listInsertOrdered less x l).Perm (x :: l)
  | [] => List.Perm.refl _
  | e :: l => by
      rw [listInsertOrdered_cons]
      split
      · exact List.Perm.refl _
      · exact ((listInsertOrdered_perm less x l).cons e).trans (List.Perm.swap x e l)

@[simp] theorem mem_listInsertOrdered {less : α → α → Bool} {x a : α} {l : List α} :
    a ∈ listInsertOrdered less x l ↔ a = x ∨ a ∈ l := by
  rw [(listInsertOrdered_perm less x l).mem_iff, List.mem_cons]

@[simp] theorem length_listInsertOrdered (less : α → α → Bool) (x : α) (l : List α) :
    (listInsertOrdered less x l).length = l.length + 1 :=
  (listInsertOrdered_perm less x l).length_eq

/-- **Insertion keeps a list ordered.** -/
theorem pairwise_listInsertOrdered {R : α → α → Prop} (htrans : ∀ a b c, R a b → R b c → R a c)
    {less : α → α → Bool} {x : α} :
    ∀ {l : List α}, l.Pairwise R → (∀ e ∈ l, less x e = false → R e x) →
      (∀ e ∈ l, less x e = true → R x e) → (listInsertOrdered less x l).Pairwise R
  | [], _, _, _ => List.pairwise_singleton R x
  | e :: l, hl, hle, hlt => by
      rw [List.pairwise_cons] at hl
      rw [listInsertOrdered_cons]
      cases hx : less x e with
      | true =>
          have hxe := hlt e (List.mem_cons_self e l) hx
          refine List.Pairwise.cons (fun y hy => ?_) (hl.2.cons hl.1)
          rcases List.mem_cons.1 hy with rfl | hy
          · exact hxe
          · exact htrans _ _ _ hxe (hl.1 y hy)
      | false =>
          refine List.Pairwise.cons (fun y hy => ?_) (pairwise_listInsertOrdered htrans hl.2
            (fun e' he' => hle e' (List.mem_cons_of_mem e he'))
            (fun e' he' => hlt e' (List.mem_cons_of_mem e he')))
          rcases mem_listInsertOrdered.1 hy with rfl | hy
          · exact hle e (List.mem_cons_self e l) hx
          · exact hl.1 y hy

/-- `list_sort (list, less, aux)`: a stable merge sort that puts `a` before `b` unless `less b a`. -/
def listSort (less : α → α → Bool) (l : List α) : List α :=
  l.mergeSort fun a b => !less b a

theorem listSort_perm (less : α → α → Bool) (l : List α) : (listSort less l).Perm l :=
  List.mergeSort_perm l _

end Pintos
