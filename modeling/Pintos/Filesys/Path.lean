import Mathlib.Data.List.Basic

/-!
**Paths in `directory.c`: the `strtok_r` loop and `dir_parser`.**

`dir_open_path` and `dir_parser` both cut a path into tokens with the loop
`for (token = strtok_r (copy, "/", &save_ptr); token != NULL; token = strtok_r (NULL, "/", &save_ptr))`.
A call of `strtok_r` skips the `/`s at its position, returns `NULL` if none but `/`s were left,
and otherwise returns the run of other characters that follows, ending the token at the next `/`
and leaving `save_ptr` past it.  The tokens the loop sees are therefore the non-empty pieces of
the path between `/`s, which we state with `List.splitOn`.

`dir_parser (path, directory, name)` writes all tokens but the last to `directory`, each followed
by a `/` and the whole led by a `/` when `path` is absolute, and the last token to `name`.

A path is the list of the characters of the C string before its terminator.

Main definitions:

* `Pintos.Filesys.strtokR`, `Pintos.Filesys.strtokTokens` — one call of `strtok_r`, and the tokens
  of the loop;
* `Pintos.Filesys.pathTokens` — the non-empty `/`-separated pieces of a path;
* `Pintos.Filesys.dirParser` — `dir_parser`.

Main results:

* `Pintos.Filesys.strtokTokens_eq_pathTokens` — the loop sees exactly the pieces of the path;
* `Pintos.Filesys.dir_parser_splits` — **`dir_parser` splits a path into its directory and its
  last token**, and the two fit in buffers of the size of the path.
-/

set_option autoImplicit false

namespace Pintos.Filesys

/-! ### `strtok_r` -/

/-- One call of `strtok_r (s, "/", &save_ptr)`: the token, and where `save_ptr` is left.  The `/`s
before the token are skipped, and the `/` that ends it, if any, is overwritten by the terminator
and passed over. -/
def strtokR (s : List Char) : Option (List Char × List Char) :=
  match s.dropWhile (· == '/') with
  | [] => none
  | c :: r => some (c :: r.takeWhile (· != '/'), (r.dropWhile (· != '/')).drop 1)

@[simp] theorem strtokR_nil : strtokR [] = none := rfl

@[simp] theorem strtokR_slash (s : List Char) : strtokR ('/' :: s) = strtokR s := by
  simp [strtokR]

theorem strtokR_cons {c : Char} (hc : c ≠ '/') (s : List Char) :
    strtokR (c :: s) = some (c :: s.takeWhile (· != '/'), (s.dropWhile (· != '/')).drop 1) := by
  simp [strtokR, hc]

/-- The rest that `strtok_r` leaves is shorter than the string it was given. -/
theorem length_lt_of_strtokR : ∀ {s tok rest : List Char}, strtokR s = some (tok, rest) →
    rest.length < s.length
  | [], _, _, h => by cases h
  | c :: s, tok, rest, h => by
      by_cases hc : c = '/'
      · subst hc
        rw [strtokR_slash] at h
        exact Nat.lt_succ_of_lt (length_lt_of_strtokR h)
      · rw [strtokR_cons hc, Option.some.injEq, Prod.mk.injEq] at h
        rw [← h.2, List.length_drop, List.length_cons]
        have : (s.dropWhile (· != '/')).length ≤ s.length := (List.dropWhile_suffix _).length_le
        omega

/-- The tokens that the loop `strtok_r (copy, "/", &save_ptr)`, then
`strtok_r (NULL, "/", &save_ptr)` until `NULL`, hands to its body. -/
def strtokTokens (s : List Char) : List (List Char) :=
  match _h : strtokR s with
  | none => []
  | some (tok, rest) => tok :: strtokTokens rest
termination_by s.length
decreasing_by exact length_lt_of_strtokR _h

theorem strtokTokens_of_none {s : List Char} (h : strtokR s = none) : strtokTokens s = [] := by
  rw [strtokTokens]; split <;> simp_all

theorem strtokTokens_of_some {s tok rest : List Char} (h : strtokR s = some (tok, rest)) :
    strtokTokens s = tok :: strtokTokens rest := by
  rw [strtokTokens]; split <;> simp_all

@[simp] theorem strtokTokens_nil : strtokTokens [] = [] := strtokTokens_of_none rfl

@[simp] theorem strtokTokens_slash (s : List Char) : strtokTokens ('/' :: s) = strtokTokens s := by
  cases h : strtokR s with
  | none => rw [strtokTokens_of_none h, strtokTokens_of_none (by rwa [strtokR_slash])]
  | some r => rw [strtokTokens_of_some h, strtokTokens_of_some (by rwa [strtokR_slash])]

theorem strtokTokens_cons {c : Char} (hc : c ≠ '/') (s : List Char) :
    strtokTokens (c :: s) = (c :: s.takeWhile (· != '/')) ::
      strtokTokens ((s.dropWhile (· != '/')).drop 1) :=
  strtokTokens_of_some (strtokR_cons hc s)

/-- The token of one call is non-empty and holds no `/`. -/
theorem ne_nil_not_mem_of_strtokR : ∀ {s tok rest : List Char}, strtokR s = some (tok, rest) →
    tok ≠ [] ∧ '/' ∉ tok
  | [], _, _, h => by cases h
  | c :: s, tok, rest, h => by
      by_cases hc : c = '/'
      · subst hc
        exact ne_nil_not_mem_of_strtokR (by rwa [strtokR_slash] at h)
      · rw [strtokR_cons hc, Option.some.injEq, Prod.mk.injEq] at h
        rw [← h.1]
        refine ⟨List.cons_ne_nil _ _, ?_⟩
        rintro (_ | ⟨_, hm⟩)
        · exact hc rfl
        · simpa using List.mem_takeWhile_imp hm

/-- Every token is non-empty and holds no `/`. -/
theorem strtokTokens_ne_nil_not_mem (s : List Char) :
    ∀ t ∈ strtokTokens s, t ≠ [] ∧ '/' ∉ t := by
  induction s using strtokTokens.induct with
  | case1 s h => simp [strtokTokens_of_none h]
  | case2 s tok rest h ih =>
      rw [strtokTokens_of_some h]
      rintro t (_ | ⟨_, ht⟩)
      · exact ne_nil_not_mem_of_strtokR h
      · exact ih t ht

/-! ### The pieces of a path -/

/-- The non-empty `/`-separated pieces of a path, in order. -/
def pathTokens (p : List Char) : List (List Char) := (p.splitOn '/').filter (· ≠ [])

/-- `splitOn` takes the characters before the first `/` as its first piece, and splits what
follows that `/`. -/
theorem splitOn_slash (l : List Char) : l.splitOn '/' = l.takeWhile (· != '/') ::
    if l.dropWhile (· != '/') = [] then [] else ((l.dropWhile (· != '/')).drop 1).splitOn '/' := by
  induction l with
  | nil => rfl
  | cons d l ih =>
      simp only [List.splitOn] at ih ⊢
      rw [List.splitOnP_cons]
      by_cases hd : d = '/'
      · subst hd; simp
      · have hd' : (d == '/') = false := by simpa using hd
        have hd'' : (d != '/') = true := by simpa using hd
        rw [if_neg (by simp [hd']), ih]
        simp only [List.takeWhile_cons, List.dropWhile_cons, hd'', if_true]
        rfl

@[simp] theorem pathTokens_nil : pathTokens [] = [] := rfl

@[simp] theorem pathTokens_slash (p : List Char) : pathTokens ('/' :: p) = pathTokens p := by
  simp [pathTokens, List.splitOn, List.splitOnP_cons]

theorem pathTokens_cons {c : Char} (hc : c ≠ '/') (s : List Char) :
    pathTokens (c :: s) = (c :: s.takeWhile (· != '/')) ::
      pathTokens ((s.dropWhile (· != '/')).drop 1) := by
  rw [pathTokens, splitOn_slash]
  have hc' : (c != '/') = true := by simpa using hc
  simp only [List.takeWhile_cons, List.dropWhile_cons, hc', if_true]
  split_ifs with h
  · simp [h, pathTokens]
  · simp [pathTokens]

theorem pathTokens_of_strtokR_none : ∀ {p : List Char}, strtokR p = none → pathTokens p = []
  | [], _ => rfl
  | c :: p, h => by
      by_cases hc : c = '/'
      · subst hc
        rw [pathTokens_slash]
        exact pathTokens_of_strtokR_none (by rwa [strtokR_slash] at h)
      · rw [strtokR_cons hc] at h; cases h

theorem pathTokens_of_strtokR_some : ∀ {p tok rest : List Char}, strtokR p = some (tok, rest) →
    pathTokens p = tok :: pathTokens rest
  | [], _, _, h => by cases h
  | c :: p, tok, rest, h => by
      by_cases hc : c = '/'
      · subst hc
        rw [pathTokens_slash]
        exact pathTokens_of_strtokR_some (by rwa [strtokR_slash] at h)
      · rw [strtokR_cons hc, Option.some.injEq, Prod.mk.injEq] at h
        rw [pathTokens_cons hc, h.1, h.2]

/-- **The loop sees exactly the pieces of the path**: the tokens `strtok_r` returns are the
non-empty `/`-separated pieces of the path, in order. -/
theorem strtokTokens_eq_pathTokens (p : List Char) : strtokTokens p = pathTokens p := by
  induction p using strtokTokens.induct with
  | case1 p h => rw [strtokTokens_of_none h, pathTokens_of_strtokR_none h]
  | case2 p tok rest h ih => rw [strtokTokens_of_some h, pathTokens_of_strtokR_some h, ih]

/-- The tokens and the separators after them take no more room than the path and its
terminator. -/
theorem length_of_strtokR : ∀ {p tok rest : List Char}, strtokR p = some (tok, rest) →
    (rest = [] ∧ tok.length ≤ p.length) ∨ tok.length + 1 + rest.length ≤ p.length
  | [], _, _, h => by cases h
  | c :: p, tok, rest, h => by
      by_cases hc : c = '/'
      · subst hc
        rw [strtokR_slash] at h
        exact (length_of_strtokR h).imp (fun h => ⟨h.1, by simp only [List.length_cons]; omega⟩)
          fun h => by simp only [List.length_cons]; omega
      · rw [strtokR_cons hc, Option.some.injEq, Prod.mk.injEq] at h
        obtain ⟨rfl, rfl⟩ := h
        have hl := congrArg List.length (List.takeWhile_append_dropWhile (· != '/') p)
        rw [List.length_append] at hl
        cases hd : p.dropWhile (· != '/') with
        | nil => left; simp only [List.drop_nil, List.length_cons, true_and]; rw [hd] at hl; simp at hl; omega
        | cons d r => right; rw [hd] at hl; simp only [List.length_cons, List.drop_succ_cons, List.drop_zero] at hl ⊢; omega

theorem length_flatMap_strtokTokens_le (p : List Char) :
    ((strtokTokens p).flatMap (· ++ ['/'])).length ≤ p.length + 1 := by
  induction p using strtokTokens.induct with
  | case1 p h => simp [strtokTokens_of_none h]
  | case2 p tok rest h ih =>
      rw [strtokTokens_of_some h, List.flatMap_cons, List.length_append, List.length_append,
        List.length_singleton]
      rcases length_of_strtokR h with ⟨rfl, hl⟩ | hl
      · simp only [strtokTokens_nil, List.flatMap_nil, List.length_nil]; omega
      · omega

/-! ### `dir_parser` -/

/-- The loop of `dir_parser`, from what it has written to `directory` and its `last_token`: each
token is held back as `last_token`, and the one it replaces, when non-empty, goes to `directory`
with a `/` after it. -/
def parserLoop : List (List Char) → List Char → List Char → List Char × List Char
  | [], directory, lastToken => (directory, lastToken)
  | token :: tokens, directory, lastToken =>
      parserLoop tokens
        (if 0 < lastToken.length then directory ++ lastToken ++ ['/'] else directory) token

/-- `dir_parser (path, directory, name)`: the strings it writes to `directory` and to `name`. -/
def dirParser (path : List Char) : List Char × List Char :=
  parserLoop (strtokTokens path)
    (if 0 < path.length ∧ path.head? = some '/' then ['/'] else []) []

theorem parserLoop_eq : ∀ (tokens : List (List Char)) (directory lastToken : List Char),
    lastToken ≠ [] → (∀ t ∈ tokens, t ≠ []) →
    parserLoop tokens directory lastToken =
      (directory ++ (lastToken :: tokens).dropLast.flatMap (· ++ ['/']),
        (lastToken :: tokens).getLast (List.cons_ne_nil _ _))
  | [], _, _, _, _ => by simp [parserLoop]
  | t :: tokens, directory, lastToken, hl, ht => by
      rw [parserLoop, if_pos (List.length_pos.2 hl),
        parserLoop_eq tokens _ t (ht t (List.mem_cons_self _ _)) fun u hu => ht u (List.mem_cons_of_mem _ hu)]
      simp

/-- What `dir_parser` writes: the tokens of the path but the last, each followed by `/` and led by
`/` for an absolute path, and the last token. -/
theorem dirParser_eq (p : List Char) :
    dirParser p = ((if p.head? = some '/' then ['/'] else []) ++
      (pathTokens p).dropLast.flatMap (· ++ ['/']), (pathTokens p).getLastD []) := by
  have hlead : (0 < p.length ∧ p.head? = some '/') ↔ p.head? = some '/' := by
    cases p <;> simp
  rw [dirParser, if_congr hlead rfl rfl, ← strtokTokens_eq_pathTokens]
  have hne := strtokTokens_ne_nil_not_mem p
  cases ht : strtokTokens p with
  | nil => simp [parserLoop]
  | cons t ts =>
      rw [ht] at hne
      rw [parserLoop, List.length_nil, if_neg (lt_irrefl 0),
        parserLoop_eq ts _ t (hne t (List.mem_cons_self _ _)).1 fun u hu => (hne u (List.mem_cons_of_mem _ hu)).1]
      simp [List.getLastD_eq_getLast?, List.getLast?_eq_getLast]

section Tokens

variable {D : List (List Char)}

/-- A token followed by a `/` is the first piece of what it leads. -/
theorem pathTokens_append_slash {t : List Char} (ht : t ≠ [] ∧ '/' ∉ t) (rest : List Char) :
    pathTokens (t ++ '/' :: rest) = t :: pathTokens rest := by
  rw [pathTokens, List.splitOn, List.splitOnP_first _ _ (fun x hx => by
    simpa using fun h : x = '/' => ht.2 (h ▸ hx)) '/' (by simp)]
  simp [pathTokens, List.splitOn, ht.1]

theorem pathTokens_flatMap (hD : ∀ t ∈ D, t ≠ [] ∧ '/' ∉ t) :
    pathTokens (D.flatMap (· ++ ['/'])) = D := by
  induction D with
  | nil => rfl
  | cons t D ih =>
      rw [List.flatMap_cons, List.append_assoc, List.singleton_append,
        pathTokens_append_slash (hD t (List.mem_cons_self _ _)),
        ih fun u hu => hD u (List.mem_cons_of_mem _ hu)]

theorem head?_flatMap_ne (hD : ∀ t ∈ D, t ≠ [] ∧ '/' ∉ t) :
    (D.flatMap (· ++ ['/'])).head? ≠ some '/' := by
  rcases D with _ | ⟨_ | ⟨c, t⟩, D⟩
  · simp
  · exact absurd rfl (hD [] (List.mem_cons_self _ _)).1
  · simpa using fun h : c = '/' => (hD _ (List.mem_cons_self _ _)).2 (h ▸ List.mem_cons_self _ _)

end Tokens

/-- The tokens of a path, each with a separator after it, fit in the path and its terminator, and
in the path alone when it is absolute. -/
theorem length_flatMap_pathTokens_le (p : List Char) :
    ((pathTokens p).flatMap (· ++ ['/'])).length + (if p.head? = some '/' then 1 else 0) ≤
      p.length + 1 := by
  have h := length_flatMap_strtokTokens_le
  rcases p with _ | ⟨c, p⟩
  · simp
  · by_cases hc : c = '/'
    · subst hc
      simpa [← strtokTokens_eq_pathTokens] using h p
    · simpa [← strtokTokens_eq_pathTokens, hc] using h (c :: p)

/-- Every piece of a path is non-empty and holds no `/`. -/
theorem pathTokens_ne_nil_not_mem (p : List Char) : ∀ t ∈ pathTokens p, t ≠ [] ∧ '/' ∉ t :=
  strtokTokens_eq_pathTokens p ▸ strtokTokens_ne_nil_not_mem p

/-! ### What `dir_parser` writes -/

theorem dirParser_snd (p : List Char) : (dirParser p).2 = (pathTokens p).getLastD [] := by
  rw [dirParser_eq]

/-- The tokens of the directory `dir_parser` writes are those of the path but the last. -/
theorem pathTokens_dirParser_fst (p : List Char) :
    pathTokens (dirParser p).1 = (pathTokens p).dropLast := by
  have hD := fun t ht => pathTokens_ne_nil_not_mem p t (List.dropLast_subset _ ht)
  rw [dirParser_eq]
  split_ifs <;> simp [pathTokens_flatMap hD]

/-- The directory `dir_parser` writes begins with `/` exactly when the path does. -/
theorem head?_dirParser_fst (p : List Char) :
    (dirParser p).1.head? = some '/' ↔ p.head? = some '/' := by
  rw [dirParser_eq]
  by_cases hp : p.head? = some '/'
  · simp [hp]
  · simpa [hp] using
      head?_flatMap_ne fun t ht => pathTokens_ne_nil_not_mem p t (List.dropLast_subset _ ht)

/-- `name` is empty and the path has no token, or `name` is the last token of the path. -/
theorem dirParser_snd_cases (p : List Char) :
    ((dirParser p).2 = [] ∧ pathTokens p = []) ∨
      ∃ D, pathTokens p = D ++ [(dirParser p).2] ∧ (dirParser p).2 ≠ [] ∧ '/' ∉ (dirParser p).2 := by
  have hne := pathTokens_ne_nil_not_mem p
  rw [dirParser_snd]
  rcases List.eq_nil_or_concat (pathTokens p) with hT | ⟨D, x, hT⟩
  · exact .inl ⟨by rw [hT]; rfl, hT⟩
  · rw [hT, List.concat_eq_append] at hne
    rw [hT, List.concat_eq_append, List.getLastD_concat]
    exact .inr ⟨D, rfl, hne x (List.mem_append_right _ (List.mem_singleton_self _))⟩

/-- `directory` and `name` together are no longer than the path. -/
theorem length_dirParser_le (p : List Char) :
    (dirParser p).1.length + (dirParser p).2.length ≤ p.length := by
  have hsum := length_flatMap_pathTokens_le p
  have hlead : (if p.head? = some '/' then 1 else 0) ≤ p.length := by
    rcases p with _ | ⟨c, p⟩ <;> simp only [List.head?_nil, List.head?_cons] <;> split_ifs <;> simp_all
  rw [dirParser_eq]
  rcases List.eq_nil_or_concat (pathTokens p) with hT | ⟨D, x, hT⟩
  · rw [hT]
    split_ifs at hlead ⊢ <;> simp [hlead]
  · rw [hT, List.concat_eq_append, List.flatMap_append, List.length_append] at hsum
    rw [hT, List.concat_eq_append, List.dropLast_concat, List.getLastD_concat, List.length_append]
    by_cases hp : p.head? = some '/' <;> simp [hp] at hsum ⊢ <;> omega

/-- **`dir_parser` splits a path into a directory and a name.** For every path `p`: `name` holds
no `/`; `directory` begins with `/` exactly when `p` does; the tokens of `directory`, followed by
`name` when it is not empty, are the tokens of `p`; `name` is empty exactly when `p` has no token;
and `directory` and `name` together are no longer than `p`, so that buffers of `strlen (p) + 1`
bytes hold either. -/
theorem dir_parser_splits (p : List Char) :
    '/' ∉ (dirParser p).2 ∧
      ((dirParser p).1.head? = some '/' ↔ p.head? = some '/') ∧
      pathTokens (dirParser p).1 ++ (if (dirParser p).2 = [] then [] else [(dirParser p).2]) =
        pathTokens p ∧
      ((dirParser p).2 = [] ↔ pathTokens p = []) ∧
      (dirParser p).1.length + (dirParser p).2.length ≤ p.length := by
  refine ⟨?_, head?_dirParser_fst p, ?_, ?_, length_dirParser_le p⟩ <;>
    rcases dirParser_snd_cases p with ⟨h₁, h₂⟩ | ⟨D, hT, hx, hs⟩
  · rw [h₁]; exact List.not_mem_nil _
  · exact hs
  · rw [pathTokens_dirParser_fst, h₁, h₂]; rfl
  · rw [pathTokens_dirParser_fst, hT, if_neg hx, List.dropLast_concat]
  · simp [h₁, h₂]
  · simp [hx, hT]

end Pintos.Filesys
