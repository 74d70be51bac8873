import BlockData.Proofs.Chain.Selection

/-!
# Searching a chain by halving

As a chain is sorted, the place of its first schema that is newer than a version can be found
without looking at each of them: the middle of what is left tells in which half it lies.

* `bisect` is the search, `bisect_eq` says what it finds;
* `drop_firstNewer` says that the schemas from the place found on are those newer than the
  version.
-/

namespace BlockData.Chain

/-- The first place from `low` on, and at most `high`, where a test fails.  Each step keeps the
half in which it lies. -/
def bisect (test : Nat → Bool) (low high : Nat) : Nat :=
  if low < high then
    let middle := low + (high - low) / 2
    if test middle then bisect test (middle + 1) high else bisect test low middle
  else
    low
  termination_by high - low

/-- The search finds the bound of a test that holds up to it. -/
theorem bisect_eq {test : Nat → Bool} {bound : Nat} (low high : Nat) (hlow : low ≤ bound)
    (hhigh : bound ≤ high) (h : ∀ i, low ≤ i → i < high → (test i ↔ i < bound)) :
    bisect test low high = bound := by
  fun_induction bisect test low high with
  | case1 low high hlt middle hmiddle ih =>
    -- the middle lies before the bound
    have hbefore : middle < bound := (h middle (by omega) (by omega)).1 hmiddle
    refine ih hbefore hhigh ?_
    intro i hi
    exact h i (by omega)
  | case2 low high hlt middle hmiddle ih =>
    have hnot : ¬ middle < bound := fun hlt => hmiddle ((h middle (by omega) (by omega)).2 hlt)
    refine ih hlow (by omega) ?_
    intro i hi hi'
    exact h i hi (by omega)
  | case3 low high hnlt => omega

/-- The place of the first schema that is newer than a version. -/
def firstNewer (chain : Chain) (version : Version) : Nat :=
  bisect (fun i => chain.schemas[i]?.any (·.version ≤ version)) 0 chain.size

/-- A schema stands before the bound of its chain exactly if it is not newer. -/
theorem any_getElem?_iff (chain : Chain) (version : Version) (i : Nat) :
    chain.schemas[i]?.any (·.version ≤ version) ↔ i < (chain.upTo version).size := by
  have hsplit := chain.schemas_eq_append version
  constructor
  · intro hany
    refine Decidable.byContradiction fun hge => ?_
    -- a schema behind the bound is newer
    have hbehind : chain.schemas[i]? =
        (chain.newerThan version)[i - (chain.upTo version).size]? := by
      rw [hsplit, List.getElem?_append_right (Nat.le_of_not_lt hge)]
      rfl
    rw [hbehind, Option.any_eq_true] at hany
    rcases hany with ⟨schema, hschema, hle⟩
    have hmem := List.mem_of_getElem? hschema
    rw [newerThan_eq_filter, List.mem_filter] at hmem
    exact absurd (of_decide_eq_true hmem.2) (of_decide_eq_true hle)
  · intro hlt
    have hbefore : chain.schemas[i]? = (chain.upTo version).schemas[i]? := by
      rw [hsplit, List.getElem?_append_left hlt]
    rw [hbefore, List.getElem?_eq_getElem hlt]
    have hmem := List.getElem_mem (l := (chain.upTo version).schemas) hlt
    exact (List.mem_filter.1 hmem).2

/-- The search by halving finds where the newer schemas begin. -/
theorem firstNewer_eq (chain : Chain) (version : Version) :
    chain.firstNewer version = (chain.upTo version).size := by
  refine bisect_eq 0 chain.size (Nat.zero_le _) (List.length_filter_le _ _) ?_
  intro i _ _
  exact chain.any_getElem?_iff version i

/-- The schemas from the place found on are those newer than the version. -/
theorem drop_firstNewer (chain : Chain) (version : Version) :
    chain.schemas.drop (chain.firstNewer version) = chain.newerThan version := by
  calc chain.schemas.drop (chain.firstNewer version)
      = ((chain.upTo version).schemas ++ chain.newerThan version).drop
          (chain.upTo version).size := by rw [firstNewer_eq, ← schemas_eq_append]
    _ = chain.newerThan version := List.drop_left

end BlockData.Chain
