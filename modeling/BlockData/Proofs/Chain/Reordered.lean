import BlockData.Proofs.BlockState.Reordered
import BlockData.Proofs.Chain.Documents
import BlockData.Proofs.Chain.Tag

/-!
# Upgrades and the order of children

Every schema of a chain keeps two blocks the same up to the order of their properties, and what
is read from a compound and written into it does not depend on the order of its children.
`order_has_no_influence` puts both together.
-/

namespace BlockData.Chain

/-- Schemas one after the other keep two blocks reordered. -/
theorem reordered_applyAll (schemas : List Schema) {state other : BlockState}
    (h : state.Reordered other) :
    (applyAll schemas state).Reordered (applyAll schemas other) :=
  List.foldl_rel h fun schema _ _ _ hrel => hrel.apply_schema schema

/-- An upgrade starts without a pending name, and from then on keeps two blocks reordered. -/
theorem reordered_upgrade (chain : Chain) {state other : BlockState} (source : Version)
    (hidentifier : state.identifier = other.identifier)
    (hproperties : Option.Rel Dict.Reordered state.properties other.properties) :
    (chain.upgrade state source).1.Reordered (chain.upgrade other source).1 := by
  have hstart : { state with pending := none }.Reordered { other with pending := none } :=
    ⟨hidentifier, hproperties, rfl⟩
  exact reordered_applyAll (chain.newerThan source) hstart.normalize

/-! ## Stored block states -/

theorem storedVersion_congr {c d : Compound} (h : c.Same d) :
    storedVersion c = storedVersion d := by
  unfold storedVersion
  rw [h.getInt?_eq]

/-- The version is written into equal compounds both, or into neither. -/
theorem same_writeVersion {c d : Compound} (h : c.Same d) (source version : Version) :
    (writeVersion c source version).Same (writeVersion d source version) := by
  unfold writeVersion
  rw [h.getInt?_eq]
  split
  · exact h.insert "version" (by simp [Tag.same])
  · exact h

theorem same_upgraded {c d : Compound} (hc : c.Distinct) (hd : d.Distinct) (h : c.Same d)
    (source version : Version) {state other : BlockState} (hstate : state.Reordered other) :
    (upgraded c source (state, version)).Same (upgraded d source (other, version)) := by
  have hwritten := hstate.writeTo hc hd h
  exact same_writeVersion hwritten source version

/-- Equal compounds are upgraded to the same version and to equal compounds. -/
theorem upgradeTag_congr (chain : Chain) {c d : Compound} (hc : c.isKeyed) (hd : d.isKeyed)
    (h : c.Same d) :
    (chain.upgradeTag c).value.1 = (chain.upgradeTag d).value.1 ∧
      (chain.upgradeTag c).value.2.Same (chain.upgradeTag d).value.2 := by
  obtain ⟨hdistinct, -⟩ := Compound.isKeyed_iff.1 hc
  obtain ⟨hdistinct', -⟩ := Compound.isKeyed_iff.1 hd
  rcases rel_cases (BlockState.ofTag?_rel hc hd h) with
    ⟨hnone, hnone'⟩ | ⟨state, other, hread, hread', hstate⟩
  · rw [value_upgradeTag_of_none chain hnone, value_upgradeTag_of_none chain hnone']
    exact ⟨rfl, h⟩
  · rw [value_upgradeTag_of_some chain hread, value_upgradeTag_of_some chain hread']
    have hversion := storedVersion_congr h
    have hresult := chain.reordered_upgrade (storedVersion d) hstate.identifier hstate.properties
    rw [hversion]
    exact ⟨rfl, same_upgraded hdistinct hdistinct' h _ _ hresult⟩

/-- The order of children has no influence on the values that an upgrade leads to.  Blocks with
the same identifier and the same properties in some order are upgraded to the same version, to
the same identifier and to the same properties in some order.  Equal compounds, with their
children in any order at every depth, are upgraded to the same version, or both to none, and
are equal afterwards. -/
theorem order_has_no_influence (chain : Chain) :
    (∀ (state other : BlockState) (source : Version), state.identifier = other.identifier →
      Option.Rel (fun p q => p.entries.Perm q.entries) state.properties other.properties →
      let result := chain.upgrade state source
      let result' := chain.upgrade other source
      result.1.identifier = result'.1.identifier ∧ result.2 = result'.2 ∧
      Option.Rel (fun p q => p.entries.Perm q.entries)
        result.1.properties result'.1.properties) ∧
    (∀ c d : Compound, c.isKeyed → d.isKeyed → Tag.same (.compound c) (.compound d) →
      let result := (chain.upgradeTag c).value
      let result' := (chain.upgradeTag d).value
      result.1 = result'.1 ∧ Tag.same (.compound result.2) (.compound result'.2)) := by
  constructor
  · intro state other source hidentifier hproperties result result'
    have hresult := chain.reordered_upgrade source hidentifier hproperties
    exact ⟨hresult.identifier, rfl, hresult.properties⟩
  · intro c d hc hd hsame result result'
    obtain ⟨hdistinct, -⟩ := Compound.isKeyed_iff.1 hc
    obtain ⟨hdistinct', -⟩ := Compound.isKeyed_iff.1 hd
    -- keyed compounds are the same if their children are, key by key
    have hchildren := (Tag.same_compound_iff hdistinct hdistinct').1 hsame
    obtain ⟨hversion, hleft⟩ := chain.upgradeTag_congr hc hd hchildren
    refine ⟨hversion, ?_⟩
    exact (Tag.same_compound_iff (chain.distinct_upgradeTag hdistinct)
      (chain.distinct_upgradeTag hdistinct')).2 hleft

/-- A block with its properties in two orders, and a log with its children and its states in
two orders, one of which is no property. -/
theorem order_has_no_influence_on_log :
    let block : BlockState :=
      ⟨"X:LOG", some (.ofList [("Kind", .string "Pine"), ("Age", .byte 3)]), none⟩
    let block' : BlockState :=
      ⟨"X:LOG", some (.ofList [("Age", .byte 3), ("Kind", .string "Pine")]), some "x:old"⟩
    let c : Compound := [("name", .string "X:Log"), ("version", .int 0),
      ("states", .compound [("age", .byte 3), ("Kind", .string "pine"), ("y", .long 1)]),
      ("extra", .compound [("a", .int 1), ("b", .list [])])]
    let d : Compound := [("extra", .compound [("b", .list []), ("a", .int 1)]),
      ("states", .compound [("y", .long 1), ("Kind", .string "pine"), ("age", .byte 3)]),
      ("version", .int 0), ("name", .string "X:Log")]
    (treeChain.upgrade block ⟨1, 20, 0, 0⟩).1.properties ≠
      (treeChain.upgrade block' ⟨1, 20, 0, 0⟩).1.properties ∧
    Option.Rel (fun p q => p.entries.Perm q.entries)
      (treeChain.upgrade block ⟨1, 20, 0, 0⟩).1.properties
      (treeChain.upgrade block' ⟨1, 20, 0, 0⟩).1.properties ∧
    (treeChain.upgradeTag c).value.1 = some ⟨1, 21, 0, 0⟩ ∧
    (treeChain.upgradeTag c).value.1 = (treeChain.upgradeTag d).value.1 ∧
    (treeChain.upgradeTag c).value.2.keys ≠ (treeChain.upgradeTag d).value.2.keys ∧
    Tag.same (.compound (treeChain.upgradeTag c).value.2)
      (.compound (treeChain.upgradeTag d).value.2) := by
  intro block block' c d
  have h := order_has_no_influence treeChain
  -- the two differ in the order of keys, and in a name that nothing looks at
  have hperm : Option.Rel (fun p q => p.entries.Perm q.entries) block.properties
      block'.properties := .some (by decide)
  have hblock := h.1 block block' ⟨1, 20, 0, 0⟩ rfl hperm
  have htag := h.2 c d (by decide) (by decide) (by decide +kernel)
  exact ⟨by decide +kernel, hblock.2.2, by decide +kernel, htag.1, by decide +kernel, htag.2⟩

end BlockData.Chain
