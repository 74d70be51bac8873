import BlockData.Proofs.BlockState.Tag
import BlockData.Proofs.Schema.Reordered
import BlockData.Proofs.Tag.Equality

/-!
# Block states in equal compounds

Equal compounds hold the same block state, up to the order of its properties
(`BlockState.ofTag?_rel`), and such block states written into equal compounds leave equal
compounds (`BlockState.Reordered.writeTo`).
-/

namespace BlockData

namespace PropertyValue

/-- Equal tags hold the same property value. -/
theorem ofTag?_congr {a b : Tag} (h : a.same b) : ofTag? a = ofTag? b := by
  have hkind := Tag.kind_eq_of_same h
  cases a <;> cases b <;> simp_all [Tag.kind, Tag.same, ofTag?]

theorem same_toTag (value : PropertyValue) : value.toTag.same value.toTag := by
  cases value <;> simp [toTag, Tag.same]

end PropertyValue

namespace Compound.Same

variable {c d : Compound}

theorem getString?_eq (h : c.Same d) (key : String) : c.getString? key = d.getString? key :=
  Tag.bind_congr_of_rel Tag.asString?_congr (h key)

theorem getInt?_eq (h : c.Same d) (key : String) : c.getInt? key = d.getInt? key :=
  Tag.bind_congr_of_rel Tag.asInt?_congr (h key)

theorem getCompound?_rel (h : c.Same d) (key : String) :
    Option.Rel (fun a b => Tag.same (.compound a) (.compound b)) (c.getCompound? key)
      (d.getCompound? key) := by
  unfold Compound.getCompound?
  rcases rel_cases (h key) with ⟨hc, hd⟩ | ⟨a, b, hc, hd, hsame⟩
  · rw [hc, hd]
    exact .none
  · rw [hc, hd]
    exact Tag.asCompound?_rel hsame

end Compound.Same

/-- The compounds in a compound with distinct keys throughout are such themselves. -/
theorem Compound.distinct_of_getCompound? {c states : Compound} (hkeyed : c.isKeyed)
    {key : String} (h : c.getCompound? key = some states) : states.Distinct := by
  obtain ⟨-, hchildren⟩ := Compound.isKeyed_iff.1 hkeyed
  obtain ⟨tag, hfound, hcompound⟩ := Option.bind_eq_some_iff.1 h
  have htag := hchildren (key, tag) (Entries.mem_of_get? hfound)
  cases tag with
  | compound children =>
    obtain rfl := Option.some.inj hcompound
    exact (Compound.isKeyed_iff.1 htag).1
  | _ => simp [Tag.asCompound?] at hcompound

namespace BlockState

/-- The properties among states are those that have the kind of one. -/
theorem get?_propertiesOf {states : Compound} (distinct : states.Distinct) (name : String) :
    (propertiesOf states).get? name = (states.get? name).bind PropertyValue.ofTag? := by
  have hkept := Entries.distinct_filterMap PropertyValue.ofTag? distinct
  have hget := Entries.get?_filterMap PropertyValue.ofTag? distinct name
  -- the properties that are kept have distinct names, and are their own dictionary
  rw [← Entries.ofList_of_distinct hkept] at hget
  exact hget

theorem reordered_propertiesOf {states others : Compound} (hs : states.Distinct)
    (ho : others.Distinct) (h : states.Same others) :
    (propertiesOf states).Reordered (propertiesOf others) := by
  rw [Dict.reordered_iff]
  intro name
  rw [get?_propertiesOf hs, get?_propertiesOf ho]
  rcases rel_cases (h name) with ⟨hnone, hnone'⟩ | ⟨a, b, hfound, hfound', hsame⟩
  · rw [hnone, hnone']
  · rw [hfound, hfound']
    exact PropertyValue.ofTag?_congr hsame

/-- Equal compounds hold the same block state, with its properties in some order. -/
theorem ofTag?_rel {c d : Compound} (hc : c.isKeyed) (hd : d.isKeyed) (h : c.Same d) :
    Option.Rel Reordered (ofTag? c).value (ofTag? d).value := by
  rw [value_ofTag?_eq, value_ofTag?_eq, h.getString?_eq]
  cases d.getString? "name" with
  | none => exact .none
  | some identifier =>
    refine .some ⟨rfl, ?_, rfl⟩
    rcases rel_cases (h.getCompound?_rel "states") with
      ⟨hnone, hnone'⟩ | ⟨states, others, hfound, hfound', hsame⟩
    · rw [hnone, hnone']
      exact .none
    · have hs := Compound.distinct_of_getCompound? hc hfound
      have ho := Compound.distinct_of_getCompound? hd hfound'
      rw [hfound, hfound']
      exact .some (reordered_propertiesOf hs ho ((Tag.same_compound_iff hs ho).1 hsame))

/-! ## Writing -/

theorem same_statesTag {p q : Properties} (h : p.Reordered q) :
    Tag.same (.compound (statesTag p)) (.compound (statesTag q)) := by
  rw [Tag.same_compound_iff (distinct_statesTag p) (distinct_statesTag q)]
  intro name
  have hp : (statesTag p).get? name = (p.get? name).map PropertyValue.toTag :=
    Entries.get?_mapValues PropertyValue.toTag p.entries name
  have hq : (statesTag q).get? name = (q.get? name).map PropertyValue.toTag :=
    Entries.get?_mapValues PropertyValue.toTag q.entries name
  rw [hp, hq, h.get?_eq]
  cases q.get? name with
  | none => exact .none
  | some value => exact .some value.same_toTag

/-- Block states that are the same up to the order of properties leave equal compounds. -/
theorem Reordered.writeTo {state other : BlockState} (h : state.Reordered other)
    {c d : Compound} (hc : c.Distinct) (hd : d.Distinct) (hsame : c.Same d) :
    (state.writeTo c).Same (other.writeTo d) := by
  have hname : Tag.same (.string state.identifier) (.string other.identifier) := by
    rw [h.identifier]
    simp [Tag.same]
  have hnamed := hsame.insert "name" hname
  rcases rel_cases h.properties with ⟨hp, hq⟩ | ⟨p, q, hp, hq, hpq⟩
  · rw [writeTo_of_none hp, writeTo_of_none hq]
    exact hnamed.erase (Entries.distinct_insert _ _ hc) (Entries.distinct_insert _ _ hd) "states"
  · rw [writeTo_of_some hp, writeTo_of_some hq]
    exact hnamed.insert "states" (same_statesTag hpq)

end BlockState
end BlockData
