import BlockData.Proofs.Dict.Reordered
import BlockData.Proofs.Tag.Tree
import BlockData.Tag.Equality
import Mathlib.Data.List.Perm.Subperm

/-!
# Equal compounds

Compounds are compared child by child and by their sizes.  Where keys are distinct, this says
that the same keys are there and lead to equal tags (`Tag.same_compound_iff`): the order of the
children is left out of account.  Equal tags have the same contents as far as a block state is
read from them.
-/

namespace BlockData

namespace Tag

/-- Every child has its match under its key. -/
theorem sameChildren_iff (children others : List (String × Tag)) :
    sameChildren children others ↔
      ∀ child ∈ children, ∃ tag, Entries.get? others child.1 = some tag ∧ same child.2 tag := by
  induction children with
  | nil => simp [sameChildren]
  | cons child rest ih =>
    rcases child with ⟨key, tag⟩
    rw [sameChildren, Bool.and_eq_true, ih, List.forall_mem_cons]
    cases Entries.get? others key <;> simp

end Tag

/-- Two compounds with equal children under every key. -/
def Compound.Same (c d : Compound) : Prop :=
  ∀ key, Option.Rel (fun a b => Tag.same a b) (c.get? key) (d.get? key)

namespace Compound.Same

variable {c d : Compound}

/-- The same keys are there. -/
theorem keys_iff (h : c.Same d) (key : String) :
    key ∈ Entries.keys c ↔ key ∈ Entries.keys d := by
  rw [← Entries.isSome_get?, ← Entries.isSome_get?]
  rcases rel_cases (h key) with ⟨hc, hd⟩ | ⟨a, b, hc, hd, -⟩
  · rw [hc, hd]
  · simp [hc, hd]

theorem insert (h : c.Same d) (key : String) {a b : Tag} (hab : a.same b) :
    Compound.Same (Entries.insert key a c) (Entries.insert key b d) := by
  intro other
  rw [Entries.get?_insert, Entries.get?_insert]
  split
  · exact .some hab
  · exact h other

theorem erase (h : c.Same d) (hc : c.Distinct) (hd : d.Distinct) (key : String) :
    Compound.Same (Entries.erase key c) (Entries.erase key d) := by
  intro other
  rw [Entries.get?_erase key hc, Entries.get?_erase key hd]
  split
  · exact .none
  · exact h other

end Compound.Same

namespace Tag

/-- Compounds with distinct keys are equal exactly if their children are, key by key. -/
theorem same_compound_iff {c d : Compound} (hc : c.Distinct) (hd : d.Distinct) :
    same (.compound c) (.compound d) ↔ c.Same d := by
  have hequal : same (.compound c) (.compound d) ↔ c.length = d.length ∧ sameChildren c d := by
    rw [same, Bool.and_eq_true, beq_iff_eq]
  rw [hequal, sameChildren_iff]
  constructor
  · rintro ⟨hlength, hmatch⟩ key
    cases hfound : c.get? key with
    | some tag =>
      obtain ⟨tag', hfound', hsame⟩ := hmatch (key, tag) (Entries.mem_of_get? hfound)
      rw [hfound']
      exact .some hsame
    | none =>
      -- as many keys, and all of the first compound: the second one has no other
      have hsub : Entries.keys c ⊆ Entries.keys d := by
        intro name hname
        obtain ⟨child, hchild, rfl⟩ := List.mem_map.1 hname
        obtain ⟨tag', hfound', -⟩ := hmatch child hchild
        exact (Entries.isSome_get? d child.1).1 (by rw [hfound']; rfl)
      have hkeys : (Entries.keys c).Perm (Entries.keys d) := by
        refine (List.subperm_of_subset hc hsub).perm_of_length_le ?_
        simp [Entries.keys, hlength]
      have hnone : d.get? key = none := by
        rw [Entries.get?_eq_none_iff] at hfound ⊢
        rwa [← hkeys.mem_iff]
      rw [hnone]
      exact .none
  · intro h
    constructor
    · have hkeys : (Entries.keys c).Perm (Entries.keys d) :=
        (List.perm_ext_iff_of_nodup hc hd).2 h.keys_iff
      simpa [Entries.keys] using hkeys.length_eq
    · intro child hchild
      have hfound := Entries.get?_of_mem hc hchild
      rcases rel_cases (h child.1) with ⟨hnone, -⟩ | ⟨a, b, ha, hb, hsame⟩
      · simp [hfound] at hnone
      · obtain rfl : child.2 = a := by simpa [hfound] using ha
        exact ⟨b, hb, hsame⟩

/-! ## Contents of equal tags -/

/-- Equal tags are of one kind. -/
theorem kind_eq_of_same {a b : Tag} (h : a.same b) : a.kind = b.kind := by
  cases a <;> cases b <;> first | rfl | simp [same] at h

theorem asString?_congr (a b : Tag) (h : a.same b) : a.asString? = b.asString? := by
  have hkind := kind_eq_of_same h
  cases a <;> cases b <;> simp_all [kind, same, asString?]

theorem asInt?_congr (a b : Tag) (h : a.same b) : a.asInt? = b.asInt? := by
  have hkind := kind_eq_of_same h
  cases a <;> cases b <;> simp_all [kind, same, asInt?]

/-- What is taken from equal tags is the same where there is one, and nothing where there is
none. -/
theorem bind_congr_of_rel {α : Type} {f : Tag → Option α} (hf : ∀ a b : Tag, a.same b → f a = f b)
    {x y : Option Tag} (h : Option.Rel (fun a b => a.same b) x y) : x.bind f = y.bind f := by
  rcases rel_cases h with ⟨rfl, rfl⟩ | ⟨a, b, rfl, rfl, hsame⟩
  · rfl
  · exact hf a b hsame

/-- Equal tags are compounds both, or neither is. -/
theorem asCompound?_rel {a b : Tag} (h : a.same b) :
    Option.Rel (fun c d => same (.compound c) (.compound d)) a.asCompound? b.asCompound? := by
  have hkind := kind_eq_of_same h
  cases a <;> cases b <;> simp only [kind, reduceCtorEq] at hkind
  case compound.compound => exact .some h
  all_goals exact .none

end Tag
end BlockData
