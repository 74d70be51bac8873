import BlockData.Text.Lowercase

/-!
# Lowercase text stays as it is

A text in lower case has no other lowercase form: `lowercase_lowercase`.  No letter that
the table of letters leads to has an entry of its own (`simpleLower?_of_simpleLower?`), and
the capital sigma, whose form depends on its neighbours, is one of those with an entry.
-/

namespace BlockData.Text

/-- A character that lowercasing leaves as it is, wherever it stands. -/
def Settled (c : Char) : Prop :=
  lowerChar c = [c] ∧ c ≠ 'Σ'

instance (c : Char) : Decidable (Settled c) :=
  inferInstanceAs (Decidable (_ ∧ _))

/-! ## Sets of code points -/

/-- The number whose bits are a set of code points. -/
def bits (codes : List Nat) : Nat :=
  codes.foldr (fun code acc => 1 <<< code ||| acc) 0

theorem testBit_bits (codes : List Nat) (n : Nat) :
    (bits codes).testBit n = decide (n ∈ codes) := by
  induction codes with
  | nil => simp [bits]
  | cons code rest ih =>
    have hstep : bits (code :: rest) = 1 <<< code ||| bits rest := rfl
    rw [hstep, Nat.testBit_or, ih, Nat.one_shiftLeft, Nat.testBit_two_pow]
    simp [eq_comm]

/-- Sets without a common bit have no common member. -/
theorem notMem_of_bits_and_eq_zero {first second : List Nat}
    (h : bits first &&& bits second = 0) {n : Nat} (hn : n ∈ second) : n ∉ first := by
  intro hfirst
  have hbit : (bits first &&& bits second).testBit n = true := by
    simp [Nat.testBit_and, testBit_bits, hfirst, hn]
  simp [h] at hbit

/-! ## The table of letters -/

namespace CaseRun

/-- The code points of a run. -/
def codes (run : CaseRun) : List Nat :=
  (List.range ((run.last - run.first) / run.step + 1)).map (run.first + run.step * ·)

/-- The code points that a run leads to. -/
def lowerCodes (run : CaseRun) : List Nat :=
  run.codes.map fun (code : Nat) => Int.toNat (code + run.shift)

/-- The code points of a run are those with a lowercase form, which is one that it leads
to. -/
theorem mem_of_lower?_eq_some {run : CaseRun} {code lower : Nat}
    (h : run.lower? code = some lower) : code ∈ run.codes ∧ lower ∈ run.lowerCodes := by
  unfold CaseRun.lower? at h
  split at h
  · next hrun =>
    rcases hrun with ⟨hfirst, hlast, hstep⟩
    have hcode : run.first + run.step * ((code - run.first) / run.step) = code := by
      have := Nat.div_add_mod (code - run.first) run.step
      omega
    have hk : (code - run.first) / run.step < (run.last - run.first) / run.step + 1 :=
      Nat.lt_succ_of_le (Nat.div_le_div_right (by omega))
    have hmem : code ∈ run.codes := List.mem_map.2 ⟨_, List.mem_range.2 hk, hcode⟩
    exact ⟨hmem, List.mem_map.2 ⟨code, hmem, Option.some.inj h⟩⟩
  · simp at h

end CaseRun

/-- No letter that the table leads to has an entry of its own. -/
theorem bits_codes_and_bits_lowerCodes :
    bits (caseRuns.flatMap (·.codes)) &&& bits (caseRuns.flatMap (·.lowerCodes)) = 0 := by
  decide +kernel

/-- The table leads to code points of characters, and not to the capital with a dot. -/
theorem valid_of_mem_lowerCodes :
    ∀ code ∈ caseRuns.flatMap (·.lowerCodes), (Char.ofNat code).toNat = code ∧ code ≠ 0x130 := by
  decide +kernel

theorem mem_codes_of_simpleLower? {code lower : Nat} (h : simpleLower? code = some lower) :
    code ∈ caseRuns.flatMap (·.codes) ∧ lower ∈ caseRuns.flatMap (·.lowerCodes) := by
  rcases List.exists_of_findSome?_eq_some h with ⟨run, hrun, hlower⟩
  rcases CaseRun.mem_of_lower?_eq_some hlower with ⟨hcode, hmem⟩
  exact ⟨List.mem_flatMap.2 ⟨run, hrun, hcode⟩, List.mem_flatMap.2 ⟨run, hrun, hmem⟩⟩

theorem simpleLower?_of_simpleLower? {code lower : Nat} (h : simpleLower? code = some lower) :
    simpleLower? lower = none := by
  have hnotMem := notMem_of_bits_and_eq_zero bits_codes_and_bits_lowerCodes
    (mem_codes_of_simpleLower? h).2
  cases hlower : simpleLower? lower with
  | none => rfl
  | some other => exact absurd (mem_codes_of_simpleLower? hlower).1 hnotMem

/-! ## Characters -/

/-- Of the first code points those without an entry are kept. -/
theorem toLower_of_ascii : ∀ code < 0x80,
    (Char.ofNat code).toLower = Char.ofNat code ∨ (simpleLower? code).isSome := by
  decide +kernel

theorem settled_toLower_of_ascii : ∀ code < 0x80, Settled (Char.ofNat code).toLower := by
  decide +kernel

/-- A character is settled if it has no entry and is no capital with a dot. -/
theorem settled_of_simpleLower?_eq_none {c : Char} (hdot : c.toNat ≠ 0x130)
    (h : simpleLower? c.toNat = none) : Settled c := by
  constructor
  · unfold lowerChar
    split
    · next hascii =>
      rcases toLower_of_ascii c.toNat hascii with hlower | hsome
      · rw [Char.ofNat_toNat] at hlower
        rw [hlower]
      · simp [h] at hsome
    · simp [h]
  · rintro rfl
    exact absurd h (by decide)

/-- The lowercase form of a character is settled. -/
theorem settled_of_mem_lowerChar {c x : Char} (h : x ∈ lowerChar c) : Settled x := by
  unfold lowerChar at h
  split at h
  · next hascii =>
    -- a character of one byte
    have hcode := settled_toLower_of_ascii c.toNat hascii
    rw [Char.ofNat_toNat] at hcode
    exact List.mem_singleton.1 h ▸ hcode
  · split at h
    · -- the capital with a dot becomes two characters
      have htwo : Settled 'i' ∧ Settled (Char.ofNat 0x307) := by decide
      rcases List.mem_cons.1 h with h | h
      · exact h ▸ htwo.1
      · exact List.mem_singleton.1 h ▸ htwo.2
    · next hdot =>
      split at h
      · next code hcode =>
        -- what a letter becomes has no other case
        rcases valid_of_mem_lowerCodes code (mem_codes_of_simpleLower? hcode).2 with ⟨htoNat, hne⟩
        rw [List.mem_singleton.1 h]
        apply settled_of_simpleLower?_eq_none
        · rwa [htoNat]
        · rw [htoNat]
          exact simpleLower?_of_simpleLower? hcode
      · next hnone => exact List.mem_singleton.1 h ▸ settled_of_simpleLower?_eq_none hdot hnone

/-- Both small forms of the sigma are settled. -/
theorem settled_lowerSigma (before after : List Char) : Settled (lowerSigma before after) := by
  have hforms : Settled 'ς' ∧ Settled 'σ' := by decide
  unfold lowerSigma
  split
  · exact hforms.1
  · exact hforms.2

/-! ## Texts -/

theorem settled_of_mem_lowerAfter {before cs : List Char} {x : Char}
    (h : x ∈ lowerAfter before cs) : Settled x := by
  induction cs generalizing before with
  | nil => simp [lowerAfter] at h
  | cons c rest ih =>
    unfold lowerAfter at h
    split at h
    · rcases List.mem_cons.1 h with h | h
      · exact h ▸ settled_lowerSigma before rest
      · exact ih h
    · rcases List.mem_append.1 h with h | h
      · exact settled_of_mem_lowerChar h
      · exact ih h

/-- Settled characters make a text that is its own lowercase form. -/
theorem lowerAfter_of_settled {before cs : List Char} (h : ∀ c ∈ cs, Settled c) :
    lowerAfter before cs = cs := by
  induction cs generalizing before with
  | nil => rfl
  | cons c rest ih =>
    rcases List.forall_mem_cons.1 h with ⟨⟨hlower, hsigma⟩, hrest⟩
    rw [lowerAfter, if_neg hsigma, hlower, ih hrest]
    rfl

/-- The lowercase form of a text has no other lowercase form. -/
theorem lowercase_lowercase (s : String) : lowercase (lowercase s) = lowercase s := by
  have hsettled : lowerAfter [] (lowercase s).toList = (lowercase s).toList := by
    apply lowerAfter_of_settled
    intro c hc
    rw [toList_lowercase] at hc
    exact settled_of_mem_lowerAfter hc
  rw [lowercase, hsettled, String.ofList_toList]

end BlockData.Text
