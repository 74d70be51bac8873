import BlockData.Proofs.CommandLine.Upgrade
import BlockData.Proofs.Tag.Finite

/-!
# What is read, printed and read again

The command reads a compound and prints it, and the print can be read in its turn.  Numbers of 64
bits beyond the largest one are not read in the first place, but the same numerals are read with
32 bits and become infinite there; for those `null` is printed, which is no number.

* `isOk_readTag_printed` says which prints are read again.
-/

namespace BlockData.CommandLine

/-- The text that is printed for a compound that was read is a compound again, exactly if no
number of 32 bits in it is infinite. -/
theorem isSome_read?_printed {text : String} {tag : Compound} (h : Compound.read? text = some tag)
    (pretty : Bool) : (Compound.read? (printed pretty tag)).isSome = !tag.hasInfinity := by
  have hending : ∀ c ∈ ['\n'], Json.isSpace c := by simp [Json.isSpace]
  have hread := Compound.isSome_read?_render_of_read? h (if pretty then .indented else .compact)
    hending
  rwa [String.ofList_append] at hread

/-- A compound is read from a source and printed, in either layout.  Wherever the print is the
text of a source, a compound is read from this, exactly if no number of 32 bits in the first one
is infinite; otherwise the failure names the source. -/
theorem readTag_of_printed {s s' : Surroundings} {source source' : String} {tag : Compound}
    {pretty : Bool} (hread : readTag s source = .ok tag)
    (hprinted : readSource s' source' = .ok (printed pretty tag)) :
    (tag.hasInfinity = false → ∃ again, readTag s' source' = .ok again) ∧
    (tag.hasInfinity = true → readTag s' source' = .error (.noTagTree source')) := by
  obtain ⟨text, -, htext⟩ := readTag_eq_ok_iff.1 hread
  -- what is printed can be read if there is no infinity
  have hsome := isSome_read?_printed htext pretty
  constructor
  · intro hfinite
    rw [hfinite, Bool.not_false] at hsome
    obtain ⟨again, hagain⟩ := Option.isSome_iff_exists.1 hsome
    exact ⟨again, readTag_eq_ok_iff.2 ⟨_, hprinted, hagain⟩⟩
  · intro hinfinite
    rw [hinfinite, Bool.not_true] at hsome
    have hnone : Compound.read? (printed pretty tag) = none := by simpa using hsome
    unfold readTag
    rw [hprinted]
    show (Compound.read? (printed pretty tag)).elim _ _ = _
    rw [hnone]
    rfl

/-- Nothing but a text in the input. -/
def inputSurroundings (text : String) : Surroundings where
  text? := fun _ => none
  walk? := fun _ => none
  input? := some text

/-- The largest number of 64 bits and an integer for 32 bits are read again from their print. -/
theorem readTag_of_printed_numbers :
    let s := inputSurroundings
      "\x7b\"d\":\x7b\"double\":-1.7976931348623157e308\x7d,\"f\":\x7b\"float\":16777217\x7d\x7d"
    ∃ tag, readTag s "-" = .ok tag ∧
      ∃ again, readTag (s.withInput (printed true tag)) "-" = .ok again := by
  intro s
  have hread : (readTag s "-").toOption.any (!·.hasInfinity) := by decide +kernel
  cases htag : readTag s "-" with
  | error failure => simp [htag, Except.toOption] at hread
  | ok tag =>
    have hfinite : tag.hasInfinity = false := by simpa [htag, Except.toOption] using hread
    exact ⟨tag, rfl, (readTag_of_printed htag rfl).1 hfinite⟩

/-- A number of 32 bits that is beyond the largest one is read, and `null` is printed for it,
which is not read. -/
theorem null_is_not_read :
    let s := inputSurroundings "\x7b\"f\":\x7b\"float\":1e39\x7d\x7d"
    let print := "\x7b\"f\":\x7b\"float\":null\x7d\x7d\n"
    (readTag s "-").toOption.map (printed false) = some print ∧
    (readTag (s.withInput print) "-").isOk = false := by
  decide +kernel

end BlockData.CommandLine
