/-!
# The first failure counts

A list of computations that may fail, taken one after the other, gives all results if each of
them succeeds, and otherwise the error of the first one that fails.

* `mapM_eq_ok_iff` and `mapM_eq_error_iff` say this of one list;
* `Reports` says it of a computation and the list of all that is wrong, and `Reports.bind` and
  `Reports.mapM` put such lists together in the order in which they are met.
-/

namespace BlockData.Failure

variable {ε α β : Type} {f : α → Except ε β}

theorem mapM_cons (f : α → Except ε β) (item : α) (items : List α) :
    (item :: items).mapM f = (f item).bind fun result => (items.mapM f).map (result :: ·) := by
  rw [List.mapM_cons]
  cases f item with
  | error e => rfl
  | ok result => cases items.mapM f <;> rfl

/-- All results are there if each computation succeeds. -/
theorem mapM_eq_ok_iff {items : List α} {results : List β} :
    items.mapM f = .ok results ↔ items.map f = results.map .ok := by
  induction items generalizing results with
  | nil => cases results <;> simp [pure, Except.pure]
  | cons item items ih =>
    rw [mapM_cons, List.map_cons]
    cases hitem : f item with
    | error e => cases results <;> simp [Except.bind]
    | ok first =>
      cases results with
      | nil => cases items.mapM f <;> simp [Except.bind, Except.map]
      | cons result results =>
        rw [List.map_cons, List.cons.injEq, ← ih]
        cases items.mapM f <;> simp [Except.bind, Except.map]

/-- The error is that of the first computation that fails. -/
theorem mapM_eq_error_iff {items : List α} {error : ε} :
    items.mapM f = .error error ↔
      ∃ before item after, items = before ++ item :: after ∧
        (∀ other ∈ before, ∃ result, f other = .ok result) ∧ f item = .error error := by
  induction items with
  | nil => simp [pure, Except.pure]
  | cons first items ih =>
    rw [mapM_cons]
    constructor
    · intro h
      cases hfirst : f first with
      | error e =>
        obtain rfl : e = error := by simpa [hfirst, Except.bind] using h
        exact ⟨[], first, items, rfl, by simp, hfirst⟩
      | ok result =>
        have hitems : items.mapM f = .error error := by
          cases hrest : items.mapM f <;> simp_all [Except.bind, Except.map]
        rcases ih.1 hitems with ⟨before, item, after, rfl, hbefore, hitem⟩
        exact ⟨first :: before, item, after, rfl,
          List.forall_mem_cons.2 ⟨⟨result, hfirst⟩, hbefore⟩, hitem⟩
    · rintro ⟨before, item, after, hsplit, hbefore, hitem⟩
      cases before with
      | nil =>
        obtain ⟨rfl, -⟩ := List.cons.inj hsplit
        rw [hitem]
        rfl
      | cons other before =>
        obtain ⟨rfl, hitems⟩ := List.cons.inj hsplit
        rcases List.forall_mem_cons.1 hbefore with ⟨⟨result, hfirst⟩, hrest⟩
        rw [hfirst, ih.2 ⟨before, item, after, hitems, hrest, hitem⟩]
        rfl

/-- Some computation fails exactly if there is an error. -/
theorem exists_error_iff {items : List α} :
    (∃ error, items.mapM f = .error error) ↔ ∃ item ∈ items, ∃ error, f item = .error error := by
  induction items with
  | nil => simp [pure, Except.pure]
  | cons first items ih =>
    rw [mapM_cons]
    cases hfirst : f first with
    | error e => simp [Except.bind, hfirst]
    | ok result =>
      have hrest : (∃ error, (Except.ok result : Except ε β).bind
          (fun result => (items.mapM f).map (result :: ·)) = .error error) ↔
            ∃ error, items.mapM f = .error error := by
        cases items.mapM f <;> simp [Except.bind, Except.map]
      rw [hrest, ih]
      simp [hfirst]

/-- What is done with the result has no influence on the error. -/
theorem map_eq_error_iff {x : Except ε α} {g : α → β} {error : ε} :
    x.map g = .error error ↔ x = .error error := by
  cases x <;> simp [Except.map]

/-! ## All that is wrong -/

/-- A computation fails with the first of some errors, and succeeds if there is none. -/
def Reports (result : Except ε α) (errors : List ε) : Prop :=
  ∀ error, result = .error error ↔ errors.head? = some error

theorem reports_ok (a : α) : Reports (.ok a : Except ε α) [] := by
  simp [Reports]

theorem reports_error (error : ε) (later : List ε) :
    Reports (.error error : Except ε α) (error :: later) := by
  simp [Reports]

/-- A computation that reports no error succeeds. -/
theorem Reports.exists_ok {result : Except ε α} (h : Reports result []) :
    ∃ a, result = .ok a := by
  cases result with
  | error e => simpa using (h e).1 rfl
  | ok a => exact ⟨a, rfl⟩

/-- A computation fails exactly if there is an error to report. -/
theorem Reports.exists_error_iff {result : Except ε α} {errors : List ε}
    (h : Reports result errors) : (∃ error, result = .error error) ↔ ∃ error, error ∈ errors := by
  have hfirst : ∀ error, result = .error error ↔ errors.head? = some error := h
  simp only [hfirst]
  cases errors <;> simp

/-- What is wrong with the second part counts where the first one succeeds. -/
theorem Reports.bind {x : Except ε α} {f : α → Except ε β} {first second : List ε}
    (hx : Reports x first) (hf : ∀ a, x = .ok a → Reports (f a) second) :
    Reports (x >>= f) (first ++ second) := by
  cases first with
  | nil =>
    rcases hx.exists_ok with ⟨a, rfl⟩
    exact hf a rfl
  | cons e later =>
    rw [(hx e).2 rfl]
    exact reports_error e (later ++ second)

/-- A first part that cannot fail does not count. -/
theorem Reports.bind_of_nil {x : Except ε α} {f : α → Except ε β} {errors : List ε}
    (hx : Reports x []) (hf : ∀ a, Reports (f a) errors) : Reports (x >>= f) errors :=
  hx.bind fun a _ => hf a

/-- What is done with a result cannot go wrong. -/
theorem Reports.andReturn {x : Except ε α} {errors : List ε} (h : Reports x errors)
    (g : α → β) : Reports (x >>= fun a => pure (g a)) errors := by
  have hbind := h.bind fun a _ => (reports_ok (g a) : Reports (pure (g a)) [])
  rwa [List.append_nil] at hbind

/-- What is wrong with the items of a list is wrong in their order. -/
theorem Reports.mapM {errors : α → List ε} (h : ∀ item, Reports (f item) (errors item))
    (items : List α) : Reports (items.mapM f) (items.flatMap errors) := by
  induction items with
  | nil => exact reports_ok []
  | cons item items ih =>
    rw [List.mapM_cons, List.flatMap_cons]
    exact (h item).bind fun result _ => ih.andReturn (result :: ·)

end BlockData.Failure
