/-!
# Lists and results

What is needed of lists and of results and has nothing to do with scripts.
-/

namespace Sigil

variable {α β : Type}

/-- Results are evaluated as options, which can be compared. -/
theorem eq_ok_of_toOption {ε : Type} {r : Except ε α} {a : α} (h : r.toOption = some a) :
    r = .ok a := by
  cases r with
  | error e => cases h
  | ok b => rw [Option.some.inj h]

/-! ## Functions that go over a list -/

/-- A function that takes the members of a list one by one, and makes one thing of each. -/
theorem eq_map_of_cons {f : List α → List β} {g : α → β} (hnil : f [] = [])
    (hcons : ∀ a as, f (a :: as) = g a :: f as) (as : List α) : f as = as.map g := by
  induction as with
  | nil => exact hnil
  | cons a as ih => rw [hcons, ih, List.map_cons]

/-- A function that takes the members of a list one by one, and makes a list of each. -/
theorem eq_flatMap_of_cons {f : List α → List β} {g : α → List β} (hnil : f [] = [])
    (hcons : ∀ a as, f (a :: as) = g a ++ f as) (as : List α) : f as = as.flatMap g := by
  induction as with
  | nil => exact hnil
  | cons a as ih => rw [hcons, ih, List.flatMap_cons]

/-! ## Beginnings -/

variable {p : α → Bool} {xs : List α} {c : α}

/-- What is left out stops before what does not belong to it. -/
theorem head?_dropWhile_eq_false (p : α → Bool) (xs : List α) :
    ∀ c ∈ (xs.dropWhile p).head?, p c = false := by
  intro c hc
  have := List.head?_dropWhile_not p xs
  rw [Option.mem_def.mp hc] at this
  simpa using this

/-- What stands behind a member without the property `p` makes no difference before it. -/
theorem takeWhile_append_cons (hc : p c = false) (xs more : List α) :
    (xs ++ c :: more).takeWhile p = xs.takeWhile p := by
  induction xs with
  | nil => exact List.takeWhile_cons_of_neg (by simp [hc])
  | cons x xs ih =>
    by_cases hx : p x = true
    · rw [List.cons_append, List.takeWhile_cons_of_pos hx, List.takeWhile_cons_of_pos hx, ih]
    · rw [List.cons_append, List.takeWhile_cons_of_neg hx, List.takeWhile_cons_of_neg hx]

theorem dropWhile_append_cons (hc : p c = false) (xs more : List α) :
    (xs ++ c :: more).dropWhile p = xs.dropWhile p ++ c :: more := by
  induction xs with
  | nil => exact List.dropWhile_cons_of_neg (by simp [hc])
  | cons x xs ih =>
    by_cases hx : p x = true
    · rw [List.cons_append, List.dropWhile_cons_of_pos hx, List.dropWhile_cons_of_pos hx, ih]
    · rw [List.cons_append, List.dropWhile_cons_of_neg hx, List.dropWhile_cons_of_neg hx,
        List.cons_append]

/-- A run goes up to the first that does not belong to it. -/
theorem takeWhile_append_stop {more : List α} (hxs : ∀ x ∈ xs, p x = true) (hc : p c = false) :
    (xs ++ c :: more).takeWhile p = xs := by
  rw [List.takeWhile_append_of_pos hxs, List.takeWhile_cons_of_neg (by simp [hc]), List.append_nil]

theorem dropWhile_append_stop {more : List α} (hxs : ∀ x ∈ xs, p x = true) (hc : p c = false) :
    (xs ++ c :: more).dropWhile p = c :: more := by
  rw [List.dropWhile_append_of_pos hxs, List.dropWhile_cons_of_neg (by simp [hc])]

/-- The members of a list are other things than what is not in it. -/
theorem bne_of_not_mem [BEq α] [LawfulBEq α] (h : c ∉ xs) : ∀ x ∈ xs, (x != c) = true := by
  intro x hx
  rw [bne_iff_ne]
  rintro rfl
  exact h hx

/-- A beginning of a list starts like the list. -/
theorem mem_head?_of_beginning {part : List α} (h : part <+: xs) (hc : c ∈ part.head?) :
    c ∈ xs.head? := by
  obtain ⟨more, rfl⟩ := h
  cases part with
  | nil => cases hc
  | cons d part => exact hc

end Sigil
