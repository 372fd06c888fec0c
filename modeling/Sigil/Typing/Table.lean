/-!
# Tables

A table holds at most one value per key and lists its entries in the order of the keys. It is a list
of entries together with the fact that their keys ascend, so a table is determined by what it has
for each key (`Table.ext_get?`).
-/

namespace Sigil

/-- Values by key, in the order of the keys. -/
structure Table (κ α : Type) [Ord κ] where
  /-- The keys with their values. -/
  entries : List (κ × α)
  /-- The keys ascend. -/
  ascending : entries.Pairwise fun a b => compare a.1 b.1 = .lt

namespace Table

variable {κ α : Type} [Ord κ]

/-- The table without entries. -/
def empty : Table κ α := ⟨[], .nil⟩

/-- The number of entries. -/
def size (t : Table κ α) : Nat := t.entries.length

/-- The keys, in order. -/
def keys (t : Table κ α) : List κ := t.entries.map (·.1)

/-- The value that a list of entries has for a key. -/
def lookup (key : κ) : List (κ × α) → Option α
  | [] => none
  | (k, a) :: rest => if compare key k = .eq then some a else lookup key rest

/-- The value that the table has for a key. -/
def get? (t : Table κ α) (key : κ) : Option α := lookup key t.entries

@[simp] theorem get?_empty (key : κ) : (empty : Table κ α).get? key = none := rfl

/-- Whether the table has a value for the key. -/
def contains (t : Table κ α) (key : κ) : Bool := (t.get? key).isSome

/-- The entries with the value for `key` made what `f` makes of the value so far. -/
def alterEntries (key : κ) (f : Option α → α) : List (κ × α) → List (κ × α)
  | [] => [(key, f none)]
  | (k, a) :: rest =>
    match compare key k with
    | .lt => (key, f none) :: (k, a) :: rest
    | .eq => (k, f (some a)) :: rest
    | .gt => (k, a) :: alterEntries key f rest

/-- The keys after an alteration are those before it and the altered one. -/
theorem mem_keys_alterEntries {key : κ} {f : Option α → α} {es : List (κ × α)} {e : κ × α}
    (h : e ∈ alterEntries key f es) : e.1 = key ∨ ∃ e' ∈ es, e'.1 = e.1 := by
  induction es with
  | nil => simp_all [alterEntries]
  | cons head rest ih =>
    obtain ⟨k, a⟩ := head
    unfold alterEntries at h
    split at h
    · rcases List.mem_cons.mp h with h | h
      · exact Or.inl (by rw [h])
      · exact Or.inr ⟨e, h, rfl⟩
    · rcases List.mem_cons.mp h with h | h
      · exact Or.inr ⟨(k, a), List.mem_cons_self, by rw [h]⟩
      · exact Or.inr ⟨e, List.mem_cons_of_mem _ h, rfl⟩
    · rcases List.mem_cons.mp h with h | h
      · exact Or.inr ⟨(k, a), List.mem_cons_self, by rw [h]⟩
      · rcases ih h with h | ⟨e', he', hk⟩
        · exact Or.inl h
        · exact Or.inr ⟨e', List.mem_cons_of_mem _ he', hk⟩

/-- A key that is smaller than all others is not among them. -/
theorem lookup_eq_none {key : κ} {es : List (κ × α)} (h : ∀ e ∈ es, compare key e.1 = .lt) :
    lookup key es = none := by
  induction es with
  | nil => rfl
  | cons head rest ih =>
    obtain ⟨k, a⟩ := head
    have hk : compare key k = .lt := h (k, a) List.mem_cons_self
    simp only [lookup, hk, reduceCtorEq, ↓reduceIte]
    exact ih fun e he => h e (List.mem_cons_of_mem _ he)

variable [Std.TransOrd κ]

/-- An alteration keeps the keys ascending. -/
theorem ascending_alterEntries (key : κ) (f : Option α → α) {es : List (κ × α)}
    (h : es.Pairwise fun a b => compare a.1 b.1 = .lt) :
    (alterEntries key f es).Pairwise fun a b => compare a.1 b.1 = .lt := by
  induction es with
  | nil => simp [alterEntries]
  | cons head rest ih =>
    obtain ⟨k, a⟩ := head
    obtain ⟨hhead, hrest⟩ := List.pairwise_cons.mp h
    unfold alterEntries
    split
    · rename_i hlt
      refine List.pairwise_cons.mpr ⟨fun e he => ?_, h⟩
      rcases List.mem_cons.mp he with he | he
      · rw [he]
        exact hlt
      · exact Std.TransCmp.lt_trans hlt (hhead e he)
    · exact List.pairwise_cons.mpr ⟨hhead, hrest⟩
    · rename_i hgt
      refine List.pairwise_cons.mpr ⟨fun e he => ?_, ih hrest⟩
      rcases mem_keys_alterEntries he with he | ⟨e', he', hk⟩
      · rw [he]
        exact Std.OrientedCmp.gt_iff_lt.mp hgt
      · rw [← hk]
        exact hhead e' he'

/-- The table with the value for `key` made what `f` makes of the value so far. -/
def alter (t : Table κ α) (key : κ) (f : Option α → α) : Table κ α :=
  ⟨alterEntries key f t.entries, ascending_alterEntries key f t.ascending⟩

/-- The table with the given value for `key`. -/
def insert (t : Table κ α) (key : κ) (value : α) : Table κ α :=
  t.alter key fun _ => value

/-! ## What a table has for a key -/

/-- The altered key has the altered value. -/
theorem lookup_alterEntries_self (key : κ) (f : Option α → α) {es : List (κ × α)}
    (h : es.Pairwise fun a b => compare a.1 b.1 = .lt) :
    lookup key (alterEntries key f es) = some (f (lookup key es)) := by
  induction es with
  | nil => simp [alterEntries, lookup]
  | cons head rest ih =>
    obtain ⟨k, a⟩ := head
    obtain ⟨hhead, hrest⟩ := List.pairwise_cons.mp h
    unfold alterEntries
    split
    · rename_i hlt
      have hnone : lookup key rest = none :=
        lookup_eq_none fun e he => Std.TransCmp.lt_trans hlt (hhead e he)
      simp [lookup, hlt, hnone]
    · rename_i heq
      simp [lookup, heq]
    · rename_i hgt
      simp only [lookup, hgt, reduceCtorEq, ↓reduceIte]
      exact ih hrest

@[simp] theorem get?_alter_self (t : Table κ α) (key : κ) (f : Option α → α) :
    (t.alter key f).get? key = some (f (t.get? key)) :=
  lookup_alterEntries_self key f t.ascending

variable [Std.LawfulEqOrd κ]

omit [Std.TransOrd κ] in
/-- Other keys keep their values. -/
theorem lookup_alterEntries_of_ne {key other : κ} (hne : other ≠ key) (f : Option α → α)
    (es : List (κ × α)) : lookup other (alterEntries key f es) = lookup other es := by
  have hcmp : compare other key ≠ .eq := fun h => hne (Std.LawfulEqCmp.eq_of_compare h)
  induction es with
  | nil => simp [alterEntries, lookup, hcmp]
  | cons head rest ih =>
    obtain ⟨k, a⟩ := head
    unfold alterEntries
    split
    · simp [lookup, hcmp]
    · rename_i heq
      have hk : key = k := Std.LawfulEqCmp.eq_of_compare heq
      subst hk
      simp [lookup, hcmp]
    · simp [lookup, ih]

theorem get?_alter_of_ne (t : Table κ α) {key other : κ} (hne : other ≠ key) (f : Option α → α) :
    (t.alter key f).get? other = t.get? other :=
  lookup_alterEntries_of_ne hne f t.entries

/-- What a table has for a key after an alteration. -/
theorem get?_alter [DecidableEq κ] (t : Table κ α) (key other : κ) (f : Option α → α) :
    (t.alter key f).get? other = if other = key then some (f (t.get? key)) else t.get? other := by
  by_cases h : other = key
  · subst h
    simp
  · simp [h, get?_alter_of_ne t h]

omit [Std.TransOrd κ] in
/-- The keys of a table are those that it has a value for. -/
theorem mem_keys_iff (t : Table κ α) (key : κ) : key ∈ t.keys ↔ t.contains key = true := by
  have hall : ∀ es : List (κ × α), key ∈ es.map (·.1) ↔ (lookup key es).isSome = true := by
    intro es
    induction es with
    | nil => simp [lookup]
    | cons head rest ih =>
      obtain ⟨k, a⟩ := head
      by_cases h : compare key k = .eq
      · have hk : key = k := Std.LawfulEqCmp.eq_of_compare h
        simp [lookup, hk]
      · have hne : key ≠ k := by
          rintro rfl
          exact h Std.ReflCmp.compare_self
        simp only [List.map_cons, List.mem_cons, hne, false_or, lookup, h, if_false]
        exact ih
  exact hall t.entries

/-! ## A table is what it has for each key -/

/-- Two ascending lists of entries that have the same value for each key are the same. -/
theorem eq_of_lookup_eq {es fs : List (κ × α)}
    (hes : es.Pairwise fun a b => compare a.1 b.1 = .lt)
    (hfs : fs.Pairwise fun a b => compare a.1 b.1 = .lt)
    (h : ∀ key, lookup key es = lookup key fs) : es = fs := by
  induction es generalizing fs with
  | nil =>
    cases fs with
    | nil => rfl
    | cons f fs =>
      have hf := h f.1
      simp [lookup] at hf
  | cons e es ih =>
    cases fs with
    | nil =>
      have he := h e.1
      simp [lookup] at he
    | cons f fs =>
      obtain ⟨ehead, erest⟩ := List.pairwise_cons.mp hes
      obtain ⟨fhead, frest⟩ := List.pairwise_cons.mp hfs
      have hkey : e.1 = f.1 := by
        cases hc : compare e.1 f.1 with
        | eq => exact Std.LawfulEqCmp.eq_of_compare hc
        | lt =>
          have hnone : lookup e.1 (f :: fs) = none := by
            refine lookup_eq_none fun x hx => ?_
            rcases List.mem_cons.mp hx with hx | hx
            · rw [hx]
              exact hc
            · exact Std.TransCmp.lt_trans hc (fhead x hx)
          have he := h e.1
          rw [hnone] at he
          simp [lookup] at he
        | gt =>
          have hc' := Std.OrientedCmp.gt_iff_lt.mp hc
          have hnone : lookup f.1 (e :: es) = none := by
            refine lookup_eq_none fun x hx => ?_
            rcases List.mem_cons.mp hx with hx | hx
            · rw [hx]
              exact hc'
            · exact Std.TransCmp.lt_trans hc' (ehead x hx)
          have hf := h f.1
          rw [hnone] at hf
          simp [lookup] at hf
      have hvalue : e.2 = f.2 := by
        have he := h e.1
        simpa [lookup, hkey] using he
      have hrest : es = fs := by
        refine ih erest frest fun key => ?_
        cases hc : compare key e.1 with
        | eq =>
          have hk : key = e.1 := Std.LawfulEqCmp.eq_of_compare hc
          rw [hk, lookup_eq_none ehead, hkey, lookup_eq_none fhead]
        | lt => simpa [lookup, ← hkey, hc] using h key
        | gt => simpa [lookup, ← hkey, hc] using h key
      rw [hrest, Prod.ext hkey hvalue]

/-- Two tables that have the same value for each key are the same. -/
theorem ext_get? {s t : Table κ α} (h : ∀ key, s.get? key = t.get? key) : s = t := by
  have hentries := eq_of_lookup_eq s.ascending t.ascending h
  cases s
  cases t
  simp_all

end Table

end Sigil
