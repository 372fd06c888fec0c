import Sigil.Proofs.ScopeTables

/-!
# Slots for arguments

Arguments are passed by number, and the argument `k` arrives in the local variable whose name is `k` in
decimal digits. A scope lists the arguments by number, but the local variables by name, and in a name the
number may have leading zeros. So there is a slot for every argument exactly if each number that occurs is
also written without leading zeros.
-/

namespace Sigil

/-! ## Numbers in decimal digits -/

/-- The value of the decimal digits of a number is that number. -/
theorem digitsValue_toDigits (n : Nat) : digitsValue 10 (Nat.toDigits 10 n) = n :=
  Nat.ofDigitChars_ten_toDigits

/-- A digit is written as the digit of its value. -/
theorem digitChar_digitValue {c : Char} (h : c.isDigit = true) :
    digitValue c < 10 ∧ (digitValue c).digitChar = c := by
  obtain ⟨hlow, hhigh⟩ := Char.isDigit_iff_toNat.mp h
  have hzero : '0'.toNat = 48 := rfl
  have hnine : '9'.toNat = 57 := rfl
  have hlt : digitValue c < 10 := by
    rw [digitValue]
    omega
  refine ⟨hlt, Char.toNat_inj.mp ?_⟩
  rw [Nat.toNat_digitChar_of_lt_ten hlt, digitValue]
  omega

/-- Digits that follow a number other than 0 are the last digits of the number that is written so. -/
theorem toDigits_foldl {n : Nat} (hn : 0 < n) {ds : List Char} (h : ∀ c ∈ ds, c.isDigit = true) :
    Nat.toDigits 10 (ds.foldl (fun n c => 10 * n + digitValue c) n) = Nat.toDigits 10 n ++ ds := by
  induction ds generalizing n with
  | nil => simp
  | cons c ds ih =>
    obtain ⟨hc, hds⟩ := List.forall_mem_cons.mp h
    obtain ⟨hlt, hchar⟩ := digitChar_digitValue hc
    have hpos : 0 < 10 * n + digitValue c := by omega
    have hstep : Nat.toDigits 10 (10 * n + digitValue c) = Nat.toDigits 10 n ++ [c] := by
      rw [← Nat.toDigits_append_toDigits (by decide) hn hlt, Nat.toDigits_of_lt_base hlt, hchar]
    rw [List.foldl_cons, ih hpos hds, hstep, List.append_assoc, List.singleton_append]

/-- Digits that do not start with 0 are those of the number that they write. -/
theorem toDigits_digitsValue {c : Char} {ds : List Char} (h : ∀ d ∈ c :: ds, d.isDigit = true)
    (hc : c ≠ '0') : Nat.toDigits 10 (digitsValue 10 (c :: ds)) = c :: ds := by
  obtain ⟨hdigit, hds⟩ := List.forall_mem_cons.mp h
  obtain ⟨hlt, hchar⟩ := digitChar_digitValue hdigit
  have hpos : 0 < digitValue c := by
    rcases Nat.eq_zero_or_pos (digitValue c) with hzero | hpos
    · rw [hzero] at hchar
      exact absurd hchar.symm hc
    · exact hpos
  have hfirst : digitsValue 10 (c :: ds) =
      ds.foldl (fun n c => 10 * n + digitValue c) (digitValue c) := by
    rw [digitsValue, List.foldl_cons, Nat.mul_zero, Nat.zero_add]
  rw [hfirst, toDigits_foldl hpos hds, Nat.toDigits_of_lt_base hlt, hchar, List.singleton_append]

/-- Only zero is written with a leading zero. -/
theorem eq_zero_of_head?_toDigits {n : Nat} (h : (Nat.toDigits 10 n).head? = some '0') : n = 0 := by
  induction n using Nat.strongRecOn with
  | ind n ih =>
    rw [Nat.toDigits_eq_if (by decide)] at h
    by_cases hn : n < 10
    · rw [if_pos hn] at h
      simpa using h
    · rw [if_neg hn, List.head?_append_of_ne_nil _ Nat.toDigits_ne_nil] at h
      have hzero := ih (n / 10) (by omega) h
      omega

/-! ## Arguments by name -/

namespace Variable

/-- The name has no leading zeros. -/
def Plain (v : Variable) : Prop := v.name.toList.head? = some '0' → v.name = "0"

instance (v : Variable) : Decidable v.Plain :=
  inferInstanceAs (Decidable (v.name.toList.head? = some '0' → v.name = "0"))

/-- The argument with the given number, as it is named where arguments are passed. -/
def argument (k : Nat) : Variable := ⟨toString k, .localSlot⟩

/-- An argument is a local variable whose name is a row of digits, with a value that is not too large. -/
theorem argumentIndex?_eq_some_iff {v : Variable} {k : Nat} :
    v.argumentIndex? = some k ↔ v.storage = .localSlot ∧ v.name.toList ≠ [] ∧
      (∀ c ∈ v.name.toList, c.isDigit = true) ∧ k ≤ maxArgument ∧ digitsValue 10 v.name.toList = k := by
  rw [argumentIndex?, Option.ite_none_right_eq_some, Option.some_inj, List.all_eq_true]
  constructor
  · rintro ⟨⟨hstorage, hne, hall, hmax⟩, rfl⟩
    exact ⟨hstorage, hne, hall, hmax, rfl⟩
  · rintro ⟨hstorage, hne, hall, hmax, rfl⟩
    exact ⟨⟨hstorage, hne, hall, hmax⟩, rfl⟩

theorem toList_name_argument (k : Nat) : (argument k).name.toList = Nat.toDigits 10 k :=
  Nat.toList_repr

/-- The variable for an argument has its number in plain digits. -/
theorem plain_argument (k : Nat) : (argument k).Plain := by
  intro h
  rw [toList_name_argument] at h
  rw [eq_zero_of_head?_toDigits h]
  rfl

theorem argumentIndex?_argument {k : Nat} (h : k ≤ maxArgument) :
    (argument k).argumentIndex? = some k := by
  rw [argumentIndex?_eq_some_iff, toList_name_argument]
  exact ⟨rfl, Nat.toDigits_ne_nil, fun c hc => Nat.isDigit_of_mem_toDigits (by decide) (by decide) hc, h,
    digitsValue_toDigits k⟩

/-- An argument that is written without leading zeros has the name that it is passed by. -/
theorem Plain.eq_argument {v : Variable} {k : Nat} (hplain : v.Plain) (h : v.argumentIndex? = some k) :
    v = argument k := by
  obtain ⟨hstorage, hne, hall, -, hvalue⟩ := argumentIndex?_eq_some_iff.mp h
  have hname : v.name = toString k := by
    by_cases hzero : v.name = "0"
    · rw [hzero] at hvalue
      have hk : digitsValue 10 "0".toList = 0 := by decide
      rw [hzero, ← hvalue, hk]
      rfl
    · obtain ⟨c, ds, hdigits⟩ := List.exists_cons_of_ne_nil hne
      have hc : c ≠ '0' := by
        rintro rfl
        exact hzero (hplain (by rw [hdigits, List.head?_cons]))
      rw [hdigits] at hall hvalue
      have htext := toDigits_digitsValue hall hc
      rw [hvalue] at htext
      apply String.toList_inj.mp
      rw [hdigits, Nat.toString_eq_repr, Nat.toList_repr, htext]
  cases v
  cases hstorage
  rw [argument, ← hname]

end Variable

/-! ## Slots -/

/-- Every argument that is passed has a slot to arrive in, and there is a result exactly if the slot for it
is one of the arguments. -/
structure Scope.HasSlots (s : Scope) : Prop where
  args : ∀ k ∈ s.args.keys, 1 ≤ k → toString k ∈ s.locals.keys
  result : s.usesResult = true ↔ 0 ∈ s.args.keys

/-- Each number of an argument that occurs is also written without leading zeros. -/
def Block.NumbersPlainly (b : Block) : Prop :=
  ∀ v ∈ b.variables, v.argumentIndex?.isSome = true →
    ∃ w ∈ b.variables, w.argumentIndex? = v.argumentIndex? ∧ w.Plain

instance (b : Block) : Decidable b.NumbersPlainly :=
  inferInstanceAs (Decidable (∀ v ∈ b.variables, v.argumentIndex?.isSome = true →
    ∃ w ∈ b.variables, w.argumentIndex? = v.argumentIndex? ∧ w.Plain))

/-- The arguments are numbered plainly if each of them occurs under its plain name too. -/
theorem Block.numbersPlainly_iff (b : Block) :
    b.NumbersPlainly ↔
      ∀ v ∈ b.variables, ∀ k, v.argumentIndex? = some k → Variable.argument k ∈ b.variables := by
  constructor
  · intro h v hv k hk
    obtain ⟨w, hw, hindex, hplain⟩ := h v hv (by rw [hk, Option.isSome_some])
    rw [← hplain.eq_argument (hindex.trans hk)]
    exact hw
  · intro h v hv hsome
    obtain ⟨k, hk⟩ := Option.isSome_iff_exists.mp hsome
    have hmax : k ≤ Variable.maxArgument := (Variable.argumentIndex?_eq_some_iff.mp hk).2.2.2.1
    have hindex := Variable.argumentIndex?_argument hmax
    exact ⟨_, h v hv k hk, hindex.trans hk.symm, Variable.plain_argument k⟩

/-- The slot for the result is that of the argument 0, so it is no special case. -/
theorem Scope.hasSlots_iff {s : Scope} (h : s.usesResult = true → 0 ∈ s.args.keys) :
    s.HasSlots ↔ ∀ k ∈ s.args.keys, toString k ∈ s.locals.keys := by
  have hresult : s.usesResult = true ↔ toString 0 ∈ s.locals.keys :=
    (s.locals.mem_keys_iff Variable.resultSlot).symm
  constructor
  · rintro ⟨hargs, hzero⟩ k hk
    rcases Nat.eq_zero_or_pos k with rfl | hpos
    · exact hresult.mp (hzero.mpr hk)
    · exact hargs k hk hpos
  · intro hall
    exact ⟨fun k hk _ => hall k hk, h, fun hzero => hresult.mpr (hall 0 hzero)⟩

/-- The arguments of a script have slots exactly if it writes each of their numbers without leading zeros
somewhere. -/
theorem hasSlots_iff_numbersPlainly {s : Script} {b : Block} (h : s.parse = .ok b) (shared : Scope)
    (session : Session) :
    ∃ t, (s.analyze shared session).1 = .ok t ∧ (t.scope.HasSlots ↔ b.NumbersPlainly) := by
  refine ⟨s.taggedAs b shared, (Script.analyze_of_parse h shared session).1, ?_⟩
  have hbody : (s.taggedAs b shared).procedure.body.variables = b.variables := b.variables_tagged
  have hlists := s.listsVariables_taggedAs h shared
  have hargs := hlists.args
  have hlocals := hlists.locals
  rw [hbody] at hargs hlocals
  have hresult : (s.taggedAs b shared).scope.usesResult = true →
      0 ∈ (s.taggedAs b shared).scope.args.keys := by
    intro huses
    have hslot := (hlocals _).mp ((Table.mem_keys_iff _ Variable.resultSlot).mpr huses)
    exact (hargs 0).mpr ⟨_, hslot, rfl⟩
  rw [Scope.hasSlots_iff hresult, Block.numbersPlainly_iff]
  constructor
  · intro hall v hv k hk
    exact (hlocals _).mp (hall k ((hargs k).mpr ⟨v, hv, hk⟩))
  · intro hall k hk
    obtain ⟨v, hv, hindex⟩ := (hargs k).mp hk
    exact (hlocals _).mpr (hall v hv k hindex)

/-- An argument that is written with a leading zero has a slot if it is also written without one. -/
theorem hasSlots_of_repeated_number :
    ∃ b, Script.parse ⟨"unit", "$0 := $1 + $02 + $2"⟩ = .ok b ∧ b.NumbersPlainly ∧
      ∃ t, (Script.analyze ⟨"unit", "$0 := $1 + $02 + $2"⟩ .empty .empty).1 = .ok t ∧
        t.scope.HasSlots := by
  have hparse : ((Script.parse ⟨"unit", "$0 := $1 + $02 + $2"⟩).toOption.any fun b =>
      decide b.NumbersPlainly) = true := by
    decide +kernel
  obtain ⟨b, hb, hplain⟩ := Option.any_eq_true _ _ |>.mp hparse
  have hok := eq_ok_of_toOption hb
  obtain ⟨t, ht, hslots⟩ := hasSlots_iff_numbersPlainly hok .empty .empty
  exact ⟨b, hok, of_decide_eq_true hplain, t, ht, hslots.mpr (of_decide_eq_true hplain)⟩

/-- An argument that is only written with leading zeros has no slot, and the same goes for the result. -/
theorem no_slot_for_leading_zeros :
    (∃ t, (Script.analyze ⟨"unit", "$01"⟩ .empty .empty).1 = .ok t ∧
      1 ∈ t.scope.args.keys ∧ toString 1 ∉ t.scope.locals.keys) ∧
    ∃ t, (Script.analyze ⟨"unit", "$00"⟩ .empty .empty).1 = .ok t ∧
      0 ∈ t.scope.args.keys ∧ t.scope.usesResult = false := by
  have hone : ((Script.analyze ⟨"unit", "$01"⟩ .empty .empty).1.toOption.any fun t =>
      decide (1 ∈ t.scope.args.keys ∧ toString 1 ∉ t.scope.locals.keys)) = true := by
    decide +kernel
  have hzero : ((Script.analyze ⟨"unit", "$00"⟩ .empty .empty).1.toOption.any fun t =>
      decide (0 ∈ t.scope.args.keys ∧ t.scope.usesResult = false)) = true := by
    decide +kernel
  obtain ⟨t, ht, hfound⟩ := Option.any_eq_true _ _ |>.mp hone
  obtain ⟨u, hu, hmissed⟩ := Option.any_eq_true _ _ |>.mp hzero
  exact ⟨⟨t, eq_ok_of_toOption ht, of_decide_eq_true hfound⟩,
    u, eq_ok_of_toOption hu, of_decide_eq_true hmissed⟩

end Sigil
