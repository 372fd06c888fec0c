import Sigil.Tree.Outline

/-!
# Outlines as text

The text of an outline is flat: which entries belong to which node is seen from the branches and rails before
them only. It can be seen, though. A branch starts with a plus, and nothing below it does, so an outline is
cut into its children at the pluses; a branch says itself where it ends, and what stands below it is indented
by just as much. An outline can be read back from its text if no label has a line feed in it and no name of a
branch has a closing bracket in it (`Outline.Tidy`).
-/

namespace Sigil

/-- A list is cut in one way only before the first element with some property. -/
theorem append_inj_of_stop {α : Type} {p : α → Bool} {xs xs' ys ys' : List α}
    (hxs : ∀ x ∈ xs, p x = false) (hxs' : ∀ x ∈ xs', p x = false) (hys : ∀ y ∈ ys.head?, p y = true)
    (hys' : ∀ y ∈ ys'.head?, p y = true) (h : xs ++ ys = xs' ++ ys') : xs = xs' ∧ ys = ys' := by
  induction xs generalizing xs' with
  | nil =>
    cases xs' with
    | nil => exact ⟨rfl, h⟩
    | cons x xs' =>
      have hstop := hys x (by rw [List.nil_append] at h; rw [h]; rfl)
      rw [hxs' x List.mem_cons_self] at hstop
      cases hstop
  | cons x xs ih =>
    cases xs' with
    | nil =>
      have hstop := hys' x (by rw [List.nil_append] at h; rw [← h]; rfl)
      rw [hxs x List.mem_cons_self] at hstop
      cases hstop
    | cons x' xs' =>
      obtain ⟨rfl, hrest⟩ := List.cons.inj h
      obtain ⟨rfl, hys⟩ := ih (fun y hy => hxs y (List.mem_cons_of_mem _ hy))
        (fun y hy => hxs' y (List.mem_cons_of_mem _ hy)) hrest
      exact ⟨rfl, hys⟩

/-- A text is cut in one way only at the first place of a character. -/
theorem append_cons_inj_of_not_mem {c : Char} {xs xs' ys ys' : List Char} (hxs : c ∉ xs) (hxs' : c ∉ xs')
    (h : xs ++ c :: ys = xs' ++ c :: ys') : xs = xs' ∧ ys = ys' := by
  have hother : ∀ {zs : List Char}, c ∉ zs → ∀ d ∈ zs, (d == c) = false := fun hzs d hd =>
    beq_eq_false_iff_ne.mpr (ne_of_mem_of_not_mem hd hzs)
  have hstop : ∀ zs : List Char, ∀ d ∈ (c :: zs).head?, (d == c) = true := by
    rintro zs d ⟨⟩
    exact beq_self_eq_true c
  obtain ⟨hbefore, hafter⟩ :=
    append_inj_of_stop (p := (· == c)) (hother hxs) (hother hxs') (hstop ys) (hstop ys') h
  exact ⟨hbefore, (List.cons.inj hafter).2⟩

namespace Outline

/-- Induction on outlines. -/
@[elab_as_elim, induction_eliminator]
theorem induction {motive : Outline → Prop}
    (node : ∀ branch label children, (∀ o ∈ children, motive o) → motive (.node branch label children))
    (o : Outline) : motive o :=
  @Outline.rec motive (fun os => ∀ o ∈ os, motive o) node nofun
    (fun _ _ ho hos => List.forall_mem_cons.mpr ⟨ho, hos⟩) o

/-- The name of a branch can be told from what follows it. -/
def TidyBranch (branch : Option String) : Prop :=
  ∀ name ∈ branch, ']' ∉ name.toList ∧ '\n' ∉ name.toList

theorem tidyBranch_none : TidyBranch none := nofun

/-- The outline has nothing in it that breaks a line or a branch. -/
inductive Tidy : Outline → Prop where
  | node {branch : Option String} {label : String} {children : List Outline}
      (hbranch : TidyBranch branch) (hlabel : '\n' ∉ label.toList)
      (hchildren : ∀ o ∈ children, Tidy o) : Tidy (.node branch label children)

theorem Tidy.branch {o : Outline} (h : o.Tidy) : TidyBranch o.branch := by
  cases h with
  | node hbranch => exact hbranch

/-! ## Branches and rails -/

theorem toList_stem_some (name : String) :
    (stem (some name)).toList = '+' :: '[' :: (name.toList ++ [']', '>', ' ']) := by
  simp [stem]

/-- A branch shows where it ends. -/
theorem stem_append_inj {b b' : Option String} (hb : TidyBranch b) (hb' : TidyBranch b')
    {label label' : String} (h : stem b ++ label = stem b' ++ label') : b = b' ∧ label = label' := by
  rw [← String.toList_inj, String.toList_append, String.toList_append] at h
  cases b with
  | none =>
    cases b' with
    | none => exact ⟨rfl, String.toList_inj.mp (List.append_cancel_left h)⟩
    | some name =>
      rw [toList_stem_some] at h
      exact absurd (List.cons.inj (List.cons.inj h).2).1 (by decide)
  | some name =>
    rw [toList_stem_some] at h
    cases b' with
    | none => exact absurd (List.cons.inj (List.cons.inj h).2).1 (by decide)
    | some name' =>
      rw [toList_stem_some] at h
      have hrest : name.toList ++ ']' :: ('>' :: ' ' :: label.toList) =
          name'.toList ++ ']' :: ('>' :: ' ' :: label'.toList) := by
        simpa using h
      obtain ⟨hname, hlabel⟩ := append_cons_inj_of_not_mem (hb name rfl).1 (hb' name' rfl).1 hrest
      rw [String.toList_inj.mp hname]
      exact ⟨rfl, String.toList_inj.mp (List.cons.inj (List.cons.inj hlabel).2).2⟩

/-- A branch or a rail before an entry. -/
inductive Lead (branch : Option String) : String → Prop where
  | stem : Lead branch (stem branch)
  | rail (isLast : Bool) : Lead branch (rail branch isLast)

theorem Lead.newline_not_mem {b : Option String} (hb : TidyBranch b) {lead : String} (h : Lead b lead) :
    '\n' ∉ lead.toList := by
  cases h with
  | stem =>
    cases b with
    | none => decide
    | some name =>
      have hname := (hb name rfl).2
      simp [toList_stem_some, hname]
  | rail isLast =>
    rw [Outline.rail, String.toList_ofList]
    cases isLast <;> simp [List.mem_replicate]

/-- A rail is as wide as the branch that it stands below. -/
theorem length_toList_rail (b : Option String) (isLast : Bool) :
    (rail b isLast).toList.length = (stem b).toList.length := by
  have hpos : 0 < (stem b).toList.length := by
    cases b with
    | none => decide
    | some name => simp [toList_stem_some]
  rw [rail, String.toList_ofList, List.length_cons, List.length_replicate, ← String.length_toList]
  omega

/-- Whether the entry starts with a branch. -/
def startsBranch (entry : String) : Bool := entry.toList.head? == some '+'

/-- The entry of a child starts with a branch. -/
theorem startsBranch_stem (b : Option String) (label : String) :
    startsBranch (stem b ++ label) = true := by
  cases b with
  | none => simp [startsBranch, stem]
  | some name => simp [startsBranch, toList_stem_some]

/-- The entries below a child do not start with a branch. -/
theorem startsBranch_rail (b : Option String) (isLast : Bool) (entry : String) :
    startsBranch (rail b isLast ++ entry) = false := by
  rw [startsBranch, String.toList_append, rail, String.toList_ofList]
  cases isLast <;> rfl

/-- What stands below a branch can be read without its rails. -/
theorem map_rail_inj {b : Option String} {isLast isLast' : Bool} {entries entries' : List String}
    (h : entries.map (rail b isLast ++ ·) = entries'.map (rail b isLast' ++ ·)) : entries = entries' := by
  have hoff : ∀ (last : Bool) (es : List String),
      (es.map (rail b last ++ ·)).map (fun e => e.toList.drop (stem b).toList.length) =
        es.map String.toList := by
    intro last es
    rw [List.map_map]
    refine List.map_congr_left fun e _ => ?_
    rw [Function.comp_apply, String.toList_append, ← length_toList_rail b last, List.drop_left]
  have hlists : entries.map String.toList = entries'.map String.toList := by
    rw [← hoff isLast, ← hoff isLast', h]
  exact (List.map_inj_right fun _ _ => String.toList_inj.mp).mp hlists

/-! ## Outlines from entries -/

/-- The outlines below the root. -/
def children : Outline → List Outline
  | .node _ _ children => children

theorem childEntries_cons (b : Option String) (label : String) (children siblings : List Outline) :
    childEntries (.node b label children :: siblings) =
      (stem b ++ label) ::
        ((childEntries children).map (rail b siblings.isEmpty ++ ·) ++ childEntries siblings) :=
  rfl

/-- The entries of several children start with a branch. -/
theorem startsBranch_of_head? (os : List Outline) :
    ∀ entry ∈ (childEntries os).head?, startsBranch entry = true := by
  intro entry hentry
  cases os with
  | nil => cases hentry
  | cons o siblings =>
    obtain ⟨b, label, children⟩ := o
    cases hentry
    exact startsBranch_stem b label

/-- The children of the outline can be told from the entries of all other tidy outlines. -/
def Restorable (o : Outline) : Prop :=
  ∀ os : List Outline, (∀ c ∈ os, c.Tidy) → childEntries o.children = childEntries os → o.children = os

/-- Siblings are told apart by their branches. -/
theorem childEntries_inj_of_forall {os os' : List Outline} (hos : ∀ o ∈ os, o.Tidy ∧ o.Restorable)
    (hos' : ∀ o ∈ os', o.Tidy) (h : childEntries os = childEntries os') : os = os' := by
  induction os generalizing os' with
  | nil =>
    cases os' with
    | nil => rfl
    | cons o' siblings' =>
      obtain ⟨b', label', children'⟩ := o'
      cases h
  | cons o siblings ih =>
    obtain ⟨b, label, children⟩ := o
    cases os' with
    | nil => cases h
    | cons o' siblings' =>
      obtain ⟨b', label', children'⟩ := o'
      obtain ⟨⟨htidy, hrestorable⟩, hsiblings⟩ := List.forall_mem_cons.mp hos
      obtain ⟨htidy', hsiblings'⟩ := List.forall_mem_cons.mp hos'
      rw [childEntries_cons, childEntries_cons] at h
      obtain ⟨hfirst, hrest⟩ := List.cons.inj h
      have hbranch : TidyBranch b := htidy.branch
      have hbranch' : TidyBranch b' := htidy'.branch
      obtain ⟨rfl, rfl⟩ := stem_append_inj hbranch hbranch' hfirst
      -- The next plus is that of the next sibling.
      obtain ⟨hbelow, hnext⟩ := append_inj_of_stop (p := startsBranch)
        (List.forall_mem_map.mpr fun e _ => startsBranch_rail b _ e)
        (List.forall_mem_map.mpr fun e _ => startsBranch_rail b _ e)
        (startsBranch_of_head? siblings) (startsBranch_of_head? siblings') hrest
      have hchildren' : ∀ c ∈ children', c.Tidy := by
        cases htidy' with
        | node _ _ hchildren => exact hchildren
      obtain rfl : children = children' := hrestorable children' hchildren' (map_rail_inj hbelow)
      rw [ih hsiblings hsiblings' hnext]

/-- A tidy outline can be told from its entries. -/
theorem Tidy.restorable {o : Outline} (h : o.Tidy) : o.Restorable := by
  induction o with
  | node branch label children ih =>
    cases h with
    | node _ _ hchildren =>
      intro os hos heq
      exact childEntries_inj_of_forall (fun c hc => ⟨hchildren c hc, ih c hc (hchildren c hc)⟩) hos heq

/-- Two tidy outlines on the same branch with the same entries are equal. -/
theorem eq_of_entries_eq {o o' : Outline} (ho : o.Tidy) (ho' : o'.Tidy) (hbranch : o.branch = o'.branch)
    (h : o.entries = o'.entries) : o = o' := by
  have hrestorable := ho.restorable
  obtain ⟨b, label, children⟩ := o
  obtain ⟨b', label', children'⟩ := o'
  obtain ⟨rfl, hbelow⟩ := List.cons.inj h
  obtain rfl : b = b' := hbranch
  cases ho' with
  | node _ _ hchildren' =>
    obtain rfl : children = children' := hrestorable children' hchildren' hbelow
    rfl

/-! ## Entries from the text -/

theorem Lead.newline_not_mem_append {b : Option String} (hb : TidyBranch b) {lead entry : String}
    (h : Lead b lead) (hentry : '\n' ∉ entry.toList) : '\n' ∉ (lead ++ entry).toList := by
  rw [String.toList_append, List.mem_append, not_or]
  exact ⟨h.newline_not_mem hb, hentry⟩

theorem newline_not_mem_childEntries {os : List Outline}
    (hos : ∀ o ∈ os, o.Tidy ∧ ∀ entry ∈ o.entries, '\n' ∉ entry.toList) :
    ∀ entry ∈ childEntries os, '\n' ∉ entry.toList := by
  induction os with
  | nil => exact List.forall_mem_nil _
  | cons o siblings ih =>
    obtain ⟨b, label, children⟩ := o
    obtain ⟨⟨htidy, hentries⟩, hsiblings⟩ := List.forall_mem_cons.mp hos
    obtain ⟨hlabel, hbelow⟩ := List.forall_mem_cons.mp hentries
    have hbranch : TidyBranch b := htidy.branch
    rw [childEntries_cons]
    refine List.forall_mem_cons.mpr ⟨Lead.stem.newline_not_mem_append hbranch hlabel, ?_⟩
    refine List.forall_mem_append.mpr ⟨List.forall_mem_map.mpr fun e he => ?_, ih hsiblings⟩
    exact (Lead.rail _).newline_not_mem_append hbranch (hbelow e he)

/-- Each entry of a tidy outline is on one line. -/
theorem Tidy.newline_not_mem {o : Outline} (h : o.Tidy) : ∀ entry ∈ o.entries, '\n' ∉ entry.toList := by
  induction o with
  | node branch label children ih =>
    cases h with
    | node _ hlabel hchildren =>
      exact List.forall_mem_cons.mpr ⟨hlabel,
        newline_not_mem_childEntries fun o ho => ⟨hchildren o ho, ih o ho (hchildren o ho)⟩⟩

/-- The text of an outline is its entries, each followed by a line feed. -/
theorem toList_join_lines (lines : List String) :
    (String.join (lines.map (· ++ "\n"))).toList = lines.flatMap fun line => line.toList ++ ['\n'] := by
  rw [String.toList_join, List.flatMap_map]
  simp only [String.toList_append]
  rfl

/-- Lines are told apart by the line feeds behind them. -/
theorem lines_inj {lines lines' : List String} (h : ∀ line ∈ lines, '\n' ∉ line.toList)
    (h' : ∀ line ∈ lines', '\n' ∉ line.toList)
    (heq : (lines.flatMap fun line => line.toList ++ ['\n']) =
      lines'.flatMap fun line => line.toList ++ ['\n']) : lines = lines' := by
  induction lines generalizing lines' with
  | nil =>
    cases lines' with
    | nil => rfl
    | cons line' lines' => simp at heq
  | cons line lines ih =>
    cases lines' with
    | nil => simp at heq
    | cons line' lines' =>
      obtain ⟨hline, hlines⟩ := List.forall_mem_cons.mp h
      obtain ⟨hline', hlines'⟩ := List.forall_mem_cons.mp h'
      rw [List.flatMap_cons, List.flatMap_cons, List.append_assoc, List.append_assoc] at heq
      obtain ⟨hfirst, hrest⟩ := append_cons_inj_of_not_mem hline hline' heq
      rw [String.toList_inj.mp hfirst, ih hlines hlines' hrest]

/-- A tidy outline can be read back from its text. -/
theorem render_inj {o o' : Outline} (ho : o.Tidy) (ho' : o'.Tidy) (hbranch : o.branch = o'.branch)
    (h : o.render = o'.render) : o = o' := by
  refine eq_of_entries_eq ho ho' hbranch (lines_inj ho.newline_not_mem ho'.newline_not_mem ?_)
  rw [← toList_join_lines, ← toList_join_lines]
  exact congrArg String.toList h

end Outline

end Sigil
