import Sigil.Proofs.Annotation
import Sigil.Proofs.OpenQuote
import Sigil.Proofs.OutlineText
import Sigil.Proofs.Unplaced

/-!
# Trees as text

The text of a tree shows everything of it but its spans. The label of an expression tells what kind of
expression it is, what is written on it and which type it has, since no name of a type has a space in it. The
label of a statement tells what kind of statement it is, and the names of its branches which parts it has. So
two trees with the same outline are the same up to spans, if the texts on them break no lines and no name
looks like one with a sigil (`Block.Plain`).
-/

namespace Sigil

/-! ## Nodes of expressions -/

/-- Whether `c` is part of a sigil. -/
def isSigilChar (c : Char) : Bool := c == '$' || c == '<' || c == '>'

/-- Sigils can be told from names without such characters. -/
theorem Variable.sigil_append_inj {v v' : Variable} (hv : ∀ c ∈ v.name.toList, isSigilChar c = false)
    (hv' : ∀ c ∈ v'.name.toList, isSigilChar c = false)
    (h : v.storage.sigil ++ v.name = v'.storage.sigil ++ v'.name) : v = v' := by
  have hsigil : ∀ s : Storage, ∀ c ∈ s.sigil.toList, (!isSigilChar c) = false := by
    intro s
    cases s <;> simp [Storage.sigil, isSigilChar]
  have hname : ∀ {w : Variable}, (∀ c ∈ w.name.toList, isSigilChar c = false) →
      ∀ c ∈ w.name.toList.head?, (!isSigilChar c) = true := by
    intro w hw c hc
    rw [hw c (List.mem_of_head? hc)]
    rfl
  have hinj : ∀ s s' : Storage, s.sigil = s'.sigil → s = s' := by
    intro s s' heq
    cases s <;> cases s' <;> simp_all [Storage.sigil]
  rw [← String.toList_inj, String.toList_append, String.toList_append] at h
  obtain ⟨hstorage, htext⟩ := append_inj_of_stop (hsigil _) (hsigil _) (hname hv) (hname hv') h
  obtain ⟨name, storage⟩ := v
  obtain ⟨name', storage'⟩ := v'
  rw [Variable.mk.injEq]
  exact ⟨String.toList_inj.mp htext, hinj _ _ (String.toList_inj.mp hstorage)⟩

/-- What is written on a node of an expression. -/
inductive Head where
  | literal (text : String)
  | var (ref : Variable)
  | unary (operator : String)
  | binary (operator : String)
  | call (name : String)

namespace Head

/-- The node as it is shown. -/
def text : Head → String
  | literal text => "Literal " ++ text
  | var ref => "Variable " ++ ref.storage.sigil ++ ref.name
  | unary op => "UnaryOp " ++ op
  | binary op => "BinaryOp " ++ op
  | call name => "Call " ++ name

/-- What is written on the node breaks no line, and the name of a variable has no sigil in it. -/
def Plain : Head → Prop
  | literal text => '\n' ∉ text.toList
  | var ref => '\n' ∉ ref.name.toList ∧ ∀ c ∈ ref.name.toList, isSigilChar c = false
  | unary op => '\n' ∉ op.toList
  | binary op => '\n' ∉ op.toList
  | call name => '\n' ∉ name.toList

/-- What is shown of a node tells what is written on it. -/
theorem text_inj {n n' : Head} (hn : n.Plain) (hn' : n'.Plain) (h : n.text = n'.text) : n = n' := by
  rw [← String.toList_inj] at h
  cases n with
  | literal text =>
    cases n' with
    | literal text' => simpa [Head.text, String.toList_inj] using h
    | _ => simp [Head.text] at h
  | var ref =>
    cases n' with
    | var ref' =>
      simp only [Head.text, String.append_assoc, String.toList_append] at h
      rw [Variable.sigil_append_inj hn.2 hn'.2]
      rw [← String.toList_inj, String.toList_append, String.toList_append]
      exact List.append_cancel_left h
    | _ => simp [Head.text] at h
  | unary op =>
    cases n' with
    | unary op' => simpa [Head.text, String.toList_inj] using h
    | _ => simp [Head.text] at h
  | binary op =>
    cases n' with
    | binary op' => simpa [Head.text, String.toList_inj] using h
    | _ => simp [Head.text] at h
  | call name =>
    cases n' with
    | call name' => simpa [Head.text, String.toList_inj] using h
    | _ => simp [Head.text] at h

/-- There is no line feed in what is written on a plain node. -/
theorem Plain.newline_not_mem {n : Head} (h : n.Plain) : '\n' ∉ n.text.toList := by
  cases n with
  | var ref =>
    have hsigil : '\n' ∉ ref.storage.sigil.toList := by cases ref.storage <;> decide
    simpa [Head.text, hsigil] using h.1
  | _ => simpa [Head.text] using (show '\n' ∉ String.toList _ from h)

end Head

namespace Expr

/-- What is written on the root of an expression. -/
def head : Expr → Head
  | literal text _ _ => .literal text
  | var ref _ _ => .var ref
  | unary op _ _ _ => .unary op
  | binary op _ _ _ _ => .binary op
  | call name _ _ _ => .call name

/-- The expressions right below the root of an expression. -/
def children : Expr → List Expr
  | literal _ _ _ => []
  | var _ _ _ => []
  | unary _ e _ _ => [e]
  | binary _ l r _ _ => [l, r]
  | call _ args _ _ => args

/-- Induction on expressions, for all nodes alike. -/
theorem induction_children {motive : Expr → Prop}
    (h : ∀ e, (∀ c ∈ e.children, motive c) → motive e) (e : Expr) : motive e := by
  induction e with
  | literal text t s => exact h _ (List.forall_mem_nil _)
  | var ref t s => exact h _ (List.forall_mem_nil _)
  | unary op e t s ih => exact h _ (List.forall_mem_singleton.mpr ih)
  | binary op l r t s ihl ihr =>
    exact h _ (List.forall_mem_cons.mpr ⟨ihl, List.forall_mem_singleton.mpr ihr⟩)
  | call name args t s ih => exact h _ ih

/-- What is written on a node is what it is and its type. -/
theorem label_eq (e : Expr) : e.label = e.head.text ++ " : " ++ e.type.label := by
  cases e <;> rfl

theorem outlines_eq (es : List Expr) : outlines es = es.map (outline none) :=
  eq_map_of_cons rfl (fun _ _ => rfl) es

theorem outline_eq (branch : Option String) (e : Expr) :
    e.outline branch = .node branch e.label (e.children.map (outline none)) := by
  cases e with
  | call name args t s => rw [outline, outlines_eq, children]
  | _ => rfl

/-- The parts of an expression are its children and their parts. -/
theorem parts_eq (e : Expr) : e.parts = e.children.flatMap fun c => c :: c.parts := by
  cases e with
  | literal text t s => rfl
  | var ref t s => rfl
  | unary op e t s => simp [parts, children]
  | binary op l r t s => simp [parts, children]
  | call name args t s => rw [parts, withParts_eq, children]

/-- An expression is what is written on its root, the type there, and what stands below. -/
theorem unplaced_eq_of_head {e e' : Expr} (hhead : e.head = e'.head) (htype : e.type = e'.type)
    (hchildren : e.children.map unplaced = e'.children.map unplaced) : e.unplaced = e'.unplaced := by
  cases e with
  | literal text t s =>
    cases e' with
    | literal text' t' s' =>
      obtain rfl : t = t' := htype
      obtain rfl : text = text' := Head.literal.inj hhead
      rfl
    | _ => cases hhead
  | var ref t s =>
    cases e' with
    | var ref' t' s' =>
      obtain rfl : t = t' := htype
      obtain rfl : ref = ref' := Head.var.inj hhead
      rfl
    | _ => cases hhead
  | unary op e t s =>
    cases e' with
    | unary op' e' t' s' =>
      obtain rfl : t = t' := htype
      obtain rfl : op = op' := Head.unary.inj hhead
      exact congrArg (unary op · t .nowhere) (List.cons.inj hchildren).1
    | _ => cases hhead
  | binary op l r t s =>
    cases e' with
    | binary op' l' r' t' s' =>
      obtain rfl : t = t' := htype
      obtain rfl : op = op' := Head.binary.inj hhead
      obtain ⟨hleft, hright⟩ := List.cons.inj hchildren
      show binary op l.unplaced r.unplaced t .nowhere = binary op l'.unplaced r'.unplaced t .nowhere
      rw [hleft, (List.cons.inj hright).1]
    | _ => cases hhead
  | call name args t s =>
    cases e' with
    | call name' args' t' s' =>
      obtain rfl : t = t' := htype
      obtain rfl : name = name' := Head.call.inj hhead
      rw [unplaced, mapSpans, unplaced, mapSpans, mapSpansAll_eq, mapSpansAll_eq]
      exact congrArg (call name · t .nowhere) hchildren
    | _ => cases hhead

/-- Nothing on the nodes of the expression breaks a line or looks like a sigil. -/
def Plain (e : Expr) : Prop := ∀ p ∈ e :: e.parts, p.head.Plain

theorem Plain.head {e : Expr} (h : e.Plain) : e.head.Plain := h e List.mem_cons_self

theorem Plain.children {e : Expr} (h : e.Plain) : ∀ c ∈ e.children, c.Plain := by
  intro c hc p hp
  refine h p (List.mem_cons_of_mem e ?_)
  rw [parts_eq]
  exact List.mem_flatMap.mpr ⟨c, hc, hp⟩

end Expr

namespace Ty

theorem ofLabel?_label (t : Ty) : ofLabel? t.label = some t := by
  cases t <;> rfl

theorem label_inj {t t' : Ty} (h : t.label = t'.label) : t = t' := by
  rw [← Option.some.injEq, ← ofLabel?_label, h, ofLabel?_label]

theorem not_mem_label (t : Ty) : ' ' ∉ t.label.toList ∧ '\n' ∉ t.label.toList := by
  cases t <;> decide

end Ty

/-! ## Expressions from their outlines -/

namespace Expr

/-- The label of an expression tells what is written on it and which type it has. -/
theorem label_inj {e e' : Expr} (he : e.head.Plain) (he' : e'.head.Plain) (h : e.label = e'.label) :
    e.head = e'.head ∧ e.type = e'.type := by
  have hlabel : ∀ x : Expr,
      x.label.toList = (x.head.text ++ " :").toList ++ ' ' :: x.type.label.toList := by
    intro x
    rw [label_eq]
    simp
  rw [← String.toList_inj, hlabel, hlabel] at h
  obtain ⟨htext, htype⟩ := eq_of_last_eq h e.type.not_mem_label.1 e'.type.not_mem_label.1
  rw [String.toList_append, String.toList_append] at htext
  have hhead := String.toList_inj.mp (List.append_cancel_right htext)
  exact ⟨Head.text_inj he he' hhead, Ty.label_inj (String.toList_inj.mp htype)⟩

theorem newline_not_mem_label {e : Expr} (h : e.head.Plain) : '\n' ∉ e.label.toList := by
  rw [label_eq]
  simp [h.newline_not_mem, e.type.not_mem_label.2]

/-- A plain expression has a tidy outline. -/
theorem Plain.tidy {e : Expr} (h : e.Plain) {branch : Option String} (hb : Outline.TidyBranch branch) :
    (e.outline branch).Tidy := by
  induction e using induction_children generalizing branch with
  | h e ih =>
    rw [outline_eq]
    refine .node hb (newline_not_mem_label h.head) (List.forall_mem_map.mpr fun c hc => ?_)
    exact ih c hc (h.children c hc) Outline.tidyBranch_none

end Expr

/-- What one function tells from lists, element by element, another one does. -/
theorem map_eq_map_of_forall {α β γ : Type} {f : α → β} {g : α → γ} {xs ys : List α}
    (h : ∀ x ∈ xs, ∀ y ∈ ys, f x = f y → g x = g y) (heq : xs.map f = ys.map f) :
    xs.map g = ys.map g := by
  induction xs generalizing ys with
  | nil =>
    cases ys with
    | nil => rfl
    | cons y ys => cases heq
  | cons x xs ih =>
    cases ys with
    | nil => cases heq
    | cons y ys =>
      obtain ⟨hfirst, hrest⟩ := List.cons.inj heq
      rw [List.map_cons, List.map_cons, h x List.mem_cons_self y List.mem_cons_self hfirst,
        ih (fun a ha b hb => h a (List.mem_cons_of_mem x ha) b (List.mem_cons_of_mem y hb)) hrest]

/-- Two expressions with the same outline are the same up to spans. -/
theorem Expr.unplaced_eq_of_outline {e e' : Expr} (he : e.Plain) (he' : e'.Plain)
    {b b' : Option String} (h : e.outline b = e'.outline b') : e.unplaced = e'.unplaced := by
  induction e using Expr.induction_children generalizing e' b b' with
  | h e ih =>
    rw [outline_eq, outline_eq] at h
    obtain ⟨-, hlabel, hbelow⟩ := Outline.node.inj h
    obtain ⟨hhead, htype⟩ := label_inj he.head he'.head hlabel
    refine unplaced_eq_of_head hhead htype (map_eq_map_of_forall (fun c hc c' hc' heq => ?_) hbelow)
    exact ih c hc (he.children c hc) (he'.children c' hc') heq

/-! ## Limbs of statements -/

/-- A part of a statement, with the name of its branch. -/
inductive Limb where
  | expr (branch : Option String) (e : Expr)
  | block (branch : Option String) (b : Block)

namespace Limb

/-- The name of the branch. -/
def branch : Limb → Option String
  | expr branch _ => branch
  | block branch _ => branch

def outline : Limb → Outline
  | expr branch e => e.outline branch
  | block branch b => b.outline branch

def mapSpans (f : Span → Span) : Limb → Limb
  | expr branch e => .expr branch (e.mapSpans f)
  | block branch b => .block branch (b.mapSpans f)

/-- The statements right below the part. -/
def statements : Limb → List Stmt
  | expr _ _ => []
  | block _ b => b.body

def expressions : Limb → List Expr
  | expr _ e => [e]
  | block _ b => b.expressions

end Limb

namespace Stmt

/-- What kind of statement it is, as it is shown. -/
def title : Stmt → String
  | .expression _ _ => "Statement::Expression"
  | .assign _ _ _ => "Statement::Assignment"
  | .cond _ _ _ _ => "Statement::If"
  | .count _ _ _ _ _ _ => "Statement::For"
  | .loop _ _ _ => "Statement::While"
  | .loopUntil _ _ _ => "Statement::Repeat"

/-- The parts of a statement, in the order in which they are shown. -/
def limbs : Stmt → List Limb
  | .expression e _ => [.expr none e]
  | .assign target value _ => [.expr (some "Variable") target, .expr (some "EXPR") value]
  | .cond c yes no _ =>
    [.expr (some "IF") c, .block (some "THEN") yes] ++ no.toList.map (.block (some "ELSE"))
  | .count counter first last increment body _ =>
    [.expr (some "VAR") counter, .expr (some "BEGIN") first, .expr (some "END") last] ++
      increment.toList.map (.expr (some "STEP")) ++ [.block (some "DO") body]
  | .loop c body _ => [.expr (some "WHILE") c, .block (some "DO") body]
  | .loopUntil body c _ => [.block (some "REPEAT") body, .expr (some "UNTIL") c]

theorem outline_eq (s : Stmt) : s.outline = .node none s.title (s.limbs.map Limb.outline) := by
  cases s with
  | cond c yes no place => cases no <;> rfl
  | count counter first last increment body place => cases increment <;> rfl
  | _ => rfl

theorem expressions_eq (s : Stmt) : s.expressions = s.limbs.flatMap Limb.expressions := by
  cases s with
  | cond c yes no place => cases no <;> simp [expressions, limbs, Limb.expressions]
  | count counter first last increment body place =>
    cases increment <;> simp [expressions, limbs, Limb.expressions]
  | _ => simp [expressions, limbs, Limb.expressions]

theorem limbs_mapSpans (f : Span → Span) (s : Stmt) :
    (s.mapSpans f).limbs = s.limbs.map (Limb.mapSpans f) := by
  cases s with
  | cond c yes no place => cases no <;> rfl
  | count counter first last increment body place => cases increment <;> rfl
  | _ => rfl

/-- Induction on statements, for all kinds of them alike. -/
theorem induction_limbs {motive : Stmt → Prop}
    (h : ∀ s, (∀ limb ∈ s.limbs, ∀ x ∈ limb.statements, motive x) → motive s) (s : Stmt) : motive s := by
  induction s with
  | expression e place => exact h _ (by simp [limbs, Limb.statements])
  | assign target value place => exact h _ (by simp [limbs, Limb.statements])
  | cond c yes no place ihy ihn =>
    refine h _ ?_
    cases no with
    | none => simpa [limbs, Limb.statements] using ihy
    | some no => simpa [limbs, Limb.statements] using ⟨ihy, ihn no rfl⟩
  | count counter first last increment body place ihb =>
    refine h _ ?_
    cases increment <;> simpa [limbs, Limb.statements] using ihb
  | loop c body place ihb => exact h _ (by simpa [limbs, Limb.statements] using ihb)
  | loopUntil body c place ihb => exact h _ (by simpa [limbs, Limb.statements] using ihb)

/-- A statement is its kind and its parts. -/
theorem unplaced_eq_of_limbs {s s' : Stmt} (htitle : s.title = s'.title)
    (h : s.unplaced.limbs = s'.unplaced.limbs) : s.unplaced = s'.unplaced := by
  cases s with
  | expression e place =>
    cases s' with
    | expression e' place' => simpa [limbs, mapSpans] using h
    | _ => simp [title] at htitle
  | assign target value place =>
    cases s' with
    | assign target' value' place' => simpa [limbs, mapSpans] using h
    | _ => simp [title] at htitle
  | cond c yes no place =>
    cases s' with
    | cond c' yes' no' place' =>
      cases no with
      | none =>
        cases no' with
        | none => simpa [limbs, mapSpans] using h
        | some no' => simp [limbs, mapSpans] at h
      | some no =>
        cases no' with
        | none => simp [limbs, mapSpans] at h
        | some no' => simpa [limbs, mapSpans] using h
    | _ => simp [title] at htitle
  | count counter first last increment body place =>
    cases s' with
    | count counter' first' last' increment' body' place' =>
      cases increment with
      | none =>
        cases increment' with
        | none => simpa [limbs, mapSpans] using h
        | some i' => simp [limbs, mapSpans] at h
      | some i =>
        cases increment' with
        | none => simp [limbs, mapSpans] at h
        | some i' => simpa [limbs, mapSpans] using h
    | _ => simp [title] at htitle
  | loop c body place =>
    cases s' with
    | loop c' body' place' => simpa [limbs, mapSpans] using h
    | _ => simp [title] at htitle
  | loopUntil body c place =>
    cases s' with
    | loopUntil body' c' place' => simpa [limbs, mapSpans] using h
    | _ => simp [title] at htitle

/-- Nothing on the expressions of the statement breaks a line or looks like a sigil. -/
def Plain (s : Stmt) : Prop := ∀ e ∈ s.expressions, e.Plain

theorem Plain.limbs {s : Stmt} (h : s.Plain) : ∀ limb ∈ s.limbs, ∀ e ∈ limb.expressions, e.Plain := by
  intro limb hlimb e he
  refine h e ?_
  rw [expressions_eq]
  exact List.mem_flatMap.mpr ⟨limb, hlimb, he⟩

theorem tidyBranch_limbs (s : Stmt) : ∀ limb ∈ s.limbs, Outline.TidyBranch limb.branch := by
  cases s with
  | cond c yes no place => cases no <;> simp [limbs, Limb.branch, Outline.TidyBranch]
  | count counter first last increment body place =>
    cases increment <;> simp [limbs, Limb.branch, Outline.TidyBranch]
  | _ => simp [limbs, Limb.branch, Outline.TidyBranch]

theorem newline_not_mem_title (s : Stmt) : '\n' ∉ s.title.toList := by
  cases s <;> simp [title]

end Stmt

/-! ## Statements and blocks from their outlines -/

/-- Nothing on the expressions of the block breaks a line or looks like a sigil. -/
def Block.Plain (b : Block) : Prop := ∀ e ∈ b.expressions, e.Plain

theorem Block.Plain.body {b : Block} (h : b.Plain) : ∀ s ∈ b.body, s.Plain := by
  intro s hs e he
  refine h e ?_
  rw [Block.expressions_eq]
  exact List.mem_flatMap.mpr ⟨s, hs, he⟩

theorem Block.outline_eq (branch : Option String) (b : Block) :
    b.outline branch = .node branch "Block" (b.body.map Stmt.outline) := by
  cases b with
  | mk body s => exact congrArg (Outline.node branch "Block") (eq_map_of_cons rfl (fun _ _ => rfl) body)

theorem Block.unplaced_eq_of_forall {b b' : Block} (hb : b.Plain) (hb' : b'.Plain)
    (ih : ∀ s ∈ b.body, ∀ s' : Stmt, s.Plain → s'.Plain → s.outline = s'.outline →
      s.unplaced = s'.unplaced)
    {branch branch' : Option String} (h : b.outline branch = b'.outline branch') :
    b.unplaced = b'.unplaced := by
  rw [Block.outline_eq, Block.outline_eq] at h
  have hbody : b.body.map Stmt.unplaced = b'.body.map Stmt.unplaced :=
    map_eq_map_of_forall (fun s hs s' hs' => ih s hs s' (hb.body s hs) (hb'.body s' hs'))
      (Outline.node.inj h).2.2
  obtain ⟨body, place⟩ := b
  obtain ⟨body', place'⟩ := b'
  rw [Block.unplaced, Block.mapSpans, Block.unplaced, Block.mapSpans, Block.mapSpansAll_eq,
    Block.mapSpansAll_eq]
  exact congrArg (Block.mk · .nowhere) hbody

/-- The outline of an expression is not that of a block. -/
theorem Expr.outline_ne_block (e : Expr) (b : Block) (branch branch' : Option String) :
    e.outline branch ≠ b.outline branch' := by
  intro h
  rw [Expr.outline_eq, Block.outline_eq] at h
  have hlabel := (Outline.node.inj h).2.1
  have hspace : ' ' ∈ e.label.toList := by
    rw [Expr.label_eq]
    simp
  rw [hlabel] at hspace
  exact absurd hspace (by decide)

theorem Limb.branch_outline (limb : Limb) : limb.outline.branch = limb.branch := by
  cases limb with
  | expr branch e => rw [Limb.outline, Expr.outline_eq]; rfl
  | block branch b => rw [Limb.outline, Block.outline_eq]; rfl

/-- Limbs with the same outline are the same up to spans. -/
theorem Limb.unplaced_eq_of_outline {limb limb' : Limb} (hlimb : ∀ e ∈ limb.expressions, e.Plain)
    (hlimb' : ∀ e ∈ limb'.expressions, e.Plain)
    (ih : ∀ s ∈ limb.statements, ∀ s' : Stmt, s.Plain → s'.Plain → s.outline = s'.outline →
      s.unplaced = s'.unplaced)
    (h : limb.outline = limb'.outline) :
    limb.mapSpans (fun _ => .nowhere) = limb'.mapSpans (fun _ => .nowhere) := by
  have hbranch : limb.branch = limb'.branch := by
    rw [← limb.branch_outline, h, limb'.branch_outline]
  cases limb with
  | expr branch e =>
    cases limb' with
    | expr branch' e' =>
      have he := Expr.unplaced_eq_of_outline (hlimb e List.mem_cons_self) (hlimb' e' List.mem_cons_self) h
      show Limb.expr branch e.unplaced = .expr branch' e'.unplaced
      rw [he, show branch = branch' from hbranch]
    | block branch' b' => exact absurd h (e.outline_ne_block b' branch branch')
  | block branch b =>
    cases limb' with
    | expr branch' e' => exact absurd h.symm (e'.outline_ne_block b branch' branch)
    | block branch' b' =>
      have hb := Block.unplaced_eq_of_forall hlimb hlimb' ih h
      show Limb.block branch b.unplaced = .block branch' b'.unplaced
      rw [hb, show branch = branch' from hbranch]

/-- Two statements with the same outline are the same up to spans. -/
theorem Stmt.unplaced_eq_of_outline (s s' : Stmt) (hs : s.Plain) (hs' : s'.Plain)
    (h : s.outline = s'.outline) : s.unplaced = s'.unplaced := by
  induction s using Stmt.induction_limbs generalizing s' with
  | h s ih =>
    rw [outline_eq, outline_eq] at h
    obtain ⟨-, htitle, hlimbs⟩ := Outline.node.inj h
    refine unplaced_eq_of_limbs htitle ?_
    rw [limbs_mapSpans, limbs_mapSpans]
    refine map_eq_map_of_forall (fun limb hlimb limb' hlimb' heq => ?_) hlimbs
    exact Limb.unplaced_eq_of_outline (hs.limbs limb hlimb) (hs'.limbs limb' hlimb') (ih limb hlimb) heq

theorem Block.tidy_of_forall {b : Block} (h : ∀ s ∈ b.body, s.outline.Tidy) {branch : Option String}
    (hbranch : Outline.TidyBranch branch) : (b.outline branch).Tidy := by
  rw [Block.outline_eq]
  exact .node hbranch (by decide) (List.forall_mem_map.mpr h)

theorem Stmt.Plain.tidy {s : Stmt} (h : s.Plain) : s.outline.Tidy := by
  induction s using Stmt.induction_limbs with
  | h s ih =>
    rw [Stmt.outline_eq]
    refine .node Outline.tidyBranch_none s.newline_not_mem_title (List.forall_mem_map.mpr ?_)
    intro limb hlimb
    have hbranch := s.tidyBranch_limbs limb hlimb
    have hplain := h.limbs limb hlimb
    cases limb with
    | expr branch e => exact (hplain e List.mem_cons_self).tidy hbranch
    | block branch b =>
      exact Block.tidy_of_forall (fun x hx => ih _ hlimb x hx (Block.Plain.body hplain x hx)) hbranch

/-- The text of a block shows everything of it but its spans. -/
theorem Block.unplaced_eq_of_render {b b' : Block} (hb : b.Plain) (hb' : b'.Plain)
    (h : (b.outline none).render = (b'.outline none).render) : b.unplaced = b'.unplaced := by
  have htidy : (b.outline none).Tidy :=
    Block.tidy_of_forall (fun s hs => (hb.body s hs).tidy) Outline.tidyBranch_none
  have htidy' : (b'.outline none).Tidy :=
    Block.tidy_of_forall (fun s hs => (hb'.body s hs).tidy) Outline.tidyBranch_none
  have hbranch : (b.outline none).branch = (b'.outline none).branch := by
    rw [Block.outline_eq, Block.outline_eq]
    rfl
  have houtline := Outline.render_inj htidy htidy' hbranch h
  exact Block.unplaced_eq_of_forall hb hb' (fun s _ => Stmt.unplaced_eq_of_outline s) houtline

end Sigil
