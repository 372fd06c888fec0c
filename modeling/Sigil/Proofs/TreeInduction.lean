import Sigil.Tree.Stmt

/-!
# Induction on trees

Expressions hold lists of expressions, and statements hold blocks of statements. To prove something of
all of them it is enough to prove it of a node for which it holds of everything that stands below, in
whatever list.
-/

namespace Sigil

/-- Induction on expressions. -/
@[elab_as_elim, induction_eliminator]
theorem Expr.induction {motive : Expr → Prop}
    (literal : ∀ text t s, motive (.literal text t s))
    (var : ∀ ref t s, motive (.var ref t s))
    (unary : ∀ op e t s, motive e → motive (.unary op e t s))
    (binary : ∀ op l r t s, motive l → motive r → motive (.binary op l r t s))
    (call : ∀ name args t s, (∀ e ∈ args, motive e) → motive (.call name args t s))
    (e : Expr) : motive e :=
  @Expr.rec motive (fun es => ∀ e ∈ es, motive e) literal var unary binary call nofun
    (fun _ _ he hes => List.forall_mem_cons.mpr ⟨he, hes⟩) e

/-- Induction on statements. -/
@[elab_as_elim, induction_eliminator]
theorem Stmt.induction {motive : Stmt → Prop}
    (expression : ∀ e s, motive (.expression e s))
    (assign : ∀ target value s, motive (.assign target value s))
    (cond : ∀ c yes no s, (∀ x ∈ yes.body, motive x) →
      (∀ b ∈ no, ∀ x ∈ b.body, motive x) → motive (.cond c yes no s))
    (count : ∀ counter first last increment body s, (∀ x ∈ body.body, motive x) →
      motive (.count counter first last increment body s))
    (loop : ∀ c body s, (∀ x ∈ body.body, motive x) → motive (.loop c body s))
    (loopUntil : ∀ body c s, (∀ x ∈ body.body, motive x) → motive (.loopUntil body c s))
    (s : Stmt) : motive s :=
  @Stmt.rec motive (fun b => ∀ x ∈ b.body, motive x)
    (fun no => ∀ b ∈ no, ∀ x ∈ b.body, motive x) (fun ss => ∀ x ∈ ss, motive x)
    expression assign cond count loop loopUntil (fun _ _ h => h) nofun
    (fun _ h => by rintro _ ⟨⟩; exact h) nofun
    (fun _ _ hs hss => List.forall_mem_cons.mpr ⟨hs, hss⟩) s

end Sigil
