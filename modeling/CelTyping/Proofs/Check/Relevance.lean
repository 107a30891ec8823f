import CelTyping.Proofs.Check.Independence

/-!
# Declarations that do not matter

A check asks its environment for the names that the tree mentions, and for no other: a name that it
has written in full is not looked up again, and the names that a comprehension declares are looked
up because the tree uses them.  So a declaration under a name that the tree does not mention cannot
make a difference (`check_after_irrelevant`), be it to the tree that is given back, to the types and
references, or to the errors.

Two environments are compared, the one before and the one after, which are alike on the names that
the tree uses.  That the declarations were all accepted is not asked for: those that were are as
irrelevant without the others.
-/

namespace CelTyping
namespace Env

variable {env : Env} {store : Store} {others : List Scopes} {e : Expr}

theorem alikeOn_addIdents (hv : env.Valid store) {vs : List Variable}
    (hvs : ∀ v ∈ vs, ¬ e.Mentions env.container v.name) :
    env.AlikeOn (.ofExpr e) store (env.addIdents store others vs).1
      (env.addIdents store others vs).2.1 where
  same := rfl
  valid_left := hv
  valid_right := hv.addIdents others vs
  sees name hname candidate hc := by
    obtain ⟨n, hn, hm⟩ := hname
    refine sees_addIdents hv fun v hv heq => hvs v hv ⟨n, hn, name, hm, ?_⟩
    rw [heq]
    exact hc
  functions _ _ name _ := by
    rw [findFunction?_addIdents hv]
    exact FunctionDecl.Alike.rel_refl _

theorem alikeOn_addFunctions (hv : env.Valid store) {fs : List FunctionDecl}
    (hfs : ∀ f ∈ fs, ¬ e.MentionsFunction env.container f.name) :
    env.AlikeOn (.ofExpr e) store (env.addFunctions store others fs).1
      (env.addFunctions store others fs).2.1 where
  same := rfl
  valid_left := hv
  valid_right := hv.addFunctions others fs
  sees _ _ name _ := sees_addFunctions hv others fs name
  functions name hname candidate hc := by
    obtain ⟨n, hn, hm⟩ := hname
    rw [findFunction?_addFunctions hv fun f hf heq => hfs f hf ⟨n, hn, name, hm, heq ▸ hc⟩]
    exact FunctionDecl.Alike.rel_refl _

end Env

/-- **Irrelevant declarations are irrelevant**: identifiers and functions may be added under names
that are no candidates for names in a tree, and a check of the tree gives what it gave before. -/
theorem check_after_irrelevant {env : Env} {store : Store} (hv : env.Valid store) (source : Source)
    (e : Expr) :
    (∀ (others : List Scopes) (vs : List Variable),
      (∀ v ∈ vs, ¬ e.Mentions env.container v.name) →
        (check (env.addIdents store others vs).1 (env.addIdents store others vs).2.1 source e).1 =
          (check env store source e).1) ∧
    (∀ (others : List Scopes) (fs : List FunctionDecl),
      (∀ f ∈ fs, ¬ e.MentionsFunction env.container f.name) →
        (check (env.addFunctions store others fs).1 (env.addFunctions store others fs).2.1
          source e).1 = (check env store source e).1) := by
  have hcovers := Vocabulary.covers_ofExpr e
  exact ⟨fun _ vs hvs => check_eq_of_alikeOn (Env.alikeOn_addIdents hv hvs) source hcovers,
    fun _ fs hfs => check_eq_of_alikeOn (Env.alikeOn_addFunctions hv hfs) source hcovers⟩

/-- An environment of a first scope in the container `a`. -/
def Env.ofNamespace : Env := { Env.ofFirst with container := ⟨"a", .empty⟩ }

/-- The call `x.f(y)`. -/
def namespacedCall : Expr := .call 1 "f" (some (.ident 2 "x")) [.ident 3 "y"]

/-- In `x.f(y)` an identifier `f` and a function `x` make no difference, although both names stand
there. -/
theorem check_after_irrelevant_call :
    Env.ofNamespace.Valid ⟨#[.empty]⟩ ∧
    (Env.ofNamespace.addIdents ⟨#[.empty]⟩ [] [.ofType "f" .int]).2.2.isNone = true ∧
    (Env.ofNamespace.addFunctions ⟨#[.empty]⟩ []
      [Standard.function "x" [.global "x_0" [] .int]]).2.2.isNone = true ∧
    (check (Env.ofNamespace.addIdents ⟨#[.empty]⟩ [] [.ofType "f" .int]).1
      (Env.ofNamespace.addIdents ⟨#[.empty]⟩ [] [.ofType "f" .int]).2.1 ⟨"", [], .empty⟩
        namespacedCall).1 =
      (check .ofNamespace ⟨#[.empty]⟩ ⟨"", [], .empty⟩ namespacedCall).1 ∧
    (check (Env.ofNamespace.addFunctions ⟨#[.empty]⟩ []
        [Standard.function "x" [.global "x_0" [] .int]]).1
      (Env.ofNamespace.addFunctions ⟨#[.empty]⟩ []
        [Standard.function "x" [.global "x_0" [] .int]]).2.1 ⟨"", [], .empty⟩ namespacedCall).1 =
      (check .ofNamespace ⟨#[.empty]⟩ ⟨"", [], .empty⟩ namespacedCall).1 := by
  have hvalid : Env.ofNamespace.Valid ⟨#[.empty]⟩ := by decide
  obtain ⟨hidents, hfunctions⟩ := check_after_irrelevant hvalid ⟨"", [], .empty⟩ namespacedCall
  exact ⟨hvalid, by decide +kernel, by decide +kernel, hidents [] _ (by decide +kernel),
    hfunctions [] _ (by decide +kernel)⟩

/-- An identifier `a.y` does make a difference, as `y` may stand for it. -/
example : namespacedCall.Mentions Env.ofNamespace.container "a.y" ∧
    (check .ofNamespace ⟨#[.empty]⟩ ⟨"", [], .empty⟩ namespacedCall).1.references.contains 3 =
      false ∧
    (check (Env.ofNamespace.addIdents ⟨#[.empty]⟩ [] [.ofType "a.y" .int]).1
      (Env.ofNamespace.addIdents ⟨#[.empty]⟩ [] [.ofType "a.y" .int]).2.1 ⟨"", [], .empty⟩
        namespacedCall).1.references.contains 3 = true := by
  decide +kernel

end CelTyping
