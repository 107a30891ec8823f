import CelTyping.Check.Walk

/-!
# What a check does without looking at declarations

Of the operations of a check only a few look at the store of declarations: looking up names,
entering scopes and declaring locals.  All others neither read it nor change it, so exchanging the
store before such a step and after it come to the same (`Blind`).  This is said here once for each
of them, and it is used twice over: a blind step leaves alone what environments see, and it gives
the same in two checks whose stores differ.
-/

namespace CelTyping
namespace Checking

variable {α β : Type}

/-- A step that neither looks at the declarations nor changes them. -/
def Blind (x : Checking α) : Prop :=
  ∀ (s : CheckState) (store : Store),
    x.run { s with store := store } = ((x.run s).1, { (x.run s).2 with store := store })

theorem Blind.store {x : Checking α} (h : Blind x) (s : CheckState) :
    (x.run s).2.store = s.store := by
  have heq := h s s.store
  exact congrArg (fun r => r.2.store) heq

/-! ## Composing steps -/

theorem run_bind (x : Checking α) (f : α → Checking β) (s : CheckState) :
    (x >>= f).run s = (f (x.run s).1).run (x.run s).2 := rfl

theorem blind_pure (a : α) : Blind (pure a) := fun _ _ => rfl

theorem Blind.bind {x : Checking α} {f : α → Checking β} (hx : Blind x) (hf : ∀ a, Blind (f a)) :
    Blind (x >>= f) := by
  intro s store
  rw [run_bind, run_bind, hx s store]
  exact hf _ _ store

/-- Reading the state is blind where what follows does not depend on the declarations in it. -/
theorem Blind.get_bind {f : CheckState → Checking β}
    (hstore : ∀ s store, f { s with store := store } = f s) (hf : ∀ s, Blind (f s)) :
    Blind (get >>= f) := by
  intro s store
  show (f { s with store := store }).run { s with store := store } = _
  rw [hstore, hf s s store]
  rfl

theorem blind_foldlM {f : β → α → Checking β} (hf : ∀ b a, Blind (f b a)) :
    ∀ (as : List α) (b : β), Blind (as.foldlM f b)
  | [], b => blind_pure b
  | a :: as, b => (hf b a).bind fun c => blind_foldlM hf as c

theorem blind_mapM {f : α → Checking β} (hf : ∀ a, Blind (f a)) (as : List α) :
    Blind (as.mapM f) := by
  have hloop : ∀ (as : List α) (bs : List β), Blind (List.mapM.loop f as bs) := by
    intro as
    induction as with
    | nil => exact fun bs => blind_pure bs.reverse
    | cons a as ih => exact fun bs => (hf a).bind fun b => ih (b :: bs)
  exact hloop as []

/-! ## Changing the state -/

theorem blind_report (id : NodeId) (fault : Fault) : Blind (report id fault) := fun _ _ => rfl

theorem blind_setNextVar (n : Nat) : Blind (setNextVar n) := fun _ _ => rfl

theorem blind_setMapping (m : Mapping) : Blind (setMapping m) := fun _ _ => rfl

theorem blind_setType (e : Expr) (t : Ty) : Blind (setType e t) := by
  intro s store
  have hstate : ({ s with store := store } : CheckState).setType e t =
      { s.setType e t with store := store } := by
    unfold CheckState.setType
    dsimp only
    split
    · split
      · rfl
      · rfl
    · rfl
  exact congrArg (Prod.mk ()) hstate

theorem blind_setReference (e : Expr) (r : Reference) : Blind (setReference e r) := by
  intro s store
  have hstate : ({ s with store := store } : CheckState).setReference e r =
      { s.setReference e r with store := store } := by
    unfold CheckState.setReference
    dsimp only
    split
    · split
      · rfl
      · rfl
    · rfl
  exact congrArg (Prod.mk ()) hstate

/-! ## Operations -/

theorem blind_typeOf (id : NodeId) : Blind (typeOf id) := fun _ _ => rfl

theorem blind_freshVar : Blind freshVar := fun _ _ => rfl

theorem blind_resolve (t : Ty) : Blind (resolve t) := fun _ _ => rfl

theorem blind_resolveFully (t : Ty) : Blind (resolveFully t) := fun _ _ => rfl

theorem blind_keep : ∀ m : Option Mapping, Blind (keep m)
  | some m => (blind_setMapping m).bind fun _ => blind_pure true
  | none => blind_pure false

theorem blind_unify (a b : Ty) : Blind (unify a b) :=
  .get_bind (fun _ _ => rfl) fun _ => blind_keep _

theorem blind_unifyAll (as bs : List Ty) : Blind (unifyAll as bs) :=
  .get_bind (fun _ _ => rfl) fun _ => blind_keep _

theorem blind_reportUndeclared (env : Env) (id : NodeId) (name : String) :
    Blind (reportUndeclared env id name) :=
  blind_report id _

/-! ## Overload resolution -/

theorem blind_tryOverload (argTypes : List Ty) (found : Option (Ty × Reference)) (o : Overload) :
    Blind (tryOverload argTypes found o) := by
  refine .get_bind (fun _ _ => rfl) fun s => (blind_setNextVar _).bind fun _ =>
    (blind_unifyAll _ _).bind fun unified => ?_
  split
  · refine (blind_resolve _).bind fun t => ?_
    rcases found with _ | ⟨current, reference⟩
    · exact blind_pure _
    · exact blind_pure _
  · exact blind_pure _

theorem blind_requireBools : ∀ args : List (NodeId × Ty), Blind (requireBools args)
  | [] => blind_pure true
  | (id, t) :: rest => by
    refine (blind_unify t .bool).bind fun fits => ?_
    rcases fits with _ | _
    · exact (blind_report id _).bind fun _ => (blind_requireBools rest).bind fun _ => blind_pure _
    · exact (blind_requireBools rest).bind fun _ => blind_pure _

theorem blind_reportNoMatch (id : NodeId) (f : FunctionDecl) (argTypes : List Ty)
    (isMember : Bool) : Blind (reportNoMatch id f argTypes isMember) :=
  (blind_mapM blind_resolveFully argTypes).bind fun _ => blind_report id _

theorem blind_resolveOverload (env : Env) (id : NodeId) (f : FunctionDecl)
    (target : Option NodeId) (args : List NodeId) :
    Blind (resolveOverload env id f target args) := by
  refine (blind_mapM blind_typeOf _).bind fun argTypes => ?_
  have hnone : Blind
      (do
        reportNoMatch id f argTypes target.isSome
        return (none : Option (Ty × Reference))) :=
    (blind_reportNoMatch _ _ _ _).bind fun _ => blind_pure _
  split
  · dsimp only
    split
    · refine (blind_requireBools _).bind fun fits => ?_
      split
      · exact blind_pure _
      · exact blind_pure _
    · exact hnone
  · refine (blind_foldlM (blind_tryOverload argTypes) _ none).bind fun found => ?_
    rcases found with _ | found
    · exact hnone
    · exact blind_pure _

/-! ## Typing rules -/

theorem blind_resolveIdent (e : Expr) (v : Variable) : Blind (resolveIdent e v) :=
  (blind_setType _ _).bind fun _ => (blind_setReference _ _).bind fun _ => blind_pure _

theorem blind_fieldType (env : Env) (id : NodeId) (message field : String) :
    Blind (fieldType env id message field) := by
  unfold fieldType
  split
  · exact (blind_report _ _).bind fun _ => blind_pure _
  · split
    · exact blind_pure _
    · exact (blind_report _ _).bind fun _ => blind_pure _

theorem blind_selectFrom (env : Env) (id : NodeId) (target : Ty) (field : String) :
    Blind (selectFrom env id target field) := by
  unfold selectFrom
  split
  · exact blind_pure _
  · exact (blind_fieldType _ _ _ _).bind fun _ => blind_pure _
  · exact (blind_unify _ _).bind fun _ => blind_pure _
  · split
    · exact (blind_report _ _).bind fun _ => blind_pure _
    · exact blind_pure _

theorem blind_selectField (env : Env) (id operand : NodeId) (field : String) (optional : Bool) :
    Blind (selectField env id operand field optional) :=
  (blind_typeOf _).bind fun _ => (blind_resolve _).bind fun _ =>
    (blind_selectFrom _ _ _ _).bind fun _ => blind_pure _

theorem blind_unwrapOptional (id : NodeId) (t : Ty) : Blind (unwrapOptional id t) := by
  refine (blind_resolve t).bind fun t => ?_
  split
  · exact blind_pure _
  · split
    · exact (blind_report _ _).bind fun _ => blind_pure _
    · exact blind_pure _

theorem blind_entryType (id : NodeId) (optional : Bool) : Blind (entryType id optional) := by
  refine (blind_typeOf id).bind fun t => ?_
  split
  · exact blind_unwrapOptional _ _
  · exact blind_pure _

theorem blind_joinTypes (env : Env) (id : NodeId) (previous : Option Ty) (current : Ty) :
    Blind (joinTypes env id previous current) := by
  rcases previous with _ | previous
  · exact blind_pure _
  · refine (blind_unify _ _).bind fun unified => ?_
    split
    · exact blind_pure _
    · split
      · exact (blind_report _ _).bind fun _ => blind_pure _
      · exact blind_pure _

theorem blind_literalTarget (id : NodeId) (v : Variable) : Blind (literalTarget id v) := by
  unfold literalTarget
  split
  · exact blind_pure _
  · split
    · exact blind_pure _
    · split
      · exact blind_pure _
      · exact (blind_report _ _).bind fun _ => blind_pure _
  · exact (blind_report _ _).bind fun _ => blind_pure _

theorem blind_checkInit (env : Env) (f : FieldInit) (message : String) (target : Ty) :
    Blind (checkInit env f message target) := by
  have hrest : ∀ declared : Ty, Blind
      (do
        let given ← entryType f.value.id f.optional
        if !(← unify declared given) then
          report f.id (.fieldTypeMismatch f.field declared.display given.display)) := by
    intro declared
    refine (blind_entryType _ _).bind fun given => (blind_unify _ _).bind fun unified => ?_
    split
    · exact blind_report _ _
    · exact blind_pure _
  unfold checkInit
  split
  · exact (blind_pure _).bind fun declared => hrest declared
  · exact (blind_fieldType _ _ _ _).bind fun _ => (blind_pure _).bind fun declared => hrest declared

theorem blind_iterationTypes (id : NodeId) (range : Ty) (twoVars : Bool) :
    Blind (iterationTypes id range twoVars) := by
  unfold iterationTypes
  split
  · exact blind_pure _
  · exact blind_pure _
  · exact (blind_unify _ _).bind fun _ => blind_pure _
  · exact (blind_unify _ _).bind fun _ => blind_pure _
  · exact (blind_unify _ _).bind fun _ => blind_pure _
  · exact (blind_report _ _).bind fun _ => blind_pure _

theorem blind_requireType (id : NodeId) (expected : Ty) : Blind (requireType id expected) := by
  refine (blind_typeOf _).bind fun actual => (blind_unify _ _).bind fun unified => ?_
  split
  · exact blind_report _ _
  · exact blind_pure _

/-! ## Calls -/

theorem blind_finishCall (e : Expr) (found : Option (Ty × Reference)) :
    Blind (finishCall e found) := by
  rcases found with _ | ⟨t, reference⟩
  · exact blind_setType _ _
  · exact (blind_setType _ _).bind fun _ => blind_setReference _ _

theorem blind_typeCall (env : Env) (e : Expr) (f : FunctionDecl) (target : Option NodeId)
    (args : List NodeId) : Blind (typeCall env e f target args) :=
  (blind_resolveOverload _ _ _ _ _).bind fun _ => (blind_finishCall _ _).bind fun _ =>
    blind_pure _

theorem blind_undeclaredCall (env : Env) (e : Expr) (function : String) :
    Blind (undeclaredCall env e function) :=
  (blind_setType _ _).bind fun _ => (blind_reportUndeclared _ _ _).bind fun _ => blind_pure _

theorem blind_finishOptionalSelect (e : Expr) (result : Except CheckError Ty) :
    Blind (finishOptionalSelect e result) := by
  rcases result with err | t
  · exact (blind_report _ _).bind fun _ => blind_setType _ _
  · exact (blind_resolve _).bind fun _ => (blind_setType _ _).bind fun _ => blind_setReference _ _

end Checking
end CelTyping
