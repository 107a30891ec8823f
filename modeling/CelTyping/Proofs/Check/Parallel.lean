import CelTyping.Proofs.Check.Blind
import CelTyping.Proofs.Env.Sight
import CelTyping.Proofs.Expr.Vocabulary
import Mathlib.Data.List.Forall2

/-!
# Two checks side by side

Two environments with stores of their own are alike on a vocabulary when they differ in the scopes
only, see the same identifiers under the names in it, and know functions that no call can tell
apart.  A check of a tree that keeps to these names goes side by side against one and the other:
both give the same tree and the same types, references and errors (`parallel_checkExpr`).

The environments stay alike because a check leaves alone what environments around it see: what a
comprehension declares, it declares in a scope of its own.  This frame is part of the judgement
`Parallel`, so that one walk over the tree shows both; `maintained_checkExpr` is the frame by
itself.
-/

namespace CelTyping

/-! ## What no call can tell apart -/

/-- Two overloads that no call can tell apart. -/
structure Overload.Alike (o p : Overload) : Prop where
  /-- They are recorded under one id. -/
  id : p.id = o.id
  /-- They have the same call style. -/
  isMember : p.isMember = o.isMember
  /-- With new type variables in place of the type parameters they are the same. -/
  instantiate : ∀ next, p.instantiate next = o.instantiate next

/-- Two functions that no call can tell apart. -/
structure FunctionDecl.Alike (f g : FunctionDecl) : Prop where
  /-- They have one name. -/
  name : g.name = f.name
  /-- Both take part in checking or neither does. -/
  state : g.state = f.state
  /-- Their overloads are alike, one by one. -/
  overloads : List.Forall₂ Overload.Alike f.overloads g.overloads

theorem Overload.Alike.refl (o : Overload) : o.Alike o := ⟨rfl, rfl, fun _ => rfl⟩

theorem FunctionDecl.Alike.refl (f : FunctionDecl) : f.Alike f :=
  ⟨rfl, rfl, List.forall₂_same.mpr fun o _ => .refl o⟩

theorem FunctionDecl.Alike.rel_refl (f : Option FunctionDecl) :
    Option.Rel FunctionDecl.Alike f f := by
  cases f with
  | none => exact .none
  | some g => exact .some (.refl g)

/-- Two environments, with their stores, that no check can tell apart which keeps to a
vocabulary. -/
structure Env.AlikeOn (V : Vocabulary) (e : Env) (s : Store) (f : Env) (t : Store) : Prop where
  /-- They differ in the scopes only. -/
  same : f = { e with scopes := f.scopes }
  /-- The scopes of the first have their places. -/
  valid_left : e.Valid s
  /-- The scopes of the second have their places. -/
  valid_right : f.Valid t
  /-- The candidates for names of identifiers mean the same. -/
  sees : ∀ name, V.idents name → ∀ candidate ∈ e.container.candidates name,
    f.sees t candidate = e.sees s candidate
  /-- The candidates for names of functions mean functions that are alike. -/
  functions : ∀ name, V.functions name → ∀ candidate ∈ e.container.candidates name,
    Option.Rel FunctionDecl.Alike (s.findFunction? e.scopes candidate)
      (t.findFunction? f.scopes candidate)

/-- Two environments, with their stores, that no check can tell apart. -/
abbrev Env.Alike (e : Env) (s : Store) (f : Env) (t : Store) : Prop := e.AlikeOn .all s f t

namespace Env.AlikeOn

variable {V : Vocabulary} {e f : Env} {s t : Store}

theorem container (h : e.AlikeOn V s f t) : f.container = e.container := by rw [h.same]

/-- An environment is like itself in a store in which it sees the same. -/
theorem of_undisturbed (hv : e.Valid s) (h : e.Undisturbed s t) : e.AlikeOn V s e t where
  same := rfl
  valid_left := hv
  valid_right := h.valid hv
  sees _ _ name _ := h.sees name
  functions _ _ name _ := by
    rw [h.functions name]
    exact FunctionDecl.Alike.rel_refl _

/-- Environments stay alike where what they see is left alone. -/
theorem undisturbed (h : e.AlikeOn V s f t) {s' t' : Store} (hs : e.Undisturbed s s')
    (ht : f.Undisturbed t t') : e.AlikeOn V s' f t' where
  same := h.same
  valid_left := hs.valid h.valid_left
  valid_right := ht.valid h.valid_right
  sees name hname candidate hc := by rw [hs.sees, ht.sees, h.sees name hname candidate hc]
  functions name hname candidate hc := by
    rw [hs.functions, ht.functions]
    exact h.functions name hname candidate hc

theorem lookupIdent (h : e.AlikeOn V s f t) {name : String} (hname : V.idents name) :
    (f.lookupIdent t name).1 = (e.lookupIdent s name).1 := by
  rw [lookupIdent_fst, lookupIdent_fst, h.container]
  exact findSome?_congr_of_mem (h.sees name hname)

theorem lookupFunction (h : e.AlikeOn V s f t) {name : String} (hname : V.functions name) :
    Option.Rel FunctionDecl.Alike (e.lookupFunction s name) (f.lookupFunction t name) := by
  have hfunctions := h.functions name hname
  unfold Env.lookupFunction
  rw [h.container]
  generalize e.container.candidates name = candidates at hfunctions
  induction candidates with
  | nil => exact .none
  | cons candidate rest ih =>
    obtain ⟨hcandidate, hrest⟩ := List.forall_mem_cons.mp hfunctions
    rw [List.findSome?_cons, List.findSome?_cons]
    revert hcandidate
    generalize s.findFunction? e.scopes candidate = a
    generalize t.findFunction? f.scopes candidate = b
    rintro (@⟨a, b, hab⟩ | _)
    · have hstate : b.isDisabled = a.isDisabled := by
        unfold FunctionDecl.isDisabled
        rw [hab.state]
      simp only [Option.filter_some, hstate]
      cases a.isDisabled with
      | false => exact .some hab
      | true => exact ih hrest
    · exact ih hrest

theorem enterScope (h : e.AlikeOn V s f t) :
    (e.enterScope s).1.AlikeOn V (e.enterScope s).2 (f.enterScope t).1 (f.enterScope t).2 where
  same := by
    show ({ f with scopes := _ } : Env) = _
    rw [h.same]
    rfl
  valid_left := h.valid_left.enterScope
  valid_right := h.valid_right.enterScope
  sees name hname candidate hc := by
    rw [sees_enterScope, sees_enterScope, h.sees name hname candidate hc]
  functions name hname candidate hc := by
    rw [findFunction?_enterScope, findFunction?_enterScope]
    exact h.functions name hname candidate hc

theorem declareLocal (h : e.AlikeOn V s f t) (v : Variable) :
    e.AlikeOn V (e.declareLocal s v) f (f.declareLocal t v) where
  same := h.same
  valid_left id hid := by
    rw [size_declareLocal]
    exact h.valid_left id hid
  valid_right id hid := by
    rw [size_declareLocal]
    exact h.valid_right id hid
  sees name hname candidate hc := by
    rw [sees_declareLocal (h.valid_left _ List.mem_cons_self),
      sees_declareLocal (h.valid_right _ List.mem_cons_self), h.sees name hname candidate hc]
  functions name hname candidate hc := by
    have hs := s.findFunction?_addIdent e.scopes.innermost v e.scopes candidate
    have ht := t.findFunction?_addIdent f.scopes.innermost v f.scopes candidate
    show Option.Rel _ ((s.modify _ _).findFunction? _ _) ((t.modify _ _).findFunction? _ _)
    rw [hs, ht]
    exact h.functions name hname candidate hc

end Env.AlikeOn

namespace Checking

variable {α β : Type} {V : Vocabulary} {e f : Env}

/-! ## The judgement -/

/-- What environments around one environment see is the same in two stores, and what their scopes
declare, but for what lookups add. -/
def Frame (e : Env) (s t : Store) : Prop := ∀ g, e.Inside g → g.Maintained s t

theorem Frame.refl (e : Env) (s : Store) : Frame e s s := fun g _ => .refl g s

theorem Frame.trans {s t u : Store} (h : Frame e s t) (h' : Frame e t u) : Frame e s u :=
  fun g hg => (h g hg).trans (h' g hg)

/-- Two steps go side by side: against stores in which two environments are alike they give the
same value and the same state, and both leave alone what the environments around see. -/
def Parallel (V : Vocabulary) (e f : Env) (x y : Checking α) : Prop :=
  ∀ (s : CheckState) (t : Store), e.AlikeOn V s.store f t →
    ∃ t', y.run { s with store := t } = ((x.run s).1, { (x.run s).2 with store := t' }) ∧
      Frame e s.store (x.run s).2.store ∧ Frame f t t'

theorem Blind.parallel {x : Checking α} (hx : Blind x) : Parallel V e f x x := by
  intro s t _
  refine ⟨t, hx s t, ?_, Frame.refl f t⟩
  rw [hx.store]
  exact Frame.refl e s.store

theorem Parallel.pure (a : α) : Parallel V e f (pure a) (pure a) := (blind_pure a).parallel

theorem Parallel.bind {x y : Checking α} {k l : α → Checking β} (hx : Parallel V e f x y)
    (hk : ∀ a, Parallel V e f (k a) (l a)) : Parallel V e f (x >>= k) (y >>= l) := by
  intro s t h
  obtain ⟨t₁, hrun, hs, ht⟩ := hx s t h
  have hafter := h.undisturbed (hs e (.refl e)).toUndisturbed (ht f (.refl f)).toUndisturbed
  obtain ⟨t₂, hrun', hs', ht'⟩ := hk (x.run s).1 (x.run s).2 t₁ hafter
  refine ⟨t₂, ?_, hs.trans hs', ht.trans ht'⟩
  rw [run_bind, hrun]
  exact hrun'

/-! ## Looking up -/

theorem parallel_lookupIdent {name : String} (hname : V.idents name) :
    Parallel V e f (lookupIdent e name) (lookupIdent f name) := by
  intro s t h
  refine ⟨(f.lookupIdent t name).2, ?_,
    fun g hg => Env.maintained_lookupIdent hg h.valid_left name,
    fun g hg => Env.maintained_lookupIdent hg h.valid_right name⟩
  show ((f.lookupIdent t name).1, _) = ((e.lookupIdent s.store name).1, _)
  rw [h.lookupIdent hname]
  rfl

theorem parallel_lookupQualified {expr : Expr} (hexpr : ∀ m ∈ expr.qualifiedName?, V.idents m) :
    Parallel V e f (lookupQualified e expr) (lookupQualified f expr) := by
  unfold lookupQualified
  split
  · next name hname => exact parallel_lookupIdent (hexpr name hname)
  · exact .pure _

/-- A function that is looked up may be another one on the other side, as long as what is done with
it is the same. -/
theorem Parallel.lookupFunction {k l : Option FunctionDecl → Checking β} {name : String}
    (hname : V.functions name)
    (hk : ∀ a b, Option.Rel FunctionDecl.Alike a b → Parallel V e f (k a) (l b)) :
    Parallel V e f (lookupFunction e name >>= k) (lookupFunction f name >>= l) :=
  fun s t h => hk _ _ (h.lookupFunction hname) s t h

theorem Parallel.lookupNamespaced {k l : Option FunctionDecl → Checking β} {target : Option Expr}
    {function : String}
    (hnames : ∀ q ∈ target.bind Expr.qualifiedName?, V.functions (q ++ "." ++ function))
    (hk : ∀ a b, Option.Rel FunctionDecl.Alike a b → Parallel V e f (k a) (l b)) :
    Parallel V e f (lookupNamespaced e target function >>= k)
      (lookupNamespaced f target function >>= l) := by
  unfold Checking.lookupNamespaced
  split
  · next q hq => exact .lookupFunction (hnames q hq) hk
  · exact hk none none .none

/-! ## New scopes -/

/-- Two steps in scopes of their own go side by side.  They may declare locals, so only what the
environments around these scopes see is left alone. -/
def Local (V : Vocabulary) (e f : Env) (x y : Checking α) : Prop :=
  ∀ (s : CheckState) (t : Store), e.AlikeOn V s.store f t →
    ∃ t', y.run { s with store := t } = ((x.run s).1, { (x.run s).2 with store := t' }) ∧
      (∀ g, e.Inside g → e.scopes.innermost ∉ g.scopes.chain →
        g.Maintained s.store (x.run s).2.store) ∧
      ∀ g, f.Inside g → f.scopes.innermost ∉ g.scopes.chain → g.Maintained t t'

theorem Parallel.local {x y : Checking α} (h : Parallel V e f x y) : Local V e f x y := by
  intro s t halike
  obtain ⟨t', hrun, hs, ht⟩ := h s t halike
  exact ⟨t', hrun, fun g hg _ => hs g hg, fun g hg _ => ht g hg⟩

theorem Local.declare {k l : Unit → Checking α} (name : String) (ty : Ty)
    (hk : Local V e f (k ()) (l ())) :
    Local V e f (declareLocal e name ty >>= k) (declareLocal f name ty >>= l) := by
  intro s t h
  obtain ⟨t', hrun, hs, ht⟩ := hk { s with store := e.declareLocal s.store (.ofType name ty) }
    (f.declareLocal t (.ofType name ty)) (h.declareLocal _)
  exact ⟨t', hrun, fun g hg hnot => (Env.maintained_declareLocal hnot _).trans (hs g hg hnot),
    fun g hg hnot => (Env.maintained_declareLocal hnot _).trans (ht g hg hnot)⟩

/-- The place of a new scope is not among those of an environment that was there before. -/
theorem innermost_enterScope_notMem {g : Env} {store : Store} (hv : e.Valid store)
    (hg : e.Inside g) : (e.enterScope store).1.scopes.innermost ∉ g.scopes.chain :=
  fun hmem => Nat.lt_irrefl _ (hg.valid hv _ hmem)

theorem frame_enterScope {store store' : Store} (hv : e.Valid store)
    (h : ∀ g, (e.enterScope store).1.Inside g →
      (e.enterScope store).1.scopes.innermost ∉ g.scopes.chain →
      g.Maintained (e.enterScope store).2 store') : Frame e store store' := by
  intro g hg
  have hinside := (e.inside_enterScope store).trans hg
  exact (Env.maintained_enterScope g).trans (h g hinside (innermost_enterScope_notMem hv hg))

theorem Parallel.enterScope {k l : Env → Checking α} (hk : ∀ e' f', Local V e' f' (k e') (l f')) :
    Parallel V e f (enterScope e >>= k) (enterScope f >>= l) := by
  intro s t h
  obtain ⟨t', hrun, hs, ht⟩ := hk (e.enterScope s.store).1 (f.enterScope t).1
    { s with store := (e.enterScope s.store).2 } (f.enterScope t).2 h.enterScope
  exact ⟨t', hrun, frame_enterScope h.valid_left hs, frame_enterScope h.valid_right ht⟩

/-! ## Operations that ask the environment for more than its scopes -/

/-- A blind step that does not ask for the scopes is the same step on both sides. -/
theorem Blind.parallel_env {op : Env → Checking α} (hblind : ∀ env, Blind (op env))
    (hop : ∀ env scopes, op { env with scopes := scopes } = op env) :
    Parallel V e f (op e) (op f) := by
  intro s t h
  have hsame : op f = op e := by
    rw [h.same]
    exact hop e f.scopes
  rw [hsame]
  exact (hblind e).parallel s t h

theorem parallel_reportUndeclared (id : NodeId) (name : String) :
    Parallel V e f (reportUndeclared e id name) (reportUndeclared f id name) :=
  Blind.parallel_env (fun env => blind_reportUndeclared env id name) fun _ _ => rfl

theorem parallel_selectField (id operand : NodeId) (field : String) (optional : Bool) :
    Parallel V e f (selectField e id operand field optional)
      (selectField f id operand field optional) :=
  Blind.parallel_env (fun env => blind_selectField env id operand field optional) fun _ _ => rfl

theorem parallel_joinTypes (id : NodeId) (previous : Option Ty) (current : Ty) :
    Parallel V e f (joinTypes e id previous current) (joinTypes f id previous current) :=
  Blind.parallel_env (fun env => blind_joinTypes env id previous current) fun _ _ => rfl

theorem parallel_checkInit (init : FieldInit) (message : String) (target : Ty) :
    Parallel V e f (checkInit e init message target) (checkInit f init message target) :=
  Blind.parallel_env (fun env => blind_checkInit env init message target) fun _ _ => rfl

theorem parallel_undeclaredCall (expr : Expr) (function : String) :
    Parallel V e f (undeclaredCall e expr function) (undeclaredCall f expr function) :=
  Blind.parallel_env (fun env => blind_undeclaredCall env expr function) fun _ _ => rfl

/-! ## Calls of functions that are alike -/

theorem forall₂_usable (env : Env) {a b : FunctionDecl} (h : a.Alike b) (isMember : Bool) :
    List.Forall₂ Overload.Alike (usable env a isMember) (usable env b isMember) := by
  unfold usable
  have hoverloads := h.overloads
  generalize a.overloads = os at hoverloads
  generalize b.overloads = ps at hoverloads
  induction hoverloads with
  | nil => exact .nil
  | cons hop _ ih =>
    rw [List.filter_cons, List.filter_cons, hop.id, hop.isMember]
    split
    · exact .cons hop ih
    · exact ih

theorem tryOverload_eq (argTypes : List Ty) (found : Option (Ty × Reference)) {o p : Overload}
    (h : o.Alike p) :
    (tryOverload argTypes found p : Checking _) = tryOverload argTypes found o := by
  unfold tryOverload
  simp only [h.id, h.instantiate]

theorem foldlM_tryOverload_eq (argTypes : List Ty) {os ps : List Overload}
    (h : List.Forall₂ Overload.Alike os ps) (found : Option (Ty × Reference)) :
    (ps.foldlM (tryOverload argTypes) found : Checking _) =
      os.foldlM (tryOverload argTypes) found := by
  induction h generalizing found with
  | nil => rfl
  | cons hop _ ih =>
    rw [List.foldlM_cons, List.foldlM_cons, tryOverload_eq argTypes found hop]
    exact congrArg _ (funext ih)

/-- **A call cannot tell alike functions apart.** -/
theorem resolveOverload_eq (env : Env) (id : NodeId) {a b : FunctionDecl} (h : a.Alike b)
    (target : Option NodeId) (args : List NodeId) :
    (resolveOverload env id b target args : Checking _) = resolveOverload env id a target args := by
  have husable := forall₂_usable env h target.isSome
  have hreport : ∀ argTypes, (reportNoMatch id b argTypes target.isSome : Checking _) =
      reportNoMatch id a argTypes target.isSome := by
    intro argTypes
    unfold reportNoMatch
    rw [h.name]
  unfold resolveOverload
  simp only [h.name, hreport, foldlM_tryOverload_eq _ husable]
  -- what is left of the overloads is the id of the first, for the chains of truth values
  revert husable
  generalize usable env a target.isSome = os
  generalize usable env b target.isSome = ps
  rintro (_ | @⟨o, p, os, ps, hop, -⟩)
  · rfl
  · simp only [hop.id]

theorem parallel_typeCall (expr : Expr) {a b : FunctionDecl} (h : a.Alike b)
    (target : Option NodeId) (args : List NodeId) :
    Parallel V e f (typeCall e expr a target args) (typeCall f expr b target args) := by
  have heq : (typeCall f expr b target args : Checking _) = typeCall f expr a target args := by
    unfold typeCall
    rw [resolveOverload_eq f expr.id h]
  rw [heq]
  exact Blind.parallel_env (fun env => blind_typeCall env expr a target args) fun _ _ => rfl

/-! ## The walk -/

/-- Check the condition and the step of a loop, in a scope of the variables of the iteration. -/
def checkLoop (outer : Env) (iterVar : String) (iterVar2 : Option String)
    (first second accuType : Ty) (loopCondition loopStep : Expr) : Checking (Expr × Expr) := do
  let inner ← enterScope outer
  declareLocal inner iterVar first
  if let some iterVar2 := iterVar2 then declareLocal inner iterVar2 second
  let loopCondition ← checkExpr inner loopCondition
  requireType loopCondition.id .bool
  let loopStep ← checkExpr inner loopStep
  requireType loopStep.id accuType
  return (loopCondition, loopStep)

/-- Check a comprehension whose range and initial value are checked. -/
def checkFold (env : Env) (id : NodeId) (iterRange : Expr) (iterVar : String)
    (iterVar2 : Option String) (accuVar : String) (accuInit loopCondition loopStep result : Expr) :
    Checking Expr := do
  let rangeType ← resolve (← typeOf iterRange.id)
  let accuType ← typeOf accuInit.id
  let outer ← enterScope env
  declareLocal outer accuVar accuType
  let types ← iterationTypes iterRange.id rangeType iterVar2.isSome
  let loop ← checkLoop outer iterVar iterVar2 types.1 types.2 accuType loopCondition loopStep
  let result ← checkExpr outer result
  let resultType ← resolve (← typeOf result.id)
  let e := Expr.comprehension id iterRange iterVar iterVar2 accuVar accuInit loop.1 loop.2 result
  setType e resultType
  return e

/-- The scope of the variables of an iteration ends with the step of the loop. -/
theorem checkExpr_comprehension (env : Env) (id : NodeId) (iterRange : Expr) (iterVar : String)
    (iterVar2 : Option String) (accuVar : String) (accuInit loopCondition loopStep result : Expr) :
    (checkExpr env (.comprehension id iterRange iterVar iterVar2 accuVar accuInit loopCondition
      loopStep result) : Checking Expr) = (do
        let iterRange ← checkExpr env iterRange
        let accuInit ← checkExpr env accuInit
        checkFold env id iterRange iterVar iterVar2 accuVar accuInit loopCondition loopStep
          result) := by
  rw [checkExpr]
  unfold checkFold checkLoop
  cases iterVar2 with
  | none => simp only [bind_assoc, pure_bind]
  | some iterVar2 => simp only [bind_assoc, pure_bind]

theorem parallel_checkLoop {loopCondition loopStep : Expr}
    (hcondition : ∀ e f, Parallel V e f (checkExpr e loopCondition) (checkExpr f loopCondition))
    (hstep : ∀ e f, Parallel V e f (checkExpr e loopStep) (checkExpr f loopStep)) (e f : Env)
    (iterVar : String) (iterVar2 : Option String) (first second accuType : Ty) :
    Parallel V e f (checkLoop e iterVar iterVar2 first second accuType loopCondition loopStep)
      (checkLoop f iterVar iterVar2 first second accuType loopCondition loopStep) := by
  refine .enterScope fun inner inner' => .declare _ _ ?_
  have hrest : Parallel V inner inner'
      (do
        let loopCondition ← checkExpr inner loopCondition
        requireType loopCondition.id .bool
        let loopStep ← checkExpr inner loopStep
        requireType loopStep.id accuType
        return (loopCondition, loopStep))
      (do
        let loopCondition ← checkExpr inner' loopCondition
        requireType loopCondition.id .bool
        let loopStep ← checkExpr inner' loopStep
        requireType loopStep.id accuType
        return (loopCondition, loopStep)) :=
    (hcondition _ _).bind fun _ => (blind_requireType _ _).parallel.bind fun _ =>
      (hstep _ _).bind fun _ => (blind_requireType _ _).parallel.bind fun _ => .pure _
  rcases iterVar2 with _ | iterVar2
  · exact hrest.local
  · exact .declare _ _ hrest.local

theorem parallel_checkFold {loopCondition loopStep result : Expr}
    (hcondition : ∀ e f, Parallel V e f (checkExpr e loopCondition) (checkExpr f loopCondition))
    (hstep : ∀ e f, Parallel V e f (checkExpr e loopStep) (checkExpr f loopStep))
    (hresult : ∀ e f, Parallel V e f (checkExpr e result) (checkExpr f result)) (e f : Env)
    (id : NodeId)
    (iterRange : Expr) (iterVar : String) (iterVar2 : Option String) (accuVar : String)
    (accuInit : Expr) :
    Parallel V e f
      (checkFold e id iterRange iterVar iterVar2 accuVar accuInit loopCondition loopStep result)
      (checkFold f id iterRange iterVar iterVar2 accuVar accuInit loopCondition loopStep
        result) := by
  refine (blind_typeOf _).parallel.bind fun _ => (blind_resolve _).parallel.bind fun _ =>
    (blind_typeOf _).parallel.bind fun _ => .enterScope fun outer outer' => .declare _ _ ?_
  exact ((blind_iterationTypes _ _ _).parallel.bind fun _ =>
    (parallel_checkLoop hcondition hstep outer outer' _ _ _ _ _).bind fun _ =>
    (hresult outer outer').bind fun _ => (blind_typeOf _).parallel.bind fun _ =>
    (blind_resolve _).parallel.bind fun _ => (blind_setType _ _).parallel.bind fun _ =>
    .pure _).local

theorem parallel_checkOptionalSelect (id : NodeId) {args : List Expr}
    (hargs : ∀ a ∈ args, ∀ e f, Parallel V e f (checkExpr e a) (checkExpr f a)) (e f : Env) :
    Parallel V e f (checkOptionalSelect e id args) (checkOptionalSelect f id args) := by
  unfold checkOptionalSelect
  split
  · exact (hargs _ List.mem_cons_self e f).bind fun _ => (parallel_selectField _ _ _ _).bind
      fun _ => .pure _
  · exact .pure _
  · exact .pure _

theorem parallel_checkAll : ∀ {es : List Expr},
    (∀ a ∈ es, ∀ e f, Parallel V e f (checkExpr e a) (checkExpr f a)) →
      ∀ e f, Parallel V e f (checkAll e es) (checkAll f es)
  | [], _, e, f => by
    rw [checkAll, checkAll]
    exact .pure _
  | a :: rest, hes, e, f => by
    obtain ⟨ha, hrest⟩ := List.forall_mem_cons.mp hes
    rw [checkAll, checkAll]
    exact (ha e f).bind fun _ => (parallel_checkAll hrest e f).bind fun _ => .pure _

theorem parallel_checkElements {optionalIndices : List UInt64} : ∀ {es : List Expr},
    (∀ a ∈ es, ∀ e f, Parallel V e f (checkExpr e a) (checkExpr f a)) →
      ∀ e f index element, Parallel V e f (checkElements e optionalIndices index element es)
        (checkElements f optionalIndices index element es)
  | [], _, e, f, index, element => by
    rw [checkElements, checkElements]
    exact .pure _
  | a :: rest, hes, e, f, index, element => by
    obtain ⟨ha, hrest⟩ := List.forall_mem_cons.mp hes
    rw [checkElements, checkElements]
    exact (ha e f).bind fun _ => (blind_entryType _ _).parallel.bind fun _ =>
      (parallel_joinTypes _ _ _).bind fun _ => (parallel_checkElements hrest e f _ _).bind
      fun _ => .pure _

theorem parallel_checkEntries : ∀ {entries : List MapEntry},
    (∀ a ∈ entries, (∀ e f, Parallel V e f (checkExpr e a.key) (checkExpr f a.key)) ∧
      ∀ e f, Parallel V e f (checkExpr e a.value) (checkExpr f a.value)) →
      ∀ e f types, Parallel V e f (checkEntries e types entries) (checkEntries f types entries)
  | [], _, e, f, types => by
    rw [checkEntries, checkEntries]
    exact .pure _
  | ⟨id, key, value, optional⟩ :: rest, hes, e, f, types => by
    obtain ⟨⟨hkey, hvalue⟩, hrest⟩ := List.forall_mem_cons.mp hes
    rw [checkEntries, checkEntries]
    exact (hkey e f).bind fun _ => (blind_typeOf _).parallel.bind fun _ =>
      (parallel_joinTypes _ _ _).bind fun _ => (hvalue e f).bind fun _ =>
      (blind_entryType _ _).parallel.bind fun _ => (parallel_joinTypes _ _ _).bind fun _ =>
      (parallel_checkEntries hrest e f _).bind fun _ => .pure _

theorem parallel_checkFields {message : String} {target : Ty} : ∀ {fields : List FieldInit},
    (∀ a ∈ fields, ∀ e f, Parallel V e f (checkExpr e a.value) (checkExpr f a.value)) →
      ∀ e f, Parallel V e f (checkFields e message target fields)
        (checkFields f message target fields)
  | [], _, e, f => by
    rw [checkFields, checkFields]
    exact .pure _
  | ⟨id, field, value, optional⟩ :: rest, hfs, e, f => by
    obtain ⟨hvalue, hrest⟩ := List.forall_mem_cons.mp hfs
    rw [checkFields, checkFields]
    exact (hvalue e f).bind fun _ => (parallel_checkInit _ _ _).bind fun _ =>
      (parallel_checkFields hrest e f).bind fun _ => .pure _

/-- What is done with a function that was looked up, or with none. -/
theorem parallel_call {k l : FunctionDecl → Checking α} {x y : Checking α}
    (hsome : ∀ a b, a.Alike b → Parallel V e f (k a) (l b)) (hnone : Parallel V e f x y) :
    ∀ a b, Option.Rel FunctionDecl.Alike a b → Parallel V e f
      (match a with
        | some g => k g
        | none => x)
      (match b with
        | some g => l g
        | none => y)
  | _, _, .some hab => hsome _ _ hab
  | _, _, .none => hnone

/-- **Checks against alike environments go side by side.** -/
theorem parallel_checkExpr {expr : Expr} (hexpr : V.Covers expr) (e f : Env) :
    Parallel V e f (checkExpr e expr) (checkExpr f expr) := by
  induction expr using Expr.induct generalizing e f with
  | unset id =>
    rw [checkExpr, checkExpr]
    exact (blind_report _ _).parallel.bind fun _ =>
      (blind_setType _ _).parallel.bind fun _ => .pure _
  | const id value =>
    rw [checkExpr, checkExpr]
    exact (blind_setType _ _).parallel.bind fun _ => .pure _
  | ident id name =>
    rw [checkExpr, checkExpr]
    refine (parallel_lookupIdent (hexpr.name List.mem_cons_self)).bind ?_
    rintro (_ | v)
    · exact (blind_setType _ _).parallel.bind fun _ => (parallel_reportUndeclared _ _).bind
        fun _ => .pure _
    · exact (blind_resolveIdent _ _).parallel
  | select id operand field testOnly optional hoperand =>
    rw [checkExpr, checkExpr]
    have hnames := fun m hm => hexpr.name (m := m) (Option.mem_toList.mpr hm)
    refine (parallel_lookupQualified hnames).bind ?_
    rintro (_ | v)
    · refine (hoperand (hexpr.part List.mem_cons_self) e f).bind fun _ =>
        (parallel_selectField _ _ _ _).bind fun _ => (blind_resolve _).parallel.bind fun _ =>
        (blind_setType _ _).parallel.bind fun _ => ?_
      split
      · exact (blind_setReference _ _).parallel.bind fun _ => .pure _
      · exact .pure _
    · exact (blind_resolveIdent _ _).parallel
  | call id function target args htarget hargs =>
    have hargs := fun a ha => hargs a ha (hexpr.part (List.mem_append_right _ ha))
    have hfunction := hexpr.function List.mem_cons_self
    rw [checkExpr, checkExpr]
    split
    · exact (parallel_checkOptionalSelect id hargs e f).bind fun _ =>
        (blind_finishOptionalSelect _ _).parallel.bind fun _ => .pure _
    · have hnames : ∀ q ∈ target.bind Expr.qualifiedName?, V.functions (q ++ "." ++ function) :=
        fun q hq => hexpr.function (List.mem_cons_of_mem _
          (List.mem_map.mpr ⟨q, Option.mem_toList.mpr hq, rfl⟩))
      refine (parallel_checkAll hargs e f).bind fun args => .lookupNamespaced hnames ?_
      refine parallel_call (fun a b hab => ?_) ?_
      · rw [hab.name]
        exact parallel_typeCall _ hab _ _
      · rcases target with _ | receiver
        · refine .lookupFunction hfunction
            (parallel_call (fun a b hab => ?_) (parallel_undeclaredCall _ _))
          rw [hab.name]
          exact parallel_typeCall _ hab _ _
        · have hreceiver := hexpr.part (List.mem_append_left _ List.mem_cons_self)
          exact (htarget receiver rfl hreceiver e f).bind fun receiver => .lookupFunction hfunction
            (parallel_call (fun a b hab => parallel_typeCall _ hab _ _)
              (parallel_undeclaredCall _ _))
  | list id elements optionalIndices helements =>
    have helements := fun a ha => helements a ha (hexpr.part ha)
    rw [checkExpr, checkExpr]
    refine (parallel_checkElements helements e f 0 none).bind ?_
    rintro ⟨elements, _ | t⟩
    · exact blind_freshVar.parallel.bind fun _ => (blind_setType _ _).parallel.bind fun _ => .pure _
    · exact (Parallel.pure _).bind fun _ => (blind_setType _ _).parallel.bind fun _ => .pure _
  | map id entries hentries =>
    have hparts : ∀ a ∈ entries, ∀ c ∈ [a.key, a.value], V.Covers c :=
      fun a ha c hc => hexpr.part (List.mem_flatMap.mpr ⟨a, ha, hc⟩)
    have hentries := fun a ha =>
      (hentries a ha).imp (· (hparts a ha _ (by simp))) (· (hparts a ha _ (by simp)))
    rw [checkExpr, checkExpr]
    refine (parallel_checkEntries hentries e f none).bind ?_
    rintro ⟨entries, _ | types⟩
    · exact blind_freshVar.parallel.bind fun _ => blind_freshVar.parallel.bind fun _ =>
        (Parallel.pure _).bind fun _ => (blind_setType _ _).parallel.bind fun _ => .pure _
    · exact (Parallel.pure _).bind fun _ => (blind_setType _ _).parallel.bind fun _ => .pure _
  | struct id messageName fields hfields =>
    have hfields := fun a ha => hfields a ha (hexpr.part (List.mem_map_of_mem ha))
    rw [checkExpr, checkExpr]
    refine (parallel_lookupIdent (hexpr.name List.mem_cons_self)).bind ?_
    rintro (_ | v)
    · exact (blind_setType _ _).parallel.bind fun _ => (parallel_reportUndeclared _ _).bind
        fun _ => .pure _
    · exact (blind_literalTarget _ _).parallel.bind fun _ => (parallel_checkFields hfields e f).bind
        fun _ => (blind_setType _ _).parallel.bind fun _ => (blind_setReference _ _).parallel.bind
        fun _ => .pure _
  | comprehension id iterRange iterVar iterVar2 accuVar accuInit loopCondition loopStep result
      hrange hinit hcondition hstep hresult =>
    have hparts : ∀ c ∈ [iterRange, accuInit, loopCondition, loopStep, result], V.Covers c :=
      fun c hc => hexpr.part hc
    simp only [List.forall_mem_cons] at hparts
    obtain ⟨hrange', hinit', hcondition', hstep', hresult', -⟩ := hparts
    rw [checkExpr_comprehension, checkExpr_comprehension]
    exact (hrange hrange' e f).bind fun _ => (hinit hinit' e f).bind fun _ =>
      parallel_checkFold (hcondition hcondition') (hstep hstep') (hresult hresult') e f _ _ _ _ _ _

/-- **A check leaves alone what environments around see**, and what their scopes declare, but for
what lookups add. -/
theorem maintained_checkExpr {env g : Env} (hg : env.Inside g) {s : CheckState}
    (hv : env.Valid s.store) (expr : Expr) :
    g.Maintained s.store ((checkExpr env expr : Checking Expr).run s).2.store := by
  obtain ⟨_, -, hframe, -⟩ :=
    parallel_checkExpr (Vocabulary.covers_all expr) env env s s.store
      (.of_undisturbed hv (.refl env s.store))
  exact hframe g hg

end Checking

/-- Environments that are alike on the names that an expression uses give the same results. -/
theorem check_eq_of_alikeOn {V : Vocabulary} {e f : Env} {s t : Store} (h : e.AlikeOn V s f t)
    (source : Source) {expr : Expr} (hexpr : V.Covers expr) :
    (check f t source expr).1 = (check e s source expr).1 := by
  obtain ⟨t', hrun, -, -⟩ := Checking.parallel_checkExpr hexpr e f (.start s) t h
  have hstart : ({ CheckState.start s with store := t } : CheckState) = .start t := rfl
  unfold check
  rw [← hstart, hrun]
  rfl

/-- **Alike environments give the same results.** -/
theorem check_eq_of_alike {e f : Env} {s t : Store} (h : e.Alike s f t) (source : Source)
    (expr : Expr) : (check f t source expr).1 = (check e s source expr).1 :=
  check_eq_of_alikeOn h source (Vocabulary.covers_all expr)

end CelTyping
