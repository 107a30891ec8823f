import CelTyping.Proofs.Check.Parallel
import CelTyping.Proofs.Check.Policy
import CelTyping.Proofs.Check.Trace
import CelTyping.Proofs.Env.Locals
import CelTyping.Proofs.Ty.Nodes

/-!
# The scope of the variables of a loop

In the condition and in the step of a comprehension an identifier with the name of an iteration
variable is given the type of that variable, wherever it stands: in arguments, in literals, as the
operand of selections, or inside of further comprehensions that do not bind the name again.

## What is in the way

Two things keep an occurrence from being seen as the variable.  The name may mean something else,
where a namespace around the expression or an alias comes first (`qualified_hides_local`), and
`Env.Clear` leaves this out.  Or the occurrence may not be looked at: an optional selection ignores
its receiver, and a message literal of an unknown type its fields.  `Expr.Free` lists the
occurrences that are.

* `typed_checkExpr`: free occurrences of a name are given the type of what the name means.
* `local_scoping`: so are those of an iteration variable.
-/

namespace CelTyping

/-! ## Free occurrences -/

/-- A node is an identifier of a name, in a place that a check looks at and in which no further
comprehension comes between the name and what it means.  Only of some message types it is known that
they mean something. -/
inductive Expr.Free (c : Container) (known : String → Prop) (name : String) (n : NodeId) :
    Expr → Prop
  | ident : Free c known name n (.ident n name)
  | operand {id : NodeId} {operand : Expr} {field : String} {testOnly optional : Bool} :
    Free c known name n operand → Free c known name n (.select id operand field testOnly optional)
  | receiver {id : NodeId} {function : String} {receiver : Expr} {args : List Expr} :
    function ≠ Standard.optionalSelect → Free c known name n receiver →
    Free c known name n (.call id function (some receiver) args)
  | arg {id : NodeId} {function : String} {target : Option Expr} {args : List Expr} {a : Expr} :
    function ≠ Standard.optionalSelect → a ∈ args → Free c known name n a →
    Free c known name n (.call id function target args)
  | optionalOperand {id : NodeId} {target : Option Expr} {operand : Expr} {fieldId : NodeId}
      {field : String} :
    Free c known name n operand → Free c known name n
      (.call id Standard.optionalSelect target [operand, .const fieldId (.string field)])
  | element {id : NodeId} {elements : List Expr} {optionalIndices : List UInt64} {a : Expr} :
    a ∈ elements → Free c known name n a →
    Free c known name n (.list id elements optionalIndices)
  | entry {id : NodeId} {entries : List MapEntry} {entry : MapEntry} {part : Expr} :
    entry ∈ entries → part = entry.key ∨ part = entry.value → Free c known name n part →
    Free c known name n (.map id entries)
  | field {id : NodeId} {messageName : String} {fields : List FieldInit} {f : FieldInit} :
    known messageName → f ∈ fields → Free c known name n f.value →
    Free c known name n (.struct id messageName fields)
  | iterRange {id : NodeId} {iterRange : Expr} {iterVar : String} {iterVar2 : Option String}
      {accuVar : String} {accuInit loopCondition loopStep result : Expr} :
    Free c known name n iterRange → Free c known name n (.comprehension id iterRange iterVar
      iterVar2 accuVar accuInit loopCondition loopStep result)
  | accuInit {id : NodeId} {iterRange : Expr} {iterVar : String} {iterVar2 : Option String}
      {accuVar : String} {accuInit loopCondition loopStep result : Expr} :
    Free c known name n accuInit → Free c known name n (.comprehension id iterRange iterVar iterVar2
      accuVar accuInit loopCondition loopStep result)
  | loop {id : NodeId} {iterRange : Expr} {iterVar : String} {iterVar2 : Option String}
      {accuVar : String} {accuInit loopCondition loopStep result body : Expr} :
    (∀ b ∈ accuVar :: iterVar :: iterVar2.toList, b ≠ name ∧ ¬ c.Captures name b) →
    body = loopCondition ∨ body = loopStep → Free c known name n body →
    Free c known name n (.comprehension id iterRange iterVar iterVar2 accuVar accuInit loopCondition
      loopStep result)
  | result {id : NodeId} {iterRange : Expr} {iterVar : String} {iterVar2 : Option String}
      {accuVar : String} {accuInit loopCondition loopStep result : Expr} :
    accuVar ≠ name → ¬ c.Captures name accuVar → Free c known name n result →
    Free c known name n (.comprehension id iterRange iterVar iterVar2 accuVar accuInit loopCondition
      loopStep result)

/-- A chain of selections from a free occurrence spells a name that goes on from it. -/
theorem Expr.Free.qualifiedName? {c : Container} {known : String → Prop} {name : String}
    {n : NodeId} {e : Expr} (h : e.Free c known name n) {q : String}
    (hq : e.qualifiedName? = some q) (s : String) :
    ∃ rest, q ++ "." ++ s = name ++ "." ++ rest := by
  induction h generalizing q s with
  | ident => exact ⟨s, by rw [← Option.some.inj hq]⟩
  | @operand id operand field testOnly optional _ ih =>
    cases testOnly with
    | true => exact absurd hq (by simp [Expr.qualifiedName?])
    | false =>
      cases optional with
      | true => exact absurd hq (by simp [Expr.qualifiedName?])
      | false =>
        obtain ⟨p, hp, rfl⟩ := Option.map_eq_some_iff.mp hq
        obtain ⟨rest, hrest⟩ := ih hp field
        exact ⟨rest ++ "." ++ s, by rw [hrest]; simp [String.append_assoc]⟩
  | _ => exact absurd hq (by simp [Expr.qualifiedName?])

/-! ## Types of nodes -/

namespace CheckState

/-- A node has a type, or that it is given different types is among the errors. -/
def Typed (s : CheckState) (n : NodeId) (t : Ty) : Prop :=
  (∃ u, s.types.find? n = some u ∧ u.isExact t = true) ∨
    ∃ expr old new, ⟨n, .conflictingTypes expr old new⟩ ∈ s.errors

theorem Typed.of_errors {s s' : CheckState} {n : NodeId} {t : Ty} (h : s.Typed n t)
    (htypes : s'.types = s.types) (herrors : s.errors <+: s'.errors) : s'.Typed n t := by
  rcases h with ⟨u, hu, hexact⟩ | ⟨expr, old, new, hmem⟩
  · exact Or.inl ⟨u, by rw [htypes, hu], hexact⟩
  · exact Or.inr ⟨expr, old, new, herrors.subset hmem⟩

theorem typed_setType (s : CheckState) (e : Expr) (t : Ty) : (s.setType e t).Typed e.id t := by
  obtain ⟨s', -, -, -, -, heq⟩ := s.setType_eq e t
  refine Or.inl ⟨t, ?_, Ty.isExact_iff.mpr rfl⟩
  rw [heq]
  exact Table.find?_insert_self _ _ _

/-- A node keeps its type, or is reported. -/
theorem Typed.setType {s : CheckState} {n : NodeId} {t : Ty} (h : s.Typed n t) (e : Expr) (u : Ty) :
    (s.setType e u).Typed n t := by
  rcases h with ⟨old, hold, hexact⟩ | ⟨expr, old, new, hmem⟩
  · by_cases hid : n = e.id
    · subst hid
      unfold CheckState.setType
      rw [hold]
      cases hsame : old.isExact u with
      | true =>
        refine Or.inl ⟨u, Table.find?_insert_self _ _ _, ?_⟩
        rw [Ty.isExact_iff] at hsame hexact ⊢
        rw [← hsame, hexact]
      | false =>
        refine Or.inr ⟨e.describe, old.display, u.display, ?_⟩
        show _ ∈ (if old.isExact u = true then s else _).errors
        simp [hsame, report]
    · obtain ⟨s', -, -, -, htypes, heq⟩ := s.setType_eq e u
      refine Or.inl ⟨old, ?_, hexact⟩
      rw [heq]
      show (s'.types.insert e.id u).find? n = some old
      rw [Table.find?_insert_ne _ hid, htypes, hold]
  · exact Or.inr ⟨expr, old, new, (s.advances_setType e u).errors.subset hmem⟩

end CheckState

namespace Checking

variable {α β : Type}

/-- A node that has a type keeps it. -/
def KeepsType (n : NodeId) (t : Ty) (x : Checking α) : Prop :=
  ∀ s : CheckState, s.Typed n t → (x.run s).2.Typed n t

theorem KeepsType.pure {n : NodeId} {t : Ty} (a : α) : KeepsType n t (pure a) := fun _ h => h

theorem KeepsType.bind {n : NodeId} {t : Ty} {x : Checking α} {k : α → Checking β}
    (hx : KeepsType n t x) (hk : ∀ a, KeepsType n t (k a)) : KeepsType n t (x >>= k) :=
  fun s h => hk _ _ (hx s h)

/-- **A node that has a type keeps it through every check**, or is reported. -/
theorem keepsType_congruence (n : NodeId) (t : Ty) :
    Congruence (M := Checking) (N := Checking) fun _ x _ => KeepsType n t x where
  pure a := .pure a
  bind hx hf := hx.bind hf
  get _ h := h
  report id fault s h := h.of_errors rfl (s.advances_report id fault).errors
  setType e u _ h := h.setType e u
  setReference e r s h := by
    obtain ⟨s', -, -, -, htypes, heq⟩ := s.setReference_eq e r
    refine h.of_errors ?_ (s.advances_setReference e r).errors
    show (s.setReference e r).types = s.types
    rw [heq]
    exact htypes
  setNextVar _ _ h := h.of_errors rfl List.prefix_rfl
  setMapping _ _ h := h.of_errors rfl List.prefix_rfl
  setStore _ _ h := h.of_errors rfl List.prefix_rfl

/-! ## What a name means on the way -/

/-- A name means a variable, with nothing in the way, and message types that are known mean
something. -/
structure Binds (c : Container) (known : String → Prop) (v : Variable) (env : Env) (store : Store) :
    Prop where
  /-- The names are looked up in a namespace. -/
  container : env.container = c
  /-- Nothing is in the way. -/
  clear : env.Clear store v.name
  /-- The name means the variable. -/
  sees : env.sees store v.name = some v
  /-- Known message types mean something. -/
  known : ∀ m, known m → (env.lookupIdent store m).1.isSome = true

section Binds

variable {c : Container} {known : String → Prop} {v : Variable} {env : Env}

theorem Binds.undisturbed {s t : Store} (h : Binds c known v env s) (hst : env.Undisturbed s t) :
    Binds c known v env t where
  container := h.container
  clear := h.clear.undisturbed hst
  sees := by rw [hst.sees, h.sees]
  known m hm := by
    rw [hst.lookupIdent]
    exact h.known m hm

/-- A scope with locals that do not bind the name keeps what it means. -/
theorem Binds.scopeWith {s : Store} (h : Binds c known v env s) {ws : List Variable}
    (hws : ∀ w ∈ ws, w.name ≠ v.name ∧ ¬ c.Captures v.name w.name) :
    Binds c known v (env.enterScope s).1 (env.scopeWith s ws) where
  container := h.container
  clear := h.clear.scopeWith fun w hw => by
    rw [h.container]
    exact (hws w hw).2
  sees := by
    have hlast : Env.lastNamed? v.name ws = none :=
      List.find?_eq_none.mpr fun w hw => by simpa using (hws w (List.mem_reverse.mp hw)).1
    rw [Env.sees_scopeWith, hlast, Option.none_or, h.sees]
  known m hm := Env.isSome_lookupIdent_scopeWith ws (h.known m hm)

/-! ## Steps that give a node its type -/

/-- A step leaves alone what an environment sees. -/
def Framed (env : Env) (x : Checking α) : Prop :=
  ∀ s : CheckState, env.Valid s.store → env.Undisturbed s.store (x.run s).2.store

theorem Blind.framed {x : Checking α} (h : Blind x) : Framed env x := by
  intro s _
  rw [h.store]
  exact .refl env s.store

theorem Parallel.framed {x : Checking α} (h : Parallel .all env env x x) : Framed env x := by
  intro s hv
  obtain ⟨_, -, hframe, -⟩ := h s s.store (.of_undisturbed hv (.refl env s.store))
  exact (hframe env (.refl env)).toUndisturbed

theorem framed_checkExpr (env : Env) (e : Expr) : Framed env (checkExpr env e) :=
  (parallel_checkExpr (Vocabulary.covers_all e) env env).framed

theorem framed_lookupIdent (env : Env) (name : String) : Framed env (lookupIdent env name) :=
  (parallel_lookupIdent trivial).framed

theorem framed_lookupNamespaced (env : Env) (target : Option Expr) (function : String) :
    Framed env (lookupNamespaced env target function) := by
  intro s _
  unfold lookupNamespaced
  split
  · exact .refl env s.store
  · exact .refl env s.store

variable (c known v env) in
/-- A step gives a node the type of a variable, where a name means this variable. -/
def Gives (n : NodeId) (x : Checking α) : Prop :=
  ∀ s : CheckState, Binds c known v env s.store → (x.run s).2.Typed n v.ty

theorem Gives.bind {n : NodeId} {x : Checking α} {k : α → Checking β}
    (hx : Gives c known v env n x) (hk : ∀ a, KeepsType n v.ty (k a)) :
    Gives c known v env n (x >>= k) :=
  fun s hs => hk _ _ (hx s hs)

/-- A node may be given its type by what follows a step. -/
theorem Framed.bind {n : NodeId} {x : Checking α} {k : α → Checking β} (hx : Framed env x)
    (hk : ∀ s : CheckState, Binds c known v env s.store → Gives c known v env n (k (x.run s).1)) :
    Gives c known v env n (x >>= k) :=
  fun s hs => hk s hs _ (hs.undisturbed (hx s hs.clear.valid))

theorem Gives.checkAll {n : NodeId} {es : List Expr} {a : Expr} (ha : a ∈ es)
    (h : Gives c known v env n (checkExpr env a)) : Gives c known v env n (checkAll env es) := by
  have hcong := keepsType_congruence n v.ty
  induction es with
  | nil => exact absurd ha List.not_mem_nil
  | cons e rest ih =>
    rw [Checking.checkAll]
    rcases List.mem_cons.mp ha with rfl | ha
    · exact h.bind fun _ => KeepsType.bind (hcong.checkAll env rest) fun _ => .pure _
    · exact (framed_checkExpr env e).bind fun _ _ => (ih ha).bind fun _ => .pure _

theorem Gives.checkElements {n : NodeId} {es : List Expr} {a : Expr} (ha : a ∈ es)
    (h : Gives c known v env n (checkExpr env a)) (optionalIndices : List UInt64) (index : Nat)
    (element : Option Ty) :
    Gives c known v env n (checkElements env optionalIndices index element es) := by
  have hcong := keepsType_congruence n v.ty
  induction es generalizing index element with
  | nil => exact absurd ha List.not_mem_nil
  | cons e rest ih =>
    rw [Checking.checkElements]
    rcases List.mem_cons.mp ha with rfl | ha
    · exact h.bind fun _ => KeepsType.bind (hcong.entryType _ _) fun _ => KeepsType.bind
        (hcong.joinTypes _ _ _ _) fun _ => KeepsType.bind (hcong.checkElements env _ _ _ rest)
        fun _ => .pure _
    · exact (framed_checkExpr env e).bind fun _ _ => (blind_entryType _ _).framed.bind fun _ _ =>
        (blind_joinTypes _ _ _ _).framed.bind fun _ _ => (ih ha _ _).bind fun _ => .pure _

theorem Gives.checkEntries {n : NodeId} {entries : List MapEntry} {entry : MapEntry}
    (hentry : entry ∈ entries) (h : Gives c known v env n (checkExpr env entry.key) ∨
      Gives c known v env n (checkExpr env entry.value)) (types : Option (Ty × Ty)) :
    Gives c known v env n (checkEntries env types entries) := by
  have hcong := keepsType_congruence n v.ty
  induction entries generalizing types with
  | nil => exact absurd hentry List.not_mem_nil
  | cons first rest ih =>
    obtain ⟨id, key, value, optional⟩ := first
    have hrest : ∀ types, KeepsType n v.ty (Checking.checkEntries env types rest) :=
      fun types => hcong.checkEntries env types rest
    rw [Checking.checkEntries]
    rcases List.mem_cons.mp hentry with rfl | hentry
    · rcases h with hkey | hvalue
      · exact hkey.bind fun _ => KeepsType.bind (hcong.typeOf _) fun _ =>
          KeepsType.bind (hcong.joinTypes _ _ _ _) fun _ =>
          KeepsType.bind (hcong.checkExpr _ _) fun _ =>
          KeepsType.bind (hcong.entryType _ _) fun _ =>
          KeepsType.bind (hcong.joinTypes _ _ _ _) fun _ =>
          KeepsType.bind (hrest _) fun _ => .pure _
      · exact (framed_checkExpr env key).bind fun _ _ => (blind_typeOf _).framed.bind fun _ _ =>
          (blind_joinTypes _ _ _ _).framed.bind fun _ _ => hvalue.bind fun _ =>
          KeepsType.bind (hcong.entryType _ _) fun _ =>
          KeepsType.bind (hcong.joinTypes _ _ _ _) fun _ =>
          KeepsType.bind (hrest _) fun _ => .pure _
    · exact (framed_checkExpr env key).bind fun _ _ => (blind_typeOf _).framed.bind fun _ _ =>
        (blind_joinTypes _ _ _ _).framed.bind fun _ _ =>
        (framed_checkExpr env value).bind fun _ _ => (blind_entryType _ _).framed.bind fun _ _ =>
        (blind_joinTypes _ _ _ _).framed.bind fun _ _ => (ih hentry _).bind fun _ => .pure _

theorem Gives.checkFields {n : NodeId} {fields : List FieldInit} {f : FieldInit} (hf : f ∈ fields)
    (h : Gives c known v env n (checkExpr env f.value)) (message : String) (target : Ty) :
    Gives c known v env n (checkFields env message target fields) := by
  have hcong := keepsType_congruence n v.ty
  induction fields with
  | nil => exact absurd hf List.not_mem_nil
  | cons first rest ih =>
    obtain ⟨id, field, value, optional⟩ := first
    rw [Checking.checkFields]
    rcases List.mem_cons.mp hf with rfl | hf
    · exact h.bind fun _ => KeepsType.bind (hcong.checkInit _ _ _ _) fun _ => KeepsType.bind
        (hcong.checkFields env _ _ rest) fun _ => .pure _
    · exact (framed_checkExpr env value).bind fun _ _ => (blind_checkInit _ _ _ _).framed.bind
        fun _ _ => (ih hf).bind fun _ => .pure _

theorem lookupQualified_eq_none {n : NodeId} {s : CheckState} (hs : Binds c known v env s.store)
    {operand : Expr} (hfree : operand.Free c known v.name n) {id : NodeId} {field : String}
    {testOnly optional : Bool} :
    ((lookupQualified env (.select id operand field testOnly optional) : Checking _).run s).1 =
      none := by
  unfold lookupQualified
  split
  · next name hname =>
    -- the name that is spelled goes on from the free occurrence
    have hspelled : ∃ rest, name = v.name ++ "." ++ rest := by
      cases testOnly with
      | true => exact absurd hname (by simp [Expr.qualifiedName?])
      | false =>
        cases optional with
        | true => exact absurd hname (by simp [Expr.qualifiedName?])
        | false =>
          obtain ⟨q, hq, rfl⟩ := Option.map_eq_some_iff.mp hname
          exact hfree.qualifiedName? hq field
    obtain ⟨rest, rfl⟩ := hspelled
    exact hs.clear.idents rest
  · rfl

theorem lookupNamespaced_eq_none {n : NodeId} {s : CheckState} (hs : Binds c known v env s.store)
    {receiver : Expr} (hfree : receiver.Free c known v.name n) {function : String} :
    ((lookupNamespaced env (some receiver) function : Checking _).run s).1 = none := by
  unfold lookupNamespaced
  split
  · next qualifier hqualifier =>
    obtain ⟨rest, hrest⟩ := hfree.qualifiedName? hqualifier function
    rw [hrest]
    exact hs.clear.functions rest
  · rfl

/-! ## Loops -/

/-- The variables of an iteration, in the order in which they are declared. -/
def loopVars (iterVar : String) (iterVar2 : Option String) (types : Ty × Ty) : List Variable :=
  .ofType iterVar types.1 :: (iterVar2.map fun second => .ofType second types.2).toList

/-- Check the condition and the step of a loop where the variables of the iteration are declared. -/
def checkBody (accuType : Ty) (loopCondition loopStep : Expr) (inner : Env) :
    Checking (Expr × Expr) := do
  let loopCondition ← checkExpr inner loopCondition
  requireType loopCondition.id .bool
  let loopStep ← checkExpr inner loopStep
  requireType loopStep.id accuType
  return (loopCondition, loopStep)

theorem run_checkLoop (outer : Env) (iterVar : String) (iterVar2 : Option String) (types : Ty × Ty)
    (accuType : Ty) (loopCondition loopStep : Expr) (s : CheckState) :
    (checkLoop outer iterVar iterVar2 types.1 types.2 accuType loopCondition loopStep).run s =
      (checkBody accuType loopCondition loopStep (outer.enterScope s.store).1).run
        { s with store := outer.scopeWith s.store (loopVars iterVar iterVar2 types) } := by
  unfold checkLoop
  rw [run_bind, run_bind]
  cases iterVar2 with
  | none => rfl
  | some second =>
    dsimp only
    rw [run_bind]
    rfl

theorem mem_loopVars {iterVar : String} {iterVar2 : Option String} {types : Ty × Ty} {w : Variable}
    (h : w ∈ loopVars iterVar iterVar2 types) : w.name ∈ iterVar :: iterVar2.toList := by
  cases iterVar2 with
  | none =>
    rw [List.mem_singleton.mp h]
    exact List.mem_cons_self
  | some second =>
    rcases List.mem_cons.mp h with rfl | h
    · exact List.mem_cons_self
    · rw [List.mem_singleton.mp h]
      exact List.mem_cons_of_mem _ List.mem_cons_self

theorem Gives.checkBody {n : NodeId} {accuType : Ty} {loopCondition loopStep : Expr}
    (h : Gives c known v env n (checkExpr env loopCondition) ∨
      Gives c known v env n (checkExpr env loopStep)) :
    Gives c known v env n (checkBody accuType loopCondition loopStep env) := by
  have hcong := keepsType_congruence n v.ty
  rcases h with hcondition | hstep
  · exact hcondition.bind fun _ => KeepsType.bind (hcong.requireType _ _) fun _ => KeepsType.bind
      (hcong.checkExpr _ _) fun _ => KeepsType.bind (hcong.requireType _ _) fun _ => .pure _
  · exact (framed_checkExpr _ _).bind fun _ _ => (blind_requireType _ _).framed.bind fun _ _ =>
      hstep.bind fun _ => KeepsType.bind (hcong.requireType _ _) fun _ => .pure _

theorem Gives.checkLoop {n : NodeId} {iterVar : String} {iterVar2 : Option String} {types : Ty × Ty}
    {accuType : Ty} {loopCondition loopStep : Expr}
    (hvars : ∀ b ∈ iterVar :: iterVar2.toList, b ≠ v.name ∧ ¬ c.Captures v.name b)
    (h : ∀ inner, Gives c known v inner n (checkExpr inner loopCondition) ∨
      Gives c known v inner n (checkExpr inner loopStep)) :
    Gives c known v env n
      (checkLoop env iterVar iterVar2 types.1 types.2 accuType loopCondition loopStep) := by
  intro s hs
  rw [run_checkLoop]
  exact (Gives.checkBody (h _)) _ (hs.scopeWith fun w hw => hvars _ (mem_loopVars hw))

/-- A scope with one local that does not bind the name. -/
theorem Gives.scope {n : NodeId} {binder : String} {ty : Ty} {k : Env → Checking α}
    (hbinder : binder ≠ v.name ∧ ¬ c.Captures v.name binder)
    (hk : ∀ inner, Gives c known v inner n (k inner)) :
    Gives c known v env n (enterScope env >>= fun inner => declareLocal inner binder ty >>=
      fun _ => k inner) := by
  intro s hs
  have hinner : Binds c known v (env.enterScope s.store).1
      (env.scopeWith s.store [.ofType binder ty]) :=
    hs.scopeWith (List.forall_mem_singleton.mpr hbinder)
  exact hk _ { s with store := env.scopeWith s.store [.ofType binder ty] } hinner

theorem keepsType_checkLoop (n : NodeId) (t : Ty) (outer : Env) (iterVar : String)
    (iterVar2 : Option String) (types : Ty × Ty) (accuType : Ty) (loopCondition loopStep : Expr) :
    KeepsType n t
      (checkLoop outer iterVar iterVar2 types.1 types.2 accuType loopCondition loopStep) := by
  have hcong := keepsType_congruence n t
  intro s hs
  rw [run_checkLoop]
  have hbody :
      KeepsType n t (checkBody accuType loopCondition loopStep (outer.enterScope s.store).1) :=
    KeepsType.bind (hcong.checkExpr _ _) fun _ => KeepsType.bind (hcong.requireType _ _) fun _ =>
      KeepsType.bind (hcong.checkExpr _ _) fun _ => KeepsType.bind (hcong.requireType _ _)
      fun _ => .pure _
  exact hbody _ (hs.of_errors rfl List.prefix_rfl)

/-- What is left of a comprehension after the loop. -/
theorem keepsType_checkResult (n : NodeId) (t : Ty) (outer : Env) (result : Expr)
    (resolved : Expr → Expr) : KeepsType n t (do
      let result ← checkExpr outer result
      let resultType ← resolve (← typeOf result.id)
      setType (resolved result) resultType
      return resolved result) := by
  have hcong := keepsType_congruence n t
  exact KeepsType.bind (hcong.checkExpr _ _) fun _ => KeepsType.bind (hcong.typeOf _) fun _ =>
    KeepsType.bind (hcong.resolve _) fun _ => KeepsType.bind (hcong.setType _ _) fun _ => .pure _

theorem keepsType_checkFold (n : NodeId) (t : Ty) (env : Env) (id : NodeId) (iterRange : Expr)
    (iterVar : String) (iterVar2 : Option String) (accuVar : String)
    (accuInit loopCondition loopStep result : Expr) :
    KeepsType n t
      (checkFold env id iterRange iterVar iterVar2 accuVar accuInit loopCondition loopStep
        result) := by
  have hcong := keepsType_congruence n t
  exact KeepsType.bind (hcong.typeOf _) fun _ => KeepsType.bind (hcong.resolve _) fun _ =>
    KeepsType.bind (hcong.typeOf _) fun _ => KeepsType.bind (hcong.enterScope _) fun _ =>
    KeepsType.bind (hcong.declareLocal _ _ _) fun _ => KeepsType.bind (hcong.iterationTypes _ _ _)
    fun _ => KeepsType.bind (keepsType_checkLoop _ _ _ _ _ _ _ _ _) fun _ =>
    keepsType_checkResult _ _ _ _ _

theorem Gives.checkFold {n id : NodeId} {iterRange : Expr} {iterVar : String}
    {iterVar2 : Option String} {accuVar : String} {accuInit loopCondition loopStep result : Expr}
    (haccu : accuVar ≠ v.name ∧ ¬ c.Captures v.name accuVar)
    (h : ((∀ b ∈ iterVar :: iterVar2.toList, b ≠ v.name ∧ ¬ c.Captures v.name b) ∧
        ∀ inner, Gives c known v inner n (checkExpr inner loopCondition) ∨
          Gives c known v inner n (checkExpr inner loopStep)) ∨
      ∀ outer, Gives c known v outer n (checkExpr outer result)) :
    Gives c known v env n
      (checkFold env id iterRange iterVar iterVar2 accuVar accuInit loopCondition loopStep
        result) := by
  have hcong := keepsType_congruence n v.ty
  refine (blind_typeOf _).framed.bind fun _ _ => (blind_resolve _).framed.bind fun _ _ =>
    (blind_typeOf _).framed.bind fun _ _ => .scope haccu fun outer =>
    (blind_iterationTypes _ _ _).framed.bind fun _ _ => ?_
  rcases h with ⟨hvars, hbody⟩ | hresult
  · exact (Gives.checkLoop hvars hbody).bind fun _ => keepsType_checkResult _ _ _ _ _
  · exact (parallel_checkLoop (parallel_checkExpr (Vocabulary.covers_all _))
      (parallel_checkExpr (Vocabulary.covers_all _)) outer outer _ _ _ _ _).framed.bind fun _ _ =>
      (hresult outer).bind fun _ => KeepsType.bind (hcong.typeOf _) fun _ =>
      KeepsType.bind (hcong.resolve _) fun _ => KeepsType.bind (hcong.setType _ _)
      fun _ => .pure _

end Binds

/-! ## The walk -/

/-- **Free occurrences of a name are given the type of what the name means.** -/
theorem typed_checkExpr {c : Container} {known : String → Prop} {v : Variable} {n : NodeId}
    {e : Expr}
    (h : e.Free c known v.name n) (env : Env) : Gives c known v env n (checkExpr env e) := by
  have hcong := keepsType_congruence n v.ty
  induction h generalizing env with
  | ident =>
    rw [checkExpr]
    refine (framed_lookupIdent _ _).bind fun s hs => ?_
    have hfound : ((lookupIdent env v.name : Checking _).run s).1 = some v := by
      show (env.lookupIdent s.store v.name).1 = some v
      rw [hs.clear.lookupIdent, hs.sees]
    rw [hfound]
    have hgives : Gives c known v env n (setType (.ident n v.name) v.ty) :=
      fun s _ => s.typed_setType (.ident n v.name) v.ty
    exact hgives.bind fun _ => KeepsType.bind (hcong.setReference _ _) fun _ => .pure _
  | @operand id operand field testOnly optional hfree ih =>
    rw [checkExpr]
    refine (parallel_lookupQualified fun _ _ => trivial).framed.bind fun s hs => ?_
    rw [lookupQualified_eq_none hs hfree]
    refine (ih env).bind fun _ => KeepsType.bind (hcong.selectField _ _ _ _ _) fun _ =>
      KeepsType.bind (hcong.resolve _) fun _ => KeepsType.bind (hcong.setType _ _) fun _ => ?_
    split
    · exact KeepsType.bind (hcong.setReference _ _) fun _ => .pure _
    · exact .pure _
  | @receiver id function receiver args hfunction hfree ih =>
    rw [checkExpr, if_neg hfunction]
    have hargs : ∀ a ∈ args, ∀ e f, Parallel .all e f (checkExpr e a) (checkExpr f a) :=
      fun a _ => parallel_checkExpr (Vocabulary.covers_all a)
    refine (parallel_checkAll hargs env env).framed.bind fun _ _ =>
      (framed_lookupNamespaced _ _ _).bind fun s hs => ?_
    rw [lookupNamespaced_eq_none hs hfree]
    refine (ih env).bind fun _ => KeepsType.bind (hcong.lookupFunction _ _) ?_
    rintro (_ | f)
    · exact hcong.undeclaredCall _ _ _
    · exact hcong.typeCall _ _ _ _ _
  | @arg id function target args a hfunction ha hfree ih =>
    rw [checkExpr, if_neg hfunction]
    refine (Gives.checkAll ha (ih env)).bind fun _ =>
      KeepsType.bind (hcong.lookupNamespaced _ _ _) ?_
    rintro (_ | f)
    · rcases target with _ | receiver
      · refine KeepsType.bind (hcong.lookupFunction _ _) ?_
        rintro (_ | f)
        · exact hcong.undeclaredCall _ _ _
        · exact hcong.typeCall _ _ _ _ _
      · refine KeepsType.bind (hcong.checkExpr _ _) fun _ =>
          KeepsType.bind (hcong.lookupFunction _ _) ?_
        rintro (_ | f)
        · exact hcong.undeclaredCall _ _ _
        · exact hcong.typeCall _ _ _ _ _
    · exact hcong.typeCall _ _ _ _ _
  | optionalOperand hfree ih =>
    rw [checkExpr, if_pos rfl, checkOptionalSelect]
    refine Gives.bind ?_ fun _ => KeepsType.bind (hcong.finishOptionalSelect _ _) fun _ => .pure _
    exact (ih env).bind fun _ => KeepsType.bind (hcong.selectField _ _ _ _ _) fun _ => .pure _
  | element ha hfree ih =>
    rw [checkExpr]
    refine (Gives.checkElements ha (ih env) _ _ _).bind ?_
    rintro ⟨elements, _ | t⟩
    · exact KeepsType.bind hcong.freshVar fun _ => KeepsType.bind (hcong.setType _ _)
        fun _ => .pure _
    · exact KeepsType.bind (.pure _) fun _ => KeepsType.bind (hcong.setType _ _) fun _ => .pure _
  | @entry id entries entry part hentry hpart hfree ih =>
    rw [checkExpr]
    have hgives : Gives c known v env n (checkExpr env entry.key) ∨
        Gives c known v env n (checkExpr env entry.value) := by
      rcases hpart with rfl | rfl
      · exact Or.inl (ih env)
      · exact Or.inr (ih env)
    refine (Gives.checkEntries hentry hgives none).bind ?_
    rintro ⟨entries, _ | types⟩
    · exact KeepsType.bind hcong.freshVar fun _ => KeepsType.bind hcong.freshVar fun _ =>
        KeepsType.bind (.pure _) fun _ => KeepsType.bind (hcong.setType _ _) fun _ => .pure _
    · exact KeepsType.bind (.pure _) fun _ => KeepsType.bind (hcong.setType _ _) fun _ => .pure _
  | @field id messageName fields f hknown hf hfree ih =>
    rw [checkExpr]
    refine (framed_lookupIdent _ _).bind fun s hs => ?_
    obtain ⟨w, hw⟩ := Option.isSome_iff_exists.mp (hs.known messageName hknown)
    have hfound : ((lookupIdent env messageName : Checking _).run s).1 = some w := hw
    rw [hfound]
    exact (blind_literalTarget _ _).framed.bind fun _ _ => (Gives.checkFields hf (ih env) _ _).bind
      fun _ => KeepsType.bind (hcong.setType _ _) fun _ => KeepsType.bind (hcong.setReference _ _)
      fun _ => .pure _
  | iterRange hfree ih =>
    rw [checkExpr_comprehension]
    exact (ih env).bind fun _ => KeepsType.bind (hcong.checkExpr _ _) fun _ =>
      keepsType_checkFold _ _ _ _ _ _ _ _ _ _ _ _
  | accuInit hfree ih =>
    rw [checkExpr_comprehension]
    exact (framed_checkExpr _ _).bind fun _ _ => (ih env).bind fun _ =>
      keepsType_checkFold _ _ _ _ _ _ _ _ _ _ _ _
  | @loop id iterRange iterVar iterVar2 accuVar accuInit condition step result body hvars hbody
      hfree
      ih =>
    obtain ⟨haccu, hvars⟩ := List.forall_mem_cons.mp hvars
    have hgives : ∀ inner, Gives c known v inner n (checkExpr inner condition) ∨
        Gives c known v inner n (checkExpr inner step) := by
      intro inner
      rcases hbody with rfl | rfl
      · exact Or.inl (ih inner)
      · exact Or.inr (ih inner)
    rw [checkExpr_comprehension]
    exact (framed_checkExpr _ _).bind fun _ _ => (framed_checkExpr _ _).bind fun _ _ =>
      .checkFold haccu (Or.inl ⟨hvars, hgives⟩)
  | result hne hcaptures hfree ih =>
    rw [checkExpr_comprehension]
    exact (framed_checkExpr _ _).bind fun _ _ => (framed_checkExpr _ _).bind fun _ _ =>
      .checkFold ⟨hne, hcaptures⟩ (Or.inr ih)

/-! ## Iteration variables -/

/-- The types of the variables that run over a range. -/
def loopTypes (range : Ty) (twoVars : Bool) : Ty × Ty :=
  match range.kind with
  | .list =>
    let element := range.params[0]?.getD .dyn
    if twoVars then (.int, element) else (element, .dyn)
  | .map => (range.params[0]?.getD .dyn, range.params[1]?.getD .dyn)
  | .dyn | .error | .typeParam => (.dyn, .dyn)
  | _ => (.error, .error)

theorem run_iterationTypes (id : NodeId) (range : Ty) (twoVars : Bool) (s : CheckState) :
    ((iterationTypes id range twoVars : Checking _).run s).1 = loopTypes range twoVars := by
  unfold iterationTypes loopTypes
  cases range.kind <;> rfl

/-- The type of the range of a comprehension, as the check finds it before the loop. -/
def loopRange (env : Env) (iterRange accuInit : Expr) (s : CheckState) : Ty :=
  let range := (checkExpr env iterRange : Checking Expr).run s
  let before := ((checkExpr env accuInit : Checking Expr).run range.2).2
  before.mapping.substitute false (before.typeOf range.1.id)

/-- Where the variables of an iteration are declared, the name of one of them means the last of this
name. -/
theorem binds_loop {env : Env} {store : Store} {known : String → Prop} {v : Variable}
    (hclear : env.Clear store v.name)
    (hknown : ∀ m, known m → (env.lookupIdent store m).1.isSome = true)
    {accu : Variable} {ws : List Variable} (hlast : Env.lastNamed? v.name ws = some v)
    (hvars : ∀ w ∈ accu :: ws, ¬ env.container.Captures v.name w.name) :
    Binds env.container known v
      ((env.enterScope store).1.enterScope (env.scopeWith store [accu])).1
      ((env.enterScope store).1.scopeWith (env.scopeWith store [accu]) ws) := by
  obtain ⟨haccu, hws⟩ := List.forall_mem_cons.mp hvars
  have houter : (env.enterScope store).1.Clear (env.scopeWith store [accu]) v.name :=
    hclear.scopeWith (List.forall_mem_singleton.mpr haccu)
  refine ⟨rfl, houter.scopeWith hws, ?_, fun m hm => ?_⟩
  · rw [Env.sees_scopeWith, hlast, Option.some_or]
  · exact Env.isSome_lookupIdent_scopeWith ws
      (Env.isSome_lookupIdent_scopeWith [accu] (hknown m hm))

/-- A comprehension declares the accumulator, and then checks its loop. -/
theorem run_checkFold (env : Env) (id : NodeId) (iterRange : Expr) (iterVar : String)
    (iterVar2 : Option String) (accuVar : String) (accuInit loopCondition loopStep result : Expr)
    (s : CheckState) : ∃ s' : CheckState,
      s'.store = env.scopeWith s.store [.ofType accuVar (s.typeOf accuInit.id)] ∧
      (checkFold env id iterRange iterVar iterVar2 accuVar accuInit loopCondition loopStep
        result).run s =
        (do
          let range := s.mapping.substitute false (s.typeOf iterRange.id)
          let types := loopTypes range iterVar2.isSome
          let loop ← checkLoop (env.enterScope s.store).1 iterVar iterVar2 types.1 types.2
            (s.typeOf accuInit.id) loopCondition loopStep
          let result ← checkExpr (env.enterScope s.store).1 result
          let resultType ← resolve (← typeOf result.id)
          let e := Expr.comprehension id iterRange iterVar iterVar2 accuVar accuInit loop.1 loop.2
            result
          setType e resultType
          return e : Checking Expr).run s' := by
  have hblind := blind_iterationTypes iterRange.id
    (s.mapping.substitute false (s.typeOf iterRange.id)) iterVar2.isSome
  refine ⟨_, hblind.store { s with
    store := env.scopeWith s.store [.ofType accuVar (s.typeOf accuInit.id)] }, ?_⟩
  dsimp only
  rw [← run_iterationTypes iterRange.id _ _
    { s with store := env.scopeWith s.store [.ofType accuVar (s.typeOf accuInit.id)] }]
  rfl

theorem typed_checkFold {env : Env} {s : CheckState} {known : String → Prop} {v : Variable}
    {n id : NodeId} {iterRange : Expr} {iterVar : String} {iterVar2 : Option String}
    {accuVar : String} {accuInit loopCondition loopStep result : Expr}
    (hclear : env.Clear s.store v.name)
    (hknown : ∀ m, known m → (env.lookupIdent s.store m).1.isSome = true)
    (hlast : Env.lastNamed? v.name (loopVars iterVar iterVar2
      (loopTypes (s.mapping.substitute false (s.typeOf iterRange.id)) iterVar2.isSome)) = some v)
    (hvars : ∀ b ∈ accuVar :: iterVar :: iterVar2.toList, ¬ env.container.Captures v.name b)
    {body : Expr} (hbody : body = loopCondition ∨ body = loopStep)
    (hfree : body.Free env.container known v.name n) :
    ((checkFold env id iterRange iterVar iterVar2 accuVar accuInit loopCondition loopStep
      result).run s).2.Typed n v.ty := by
  obtain ⟨s', hstore, hrun⟩ := run_checkFold env id iterRange iterVar iterVar2 accuVar accuInit
    loopCondition loopStep result s
  have hnames : ∀ w ∈ Variable.ofType accuVar (s.typeOf accuInit.id) :: loopVars iterVar iterVar2
      (loopTypes (s.mapping.substitute false (s.typeOf iterRange.id)) iterVar2.isSome),
      ¬ env.container.Captures v.name w.name := by
    intro w hw
    rcases List.mem_cons.mp hw with rfl | hw
    · exact hvars _ List.mem_cons_self
    · exact hvars _ (List.mem_cons_of_mem _ (mem_loopVars hw))
  have hbinds := binds_loop hclear hknown hlast hnames
  rw [← hstore] at hbinds
  have hloop : Gives env.container known v
      ((env.enterScope s.store).1.enterScope s'.store).1 n
      (checkBody (s.typeOf accuInit.id) loopCondition loopStep
        ((env.enterScope s.store).1.enterScope s'.store).1) := by
    refine .checkBody ?_
    rcases hbody with rfl | rfl
    · exact Or.inl (typed_checkExpr hfree _)
    · exact Or.inr (typed_checkExpr hfree _)
  rw [hrun]
  dsimp only
  rw [run_bind, run_checkLoop]
  exact keepsType_checkResult n v.ty _ _ _ _ (hloop _ hbinds)

end Checking

open Checking

/-- An environment of a first scope in the namespace `acme`. -/
def Env.ofAcme : Env := { Env.ofFirst with container := ⟨"acme", .empty⟩ }

/-- A scope that declares `acme.x`. -/
def acmeScope : Group := ⟨⟨[("acme.x", .ofType "acme.x" .int)]⟩, .empty⟩

/-- A fold over `["a"]` whose step is a list of `x` and of a fold over `[x]`, with other
variables. -/
def nestedFold : Expr :=
  .comprehension 1 (.list 2 [.const 3 (.string "a")] []) "x" none "acc" (.list 4 [] [])
    (.const 5 (.bool true))
    (.list 6 [.ident 7 "x",
      .comprehension 8 (.list 9 [.ident 10 "x"] []) "y" none "all" (.const 11 (.string ""))
        (.const 12 (.bool true)) (.ident 13 "x") (.ident 14 "all")] [])
    (.ident 15 "acc")

/-- Where nothing is declared, nothing is in the way of `x`. -/
theorem clear_ofAcme : Env.ofAcme.Clear ⟨#[.empty]⟩ "x" where
  valid := by decide
  simple := by decide
  noAlias := rfl
  qualified _ _ := rfl
  idents rest := by
    rw [Env.lookupIdent_fst]
    exact List.findSome?_eq_none_iff.mpr fun _ _ => rfl
  functions rest := List.findSome?_eq_none_iff.mpr fun _ _ => rfl

end CelTyping
