import CelTyping.Proofs.Check.ListLiterals
import CelTyping.Proofs.Check.Notes
import CelTyping.Proofs.Check.OverloadOrder
import CelTyping.Proofs.Unification.Symmetry

/-!
# Initializers of fields and arguments of calls

The value of an initializer has to suit the type of the field, and the argument of a call the formal
type.  One would expect that a value that can be given to a function of one argument can be given to
a field of the same type, and the other way round.

The two are asked in opposite directions: a literal unifies the type of the field with that of the
value, and a call the type of the argument with the formal type.  Unification asks the type on its
right whether it accepts the one on its left, so a custom rule of acceptance counts for a formal
type and not for a field (`custom_field_refused`).

* `errors_literal`: of an initializer a literal reports a mismatch if the type of the field cannot
  be used for that of the value, and nothing if it can.  Then come the errors of the initializers
  after it, and at last conflicts at the node of the literal.
* `errors_call`: a call reports that no overload matches if the type of the argument cannot be used
  for the formal type, and nothing if it can.  Then come conflicts at the node of the call.

A conflict says that the node has been given two types or two references, so it is neither a
mismatch nor a missing overload (`ConflictsAt`).  Both statements hold for types without type
parameters, whatever was bound before.  Without custom rules the two directions agree, since going
together is symmetric then (`Ty.WellFormed.goesWith_comm`).
-/

namespace CelTyping

open Checking

/-- What a literal under the name of a variable constructs: messages of a message type, or the
values that a well-known message type stands for. -/
def Variable.Constructs (u : Variable) (message : String) (target : Ty) : Prop :=
  u.ty.kind = .type ∧ u.ty.params[0]? = some target ∧
    if Ty.isWellKnown u.name then message = u.name ∧ target.kind ≠ .error
    else target.kind = .struct ∧ message = target.declaredName

theorem Variable.Constructs.kind_ne {u : Variable} {message : String} {target : Ty}
    (h : u.Constructs message target) : target.kind ≠ .error := by
  obtain ⟨-, -, hname⟩ := h
  split at hname
  · exact hname.2
  · rw [hname.1]
    decide

/-- Literals under a name construct something with a field of a type. -/
structure Env.Offers (env : Env) (store : Store) (name message : String) (target : Ty)
    (field : String) (F : Ty) : Prop where
  /-- The name means a type whose values literals construct. -/
  constructs : ∃ u, (env.lookupIdent store name).1 = some u ∧ u.Constructs message target
  /-- The message type is known. -/
  isSome_messageType? : (env.provider.messageType? message).isSome = true
  /-- It has the field. -/
  fieldType?_eq : env.provider.fieldType? message field = some F

/-- A function of one argument of a type: it has one overload, which is global and may be called,
and no part of the type has the name of a type parameter. -/
structure FunctionDecl.TakesOnly (f : FunctionDecl) (env : Env) (o : Overload) (F : Ty) :
    Prop where
  /-- There is one overload. -/
  overloads : f.overloads = [o]
  /-- It has one formal type. -/
  args : o.args = [F]
  /-- It is called without a receiver. -/
  isMember : o.isMember = false
  /-- It may be called. -/
  enabled : env.isOverloadDisabled o.id = false
  /-- The type parameters, which the result may have, are not names of parts of the formal type. -/
  keys : ∀ u ∈ F.nodes, u.key ∉ o.typeParams
  /-- It is none of the two functions of any number of truth values. -/
  name : f.name ≠ Standard.logicalAnd ∧ f.name ≠ Standard.logicalOr

/-- The errors are about one node, and say that it has been given two types or two references. -/
def ConflictsAt (id : NodeId) (errors : List CheckError) : Prop :=
  ∀ err ∈ errors, err.id = id ∧ err.fault.isConflict = true

/-- The state once the type of a field has been compared with that of an initializer. -/
def CheckState.compared (s : CheckState) (init : NodeId) (field : String) (F V : Ty) : CheckState :=
  if F.Assignable V then s else s.report init (.fieldTypeMismatch field F.display V.display)

theorem CheckState.errors_compared (s : CheckState) (init : NodeId) (field : String) (F V : Ty) :
    (s.compared init field F V).errors = s.errors ++
      if F.Assignable V then [] else [⟨init, .fieldTypeMismatch field F.display V.display⟩] := by
  unfold compared
  split
  · exact (List.append_nil _).symm
  · rfl

theorem CheckState.conflicts_setType (s : CheckState) (e : Expr) (t : Ty) :
    ∃ conflicts, (s.setType e t).errors = s.errors ++ conflicts ∧ ConflictsAt e.id conflicts :=
  ⟨_, s.errors_setType e t, fun _ herr => (mem_typeConflicts herr).2⟩

theorem CheckState.conflicts_record (s : CheckState) (e : Expr) (t : Ty) (r : Reference) :
    ∃ conflicts, ((s.setType e t).setReference e r).errors = s.errors ++ conflicts ∧
      ConflictsAt e.id conflicts := by
  refine ⟨_, by rw [errors_setReference, errors_setType, List.append_assoc], fun err herr => ?_⟩
  rcases List.mem_append.mp herr with herr | herr
  · exact (mem_typeConflicts herr).2
  · exact (mem_referenceConflicts herr).2

namespace Checking

variable {env : Env} {s t : CheckState} {F V : Ty}

/-- The check of a literal up to the value of an initializer: the name has been looked up, and the
initializers before it and the value have been checked. -/
def toInitializer (env : Env) (name message : String) (target : Ty) (before : List FieldInit)
    (v : Expr) : Checking Expr := do
  let _ ← lookupIdent env name
  let _ ← checkFields env message target before
  checkExpr env v

/-! ## Literals -/

theorem run_literalTarget {u : Variable} {message : String} {target : Ty}
    (h : u.Constructs message target) (id : NodeId) (s : CheckState) :
    (literalTarget id u : Checking _).run s = ((message, target), s) := by
  obtain ⟨hkind, hparams, hname⟩ := h
  unfold literalTarget
  rw [hkind, hparams]
  dsimp only
  split
  · next hknown =>
    rw [if_pos hknown] at hname
    rw [hname.1]
    rfl
  · next hknown =>
    rw [if_neg hknown] at hname
    rw [if_pos hname.1, hname.2]
    rfl

/-- **An initializer is decided by two types**: that of the field, on the left, and that of the
value. -/
theorem run_checkInit {f : FieldInit} {message : String} {target : Ty}
    (hoptional : f.optional = false) (htarget : target.kind ≠ .error)
    (hmessage : (env.provider.messageType? message).isSome = true)
    (hfield : env.provider.fieldType? message f.field = some F) (hF : F.Ground)
    (htype : s.typeOf f.value.id = V) (hV : V.Ground) :
    (checkInit env f message target : Checking Unit).run s =
      ((), s.compared f.id f.field F V) := by
  have hfound : (fieldType env f.id message f.field : Checking _).run s = (some F, s) := by
    unfold fieldType
    rw [if_neg (by rw [Option.isNone_iff_eq_none]; exact Option.isSome_iff_ne_none.mp hmessage),
      hfield]
    rfl
  have hgiven : (entryType f.value.id f.optional : Checking _).run s = (V, s) := by
    rw [hoptional, ← htype]
    rfl
  unfold checkInit
  rw [if_neg htarget, run_bind, hfound]
  show (do
    let given ← entryType f.value.id f.optional
    if !(← unify F given) then
      report f.id (.fieldTypeMismatch f.field F.display given.display) : Checking Unit).run s = _
  rw [run_bind, hgiven, run_bind, run_unify_ground hF hV]
  have hgoes := Ty.assignable_iff hF hV
  unfold CheckState.compared
  cases hfit : F.goesWith V with
  | true => rw [if_pos (hgoes.mpr hfit)]; rfl
  | false => rw [if_neg (hgoes.not.mpr (by simp [hfit]))]; rfl

theorem run_checkFields_append {message : String} {target : Ty} (before after : List FieldInit)
    (s : CheckState) : ((checkFields env message target (before ++ after) : Checking _).run s).2 =
      ((checkFields env message target after : Checking _).run
        ((checkFields env message target before : Checking _).run s).2).2 := by
  induction before generalizing s with
  | nil =>
    rw [List.nil_append, checkFields]
    rfl
  | cons f before ih =>
    obtain ⟨id, field, value, optional⟩ := f
    rw [List.cons_append, checkFields, checkFields, run_bind, run_bind, run_bind, run_bind,
      run_bind, run_bind]
    exact ih _

section Literal

variable {name message : String} {target : Ty} {u : Variable}

/-- The check of a literal goes through the value of an initializer, the comparison, the
initializers after it and the record of the literal. -/
theorem run_literal (hname : (env.lookupIdent s.store name).1 = some u)
    (hu : u.Constructs message target) (literal init : NodeId) (field : String) (v : Expr)
    (optional : Bool) (before after : List FieldInit) {r : Expr × CheckState}
    (hr : (toInitializer env name message target before v).run s = r) {c : CheckState}
    (hc : (checkInit env ⟨init, field, r.1, optional⟩ message target : Checking Unit).run r.2 =
      ((), c)) :
    ∃ e : Expr, e.id = literal ∧
      ((checkExpr env (.struct literal name (before ++ ⟨init, field, v, optional⟩ :: after)) :
        Checking Expr).run s).2 =
      ((((checkFields env message target after : Checking _).run c).2.setType e
        target).setReference e (.ofIdent u.name none)) := by
  have hlookup : (lookupIdent env name : Checking _).run s =
      (some u, { s with store := (env.lookupIdent s.store name).2 }) := by
    rw [← hname]
    rfl
  have hbefore : (checkExpr env v : Checking Expr).run ((checkFields env message target before :
      Checking _).run { s with store := (env.lookupIdent s.store name).2 }).2 = r := by
    rw [← hr]
    unfold toInitializer
    rw [run_bind, hlookup, run_bind]
  have hfields : ((checkFields env message target (before ++ ⟨init, field, v, optional⟩ :: after) :
      Checking _).run { s with store := (env.lookupIdent s.store name).2 }).2 =
      ((checkFields env message target after : Checking _).run c).2 := by
    rw [run_checkFields_append, checkFields, run_bind, hbefore, run_bind, hc]
    rfl
  rw [checkExpr, run_bind, hlookup]
  dsimp only
  rw [run_bind, run_literalTarget hu]
  dsimp only
  rw [run_bind, ← hfields]
  exact ⟨_, rfl, rfl⟩

/-- **What a literal reports about an initializer**: a mismatch, if the type of the field cannot be
used for that of the value, and nothing if it can.  What is reported after that are the errors of
the initializers after it, which are checked next, and conflicts at the node of the literal. -/
theorem errors_literal {field : String} {v : Expr} {before : List FieldInit}
    (h : env.Offers s.store name message target field F) (hF : F.Ground)
    {r : Expr × CheckState} (hr : (toInitializer env name message target before v).run s = r)
    (htype : r.2.typeOf r.1.id = V) (hV : V.Ground) (literal init : NodeId)
    (after : List FieldInit) : ∃ later conflicts,
      ((checkExpr env (.struct literal name (before ++ ⟨init, field, v, false⟩ :: after)) :
        Checking Expr).run s).2.errors = r.2.errors ++
          (if F.Assignable V then [] else [⟨init, .fieldTypeMismatch field F.display V.display⟩]) ++
          later ++ conflicts ∧
      ((checkFields env message target after : Checking _).run
        (r.2.compared init field F V)).2.errors = (r.2.compared init field F V).errors ++ later ∧
      ConflictsAt literal conflicts := by
  obtain ⟨u, hname, hu⟩ := h.constructs
  have hcompare := run_checkInit (f := ⟨init, field, r.1, false⟩) rfl hu.kind_ne
    h.isSome_messageType? h.fieldType?_eq hF htype hV
  obtain ⟨e, rfl, hrun⟩ := run_literal hname hu literal init field v false before after hr hcompare
  obtain ⟨later, hlater⟩ := errors_congruence.checkFields env message target after
    (r.2.compared init field F V)
  obtain ⟨conflicts, hconflicts, hat⟩ := CheckState.conflicts_record
    ((checkFields env message target after : Checking _).run (r.2.compared init field F V)).2 e
    target (.ofIdent u.name none)
  refine ⟨later, conflicts, ?_, hlater.symm, hat⟩
  rw [hrun, hconflicts, ← hlater, CheckState.errors_compared]

end Literal

/-! ## Calls -/

section Call

variable {function : String} {f : FunctionDecl} {o : Overload} {v : Expr}

theorem usable_of_takesOnly (h : f.TakesOnly env o F) : usable env f false = [o] := by
  unfold usable
  rw [h.overloads, List.filter_cons_of_pos, List.filter_nil]
  rw [h.enabled, h.isMember]
  rfl

/-- The only overload is found if the type of the argument goes together with the formal type.
Nothing is bound and nothing is reported yet. -/
theorem search_of_takesOnly (h : f.TakesOnly env o F) (hF : F.Ground) (hV : V.Ground)
    (s : CheckState) : (search env f false [V] s).1.isSome = V.goesWith F ∧
      (search env f false [V] s).2.errors = s.errors ∧
      (search env f false [V] s).2.mapping = s.mapping := by
  have hkeys : ∀ t ∈ o.args, ∀ u ∈ t.nodes, u.key ∉ o.typeParams := by
    rw [h.args, List.forall_mem_singleton]
    exact h.keys
  have hsearch : search env f false [V] s = (tryOverload [V] none o : Checking _).run s := by
    unfold search
    rw [usable_of_takesOnly h, List.foldlM_cons]
    rfl
  have hunify : s.mapping.unifyAll [V] (o.instantiate s.nextVar).1 =
      if V.goesWith F then some s.mapping else none := by
    rw [o.instantiate_args s.nextVar hkeys, h.args, Mapping.unifyAll_ground
      (List.forall_mem_singleton.mpr hV) (List.forall_mem_singleton.mpr hF)]
    simp [Ty.allGoWith]
  rw [hsearch]
  cases hgoes : V.goesWith F with
  | true =>
    rw [hgoes, if_pos rfl] at hunify
    obtain ⟨t, hrun⟩ := run_tryOverload_of_some none hunify
    rw [hrun]
    exact ⟨rfl, rfl, rfl⟩
  | false =>
    rw [hgoes, if_neg Bool.false_ne_true] at hunify
    rw [run_tryOverload_of_none none hunify]
    exact ⟨rfl, rfl, rfl⟩

theorem conflicts_finishCall (e : Expr) (found : Option (Ty × Reference)) (s : CheckState) :
    ∃ conflicts, ((finishCall e found : Checking Unit).run s).2.errors = s.errors ++ conflicts ∧
      ConflictsAt e.id conflicts := by
  cases found with
  | none => exact s.conflicts_setType e .error
  | some q => exact s.conflicts_record e q.1 q.2

/-- A call of one argument looks up the function once the argument is checked. -/
theorem run_call {r : Expr × CheckState} (hr : (checkExpr env v : Checking Expr).run t = r)
    (hvalid : env.Valid t.store) (hspecial : function ≠ Standard.optionalSelect)
    (hfunction : env.lookupFunction t.store function = some f) (call : NodeId) :
    (checkExpr env (.call call function none [v]) : Checking Expr).run t =
      (typeCall env (.call call f.name none [r.1]) f none [r.1.id] : Checking Expr).run r.2 := by
  have hargs : (checkAll env [v] : Checking _).run t = ([r.1], r.2) := by
    rw [checkAll, checkAll, run_bind, hr]
    rfl
  have hnamespace : (lookupNamespaced env none function : Checking _).run r.2 = (none, r.2) := rfl
  have hlookup : (lookupFunction env function : Checking _).run r.2 = (some f, r.2) := by
    have hkept := (maintained_checkExpr (.refl env) hvalid v).toUndisturbed.lookupFunction function
    rw [hr, hfunction] at hkept
    rw [← hkept]
    rfl
  rw [checkExpr, if_neg hspecial, run_bind, hargs]
  dsimp only
  rw [run_bind, hnamespace]
  dsimp only
  rw [run_bind, hlookup]
  rfl

/-- **What a call reports about its argument**: that no overload matches, if the type of the
argument cannot be used for the formal type, and nothing if it can.  What is reported after that are
conflicts at the node of the call. -/
theorem errors_call (hvalid : env.Valid t.store) (hspecial : function ≠ Standard.optionalSelect)
    (hfunction : env.lookupFunction t.store function = some f) (h : f.TakesOnly env o F)
    (hF : F.Ground) {r : Expr × CheckState} (hr : (checkExpr env v : Checking Expr).run t = r)
    (htype : r.2.typeOf r.1.id = V) (hV : V.Ground) (call : NodeId) : ∃ conflicts,
      ((checkExpr env (.call call function none [v]) : Checking Expr).run t).2.errors =
        r.2.errors ++
          (if V.Assignable F then [] else [⟨call, noMatch f false [V] r.2.mapping⟩]) ++
          conflicts ∧
      ConflictsAt call conflicts := by
  rw [run_call hr hvalid hspecial hfunction, typeCall, run_bind]
  obtain ⟨hfound, herrors, hmapping⟩ := search_of_takesOnly h hF hV r.2
  have htypes : ((none : Option NodeId).toList ++ [r.1.id]).map r.2.typeOf = [V] := by
    rw [← htype]
    rfl
  have hdecided : V.Assignable F ↔ (search env f false [V] r.2).1.isSome = true := by
    rw [Ty.assignable_iff hV hF, hfound]
  cases hsearch : (search env f false [V] r.2).1 with
  | some q =>
    rw [hsearch] at hdecided
    rw [run_resolveOverload_of_some env _ h.name htypes hsearch, if_pos (hdecided.mpr rfl),
      List.append_nil, ← herrors]
    exact conflicts_finishCall (.call call f.name none [r.1]) (some q)
      (search env f false [V] r.2).2
  | none =>
    rw [hsearch] at hdecided
    rw [run_resolveOverload_of_none env _ h.name htypes hsearch,
      if_neg fun hassignable => Bool.false_ne_true (hdecided.mp hassignable), ← herrors, ← hmapping]
    exact conflicts_finishCall (.call call f.name none [r.1]) none
      ((search env f false [V] r.2).2.report call
        (noMatch f false [V] (search env f false [V] r.2).2.mapping))

end Call

/-- The first initializer of a literal is checked as if it stood alone. -/
theorem typeOf_toInitializer_nil (hvalid : env.Valid s.store) {name message : String} {target : Ty}
    {v : Expr} {value arg : Expr × CheckState}
    (hvalue : (toInitializer env name message target [] v).run s = value)
    (harg : (checkExpr env v : Checking Expr).run s = arg) :
    value.2.typeOf value.1.id = arg.2.typeOf arg.1.id := by
  have hrun : (toInitializer env name message target [] v).run s =
      (checkExpr env v : Checking Expr).run
        { s with store := (env.lookupIdent s.store name).2 } := by
    unfold toInitializer
    rw [checkFields]
    rfl
  obtain ⟨store, hparallel, -, -⟩ := parallel_checkExpr (Vocabulary.covers_all v) env env s _
    (.of_undisturbed hvalid (Env.undisturbed_lookupIdent (.refl env) hvalid name))
  rw [← hvalue, ← harg, hrun, hparallel]
  rfl

end Checking

/-- An environment that knows boxes with one field. -/
def Env.ofBoxes (F : Ty) : Env :=
  { Env.ofFirst with
    provider := (Registry.empty.addMessage "acme.Box" [("content", F)]).toProvider }

/-- A function of one argument. -/
def fitsDecl (F result : Ty) : FunctionDecl :=
  { FunctionDecl.ofName "fits" with overloads := [.global "fits_content" [F] result] }

/-- A store in which the function is declared. -/
def fitsStore (F result : Ty) : Store := ⟨#[⟨.empty, ⟨[("fits", fitsDecl F result)]⟩⟩]⟩

/-- The literal `acme.Box{content: v}`. -/
def boxLiteral (v : Expr) : Expr := .struct 1 "acme.Box" [⟨2, "content", v, false⟩]

/-- What the check of an expression reports. -/
def reported (env : Env) (store : Store) (e : Expr) : List CheckError :=
  ((checkExpr env e : Checking Expr).run (.start store)).2.errors

/-- The type of lists of wrapped integers. -/
def wrappedInts : Ty := .list (.nullable .int)

/-- A list of one constant. -/
def constList (c : Constant) : Expr := .list 3 [.const 4 c] []

/-- A store with a function for lists of wrapped integers, the result of which has a type
parameter. -/
def wrappedStore : Store := fitsStore wrappedInts (.list (.param "T"))

/-- A type parameter of the result that is named like the formal type takes its place. -/
example : reported (.ofBoxes .int) (fitsStore .int (.param "int"))
    (.call 1 "fits" none [.const 3 (.string "a")]) = [] := by
  decide +kernel

end CelTyping
