import CelTyping.Proofs.Check.Parallel
import CelTyping.Proofs.Check.Reporting
import CelTyping.Proofs.Expr.Rewriting
import Mathlib.Data.List.Perm.Subperm

/-!
# What a check does to a tree

A check gives back the tree with its names written in full, and on the way it takes notes about the
nodes.  One walk over the tree shows both, since the notes are about the nodes of the tree that is
given back: a reference that was noted goes with what its node has become (`Expr.Accords`).

The notes of a list of trees are within these trees (`Note.Within`) when no node is given a type
more often than its id occurs, references go to nodes with types, and errors are found at places
that the trees have.  A step that only reports errors keeps to this, and a node whose parts were
checked adds its own notes (`Note.Settled`) to those of the parts.

* `checks`: what a check of a tree gives back and what it notes.
* `check_rewrites`: the tree is rewritten and not changed otherwise.
-/

namespace CelTyping

open scoped List

/-- What a reference has to do with the node it belongs to, after a check against an environment:
an identifier goes by the name of the reference, and a call, other than an optional selection, uses
overloads of a function that the environment knows, under the name of the function if there is no
receiver. -/
def Expr.Accords (store : Store) (env : Env) : Expr → Reference → Prop
  | .ident _ name, r => r.name = name
  | .call _ function target _, r => function = Standard.optionalSelect ∨
      ∃ f, env.Knows store f ∧ (target = none → f.name = function) ∧
        r.Selects (Checking.usable env f target.isSome)
  | _, _ => True

namespace Note

variable {A : Expr → Reference → Prop} {P : NodeId → Prop} {es es' : List Expr}
  {notes more : List Note}

/-! ## Notes about trees -/

/-- Notes about the nodes of trees and of what the trees are rewritten to. -/
structure Within (A : Expr → Reference → Prop) (P : NodeId → Prop) (es es' : List Expr)
    (notes : List Note) : Prop where
  /-- Types are given to nodes of the trees, no more often than there are nodes. -/
  typed : typed notes <+~ es.flatMap Expr.ids
  /-- References are given to nodes that are given types. -/
  referred : referred notes <+ Note.typed notes
  /-- Errors are found in the places of the trees. -/
  faults : ∀ id f, .fault id f ∈ notes → P id ∧ f.isConflict = false
  /-- A reference goes with a node of the rewritten trees. -/
  accords : ∀ n r, .reference n r ∈ notes →
    ∃ m ∈ es'.flatMap Expr.nodes, m.id = n.id ∧ A m r

/-- Notes that give a node its type, and it may be its reference. -/
structure Settled (A : Expr → Reference → Prop) (P : NodeId → Prop) (e : Expr)
    (notes : List Note) : Prop where
  /-- The node is given a type once. -/
  typed : typed notes = [e.id]
  /-- The node may be given a reference. -/
  referred : referred notes <+ [e.id]
  /-- Errors are found in some places. -/
  faults : ∀ id f, .fault id f ∈ notes → P id ∧ f.isConflict = false
  /-- The reference goes with the node. -/
  accords : ∀ n r, .reference n r ∈ notes → n.id = e.id ∧ A e r

theorem within_nil : Within A P [] [] [] :=
  ⟨.refl _, .refl _, by simp, by simp⟩

theorem not_reference_of_faults (h : ∀ n ∈ more, n.FaultIn P) (n : Expr) (r : Reference) :
    reference n r ∉ more :=
  fun hn => h _ hn

/-- Errors may be reported after other notes. -/
theorem Within.quiet (h : Within A P es es' notes) (hmore : ∀ n ∈ more, n.FaultIn P) :
    Within A P es es' (notes ++ more) where
  typed := by
    rw [typed_append, typed_of_faults hmore, List.append_nil]
    exact h.typed
  referred := by
    rw [typed_append, referred_append, typed_of_faults hmore, referred_of_faults hmore,
      List.append_nil, List.append_nil]
    exact h.referred
  faults id f hf := (List.mem_append.mp hf).elim (h.faults id f) fun hf => hmore _ hf
  accords n r hr := h.accords n r
    ((List.mem_append.mp hr).resolve_right (not_reference_of_faults hmore n r))

/-- **The notes of a node** are those of its parts and its own. -/
theorem Within.node {e e' : Expr} {ps ps' : List Expr}
    (h : Within A P (es ++ ps) (es' ++ ps') notes) (hown : Settled A P e' more)
    (hid : e'.id = e.id) (hps : ps <+~ e.parts) (hps' : ps' ⊆ e'.parts) :
    Within A P (es ++ [e]) (es' ++ [e']) (notes ++ more) where
  typed := by
    have hparts : ps.flatMap Expr.ids <+~ e.parts.flatMap Expr.ids := by
      obtain ⟨qs, hperm, hsub⟩ := hps
      exact ⟨qs.flatMap Expr.ids, hperm.flatMap_right _, hsub.flatMap _⟩
    have hnode : ps.flatMap Expr.ids ++ [e.id] <+~ e.ids := by
      rw [Expr.ids_eq, (List.perm_append_singleton _ _).subperm_right]
      exact (List.subperm_cons _).mpr hparts
    rw [typed_append, hown.typed, hid, List.flatMap_append, List.flatMap_singleton]
    refine (h.typed.append (.refl [e.id])).trans ?_
    rw [List.flatMap_append, List.append_assoc]
    exact (List.subperm_append_left _).mpr hnode
  referred := by
    rw [typed_append, referred_append, hown.typed]
    exact h.referred.append hown.referred
  faults id f hf := (List.mem_append.mp hf).elim (h.faults id f) (hown.faults id f)
  accords n r hr := by
    rw [List.flatMap_append, List.flatMap_singleton]
    rcases List.mem_append.mp hr with hr | hr
    · obtain ⟨m, hm, hmn⟩ := h.accords n r hr
      rw [List.flatMap_append, List.mem_append] at hm
      refine ⟨m, List.mem_append.mpr (hm.imp_right fun hm => ?_), hmn⟩
      obtain ⟨p, hp, hm⟩ := List.mem_flatMap.mp hm
      exact Expr.mem_nodes_of_mem_parts (hps' hp) hm
    · obtain ⟨hn, hA⟩ := hown.accords n r hr
      exact ⟨e', List.mem_append_right _ e'.mem_nodes_self, hn.symm, hA⟩

/-! ## The notes of one node -/

variable {e : Expr}

theorem settled_type {n : Expr} (hn : n.id = e.id) (t : Ty) : Settled A P e [.type n t] :=
  ⟨congrArg (fun id => [id]) hn, List.nil_sublist _, by simp, by simp⟩

theorem settled_reference {n : Expr} (hn : n.id = e.id) (t : Ty) {r : Reference} (hr : A e r) :
    Settled A P e ([.type n t] ++ [.reference n r]) := by
  refine ⟨congrArg (fun id => [id]) hn, ?_, by simp, fun m r' h => ?_⟩
  · show [n.id] <+ [e.id]
    rw [hn]
  · obtain ⟨rfl, rfl⟩ : m = n ∧ r' = r := by simpa using h
    exact ⟨hn, hr⟩

/-- Errors may be reported after the notes of a node. -/
theorem Settled.quiet (h : Settled A P e notes) (hmore : ∀ n ∈ more, n.FaultIn P) :
    Settled A P e (notes ++ more) where
  typed := by rw [typed_append, typed_of_faults hmore, List.append_nil, h.typed]
  referred := by
    rw [referred_append, referred_of_faults hmore, List.append_nil]
    exact h.referred
  faults id f hf := (List.mem_append.mp hf).elim (h.faults id f) fun hf => hmore _ hf
  accords n r hr := h.accords n r
    ((List.mem_append.mp hr).resolve_right (not_reference_of_faults hmore n r))

end Note

namespace Checking

open Note

variable {α : Type} {A : Expr → Reference → Prop} {P : NodeId → Prop} {es es' : List Expr}
  {notes : List Note} {declared : Store} {root env : Env}

/-! ## Steps and notes about trees -/

/-- A step that only reports errors keeps notes within trees. -/
theorem Reports.within {x : Checking α} {Q : α → Prop} (h : Reports declared P x Q)
    (hw : Within A P es es' notes) :
    Writes declared notes x fun a notes => Q a ∧ Within A P es es' notes :=
  h.after fun _ _ h => ⟨h.2, hw.quiet h.1⟩

theorem Quiet.within {x : Checking α} (h : Quiet declared P x) (hw : Within A P es es' notes) :
    Writes declared notes x fun _ notes => Within A P es es' notes :=
  (Reports.within h hw).mono fun _ _ h => h.2

theorem Reports.settled {x : Checking α} {Q : α → Prop} {e : Expr} (h : Reports declared P x Q)
    (hs : Settled A P e notes) : Writes declared notes x fun _ notes => Settled A P e notes :=
  h.after fun _ _ h => hs.quiet h.1

/-- The last steps at a node: they give it its type, it may be its reference, and give back what it
is rewritten to. -/
def Settles (declared : Store) (A : Expr → Reference → Prop) (P : NodeId → Prop)
    (x : Checking Expr) (e : Expr) : Prop :=
  Writes declared [] x fun e' notes => e' = e ∧ Settled A P e notes

/-- With the last steps at a node its notes are complete. -/
theorem Settles.close {x : Checking Expr} {e e' : Expr} (h : Settles declared A P x e')
    {ps ps' : List Expr} (hw : Within A P (es ++ ps) (es' ++ ps') notes) (hr : e.Rewrites e')
    (hps : ps <+~ e.parts) (hps' : ps' ⊆ e'.parts) :
    Writes declared notes x fun e' notes =>
      e.Rewrites e' ∧ Within A P (es ++ [e]) (es' ++ [e']) notes := by
  refine h.after ?_
  rintro _ own ⟨rfl, hown⟩
  exact ⟨hr, hw.node hown hr.id_eq hps hps'⟩

/-- A node without parts. -/
theorem Settles.leaf {x : Checking Expr} {e e' : Expr} (h : Settles declared A P x e')
    (hw : Within A P es es' notes) (hr : e.Rewrites e') :
    Writes declared notes x fun e' notes =>
      e.Rewrites e' ∧ Within A P (es ++ [e]) (es' ++ [e']) notes := by
  have hnone : Within A P (es ++ []) (es' ++ []) notes := by simpa using hw
  exact h.close hnone hr List.nil_subperm (List.nil_subset _)

theorem settles_type (e : Expr) (t : Ty) :
    Settles declared A P (do setType e t; return e) e := by
  refine (writes_setType _ e t).bind ?_
  rintro _ _ rfl
  exact .pure ⟨rfl, settled_type rfl t⟩

theorem settles_reference {e : Expr} (t : Ty) {r : Reference} (hr : A e r) :
    Settles declared A P (do setType e t; setReference e r; return e) e := by
  refine (writes_setType _ e t).bind ?_
  rintro _ _ rfl
  refine (writes_setReference _ e r).bind ?_
  rintro _ _ rfl
  exact .pure ⟨rfl, settled_reference rfl t hr⟩

/-- Only an optional selection has a reference. -/
theorem settles_select {e : Expr} (t : Ty) (optional : Bool) {r : Reference} (hr : A e r) :
    Settles declared A P
      (do
        setType e t
        if optional then setReference e r
        return e) e := by
  refine (writes_setType _ e t).bind ?_
  rintro _ _ rfl
  split
  · refine (writes_setReference _ e r).bind ?_
    rintro _ _ rfl
    exact .pure ⟨rfl, settled_reference rfl t hr⟩
  · exact .pure ⟨rfl, settled_type rfl t⟩

theorem settles_undeclared (env : Env) {e : Expr} {id : NodeId} (hid : P id) (name : String) :
    Settles declared A P (do setType e .error; reportUndeclared env id name; return e) e := by
  refine (writes_setType _ e .error).bind ?_
  rintro _ _ rfl
  exact (Reports.settled (quiet_reportUndeclared env hid name) (settled_type rfl .error)).bind
    fun _ _ h => .pure ⟨rfl, h⟩

theorem settles_resolveIdent (e : Expr) (v : Variable) :
    Settles declared (Expr.Accords declared root) P (resolveIdent e v) (.ident e.id v.name) := by
  refine (writes_setType _ e v.ty).bind ?_
  rintro _ _ rfl
  refine (writes_setReference _ e _).bind ?_
  rintro _ _ rfl
  exact .pure ⟨rfl, settled_reference (e := .ident e.id v.name) (n := e) rfl v.ty rfl⟩

theorem settles_finishCall {e : Expr} {found : Option (Ty × Reference)}
    (hfound : ∀ p ∈ found, A e p.2) :
    Settles declared A P (do finishCall e found; return e) e := by
  rcases found with _ | ⟨t, r⟩
  · exact settles_type e .error
  · rw [finishCall, bind_assoc]
    exact settles_reference t (hfound _ rfl)

/-- A call of a function, once its receiver and its arguments have been checked. -/
theorem writes_typeCall (henv : Env.Nested declared root env) {e : Expr} {id : NodeId}
    {function : String} (target : Option Expr) {args ps ps' : List Expr}
    (hw : Within (Expr.Accords declared root) P (es ++ ps) (es' ++ ps') notes)
    (hr : e.Rewrites (.call id function target args)) (hps : ps <+~ e.parts)
    (hps' : ps' ⊆ target.toList ++ args) (hid : P id) (hbelow : ∀ a ∈ target.toList ++ args, P a.id)
    {f : FunctionDecl} (hf : root.Knows declared f) (hname : target = none → f.name = function) :
    Writes declared notes
      (typeCall env (.call id function target args) f (target.map Expr.id) (args.map Expr.id))
      fun e' notes => e.Rewrites e' ∧
        Within (Expr.Accords declared root) P (es ++ [e]) (es' ++ [e']) notes := by
  have hargs : ∀ i ∈ (target.map Expr.id).toList ++ args.map Expr.id, P i := by
    intro i hi
    rw [List.mem_append, Option.mem_toList, Option.map_eq_some_iff, List.mem_map] at hi
    rcases hi with ⟨a, ha, rfl⟩ | ⟨a, ha, rfl⟩
    · exact hbelow a (List.mem_append_left _ (Option.mem_toList.mpr ha))
    · exact hbelow a (List.mem_append_right _ ha)
  refine ((reports_resolveOverload env (P := P) hid f hargs).within hw).bind ?_
  rintro found notes ⟨hfound, hw⟩
  refine (settles_finishCall fun p hp => Or.inr ⟨f, hf, hname, ?_⟩).close hw hr hps hps'
  rw [← henv.usable, ← Option.isSome_map]
  exact hfound p hp

/-- An optional selection, once its arguments have been checked. -/
theorem writes_finishOptionalSelect {e : Expr} {id : NodeId} {target : Option Expr}
    {args ps ps' : List Expr}
    (hw : Within (Expr.Accords declared root) P (es ++ ps) (es' ++ ps') notes)
    (hr : e.Rewrites (.call id Standard.optionalSelect target args)) (hps : ps <+~ e.parts)
    (hps' : ps' ⊆ target.toList ++ args) {result : Except CheckError Ty}
    (hresult : ∀ err, result = .error err → P err.id ∧ err.fault.isConflict = false) :
    Writes declared notes
      (do
        finishOptionalSelect (.call id Standard.optionalSelect target args) result
        return .call id Standard.optionalSelect target args)
      fun e' notes => e.Rewrites e' ∧
        Within (Expr.Accords declared root) P (es ++ [e]) (es' ++ [e']) notes := by
  rcases result with err | t
  · obtain ⟨hid, hfault⟩ := hresult err rfl
    rw [finishOptionalSelect, bind_assoc]
    exact ((quiet_report hid hfault).within hw).bind fun _ _ hw =>
      (settles_type _ _).close hw hr hps hps'
  · rw [finishOptionalSelect, bind_assoc]
    refine ((quiet_resolve t).within hw).bind fun t _ hw => ?_
    rw [bind_assoc]
    exact (settles_reference t (Or.inl rfl)).close hw hr hps hps'

/-! ## The walk -/

/-- Checking a tree rewrites it, and adds notes within it to those that were taken before. -/
def Checks (declared : Store) (root : Env) (e : Expr) : Prop :=
  ∀ (env : Env) (P : NodeId → Prop) (es es' : List Expr) (notes : List Note),
    Env.Nested declared root env → (∀ id, e.Place id → P id) →
    Within (Expr.Accords declared root) P es es' notes →
    Writes declared notes (checkExpr env e) fun e' notes => e.Rewrites e' ∧
      Within (Expr.Accords declared root) P (es ++ [e]) (es' ++ [e']) notes

section Lists

variable (henv : Env.Nested declared root env)

include henv

theorem writes_checkAll : ∀ {args : List Expr}, (∀ a ∈ args, Checks declared root a) →
    (∀ a ∈ args, ∀ id, a.Place id → P id) → ∀ {es es' : List Expr} {notes : List Note},
    Within (Expr.Accords declared root) P es es' notes →
    Writes declared notes (checkAll env args) fun args' notes =>
      List.Forall₂ Expr.Rewrites args args' ∧
        Within (Expr.Accords declared root) P (es ++ args) (es' ++ args') notes
  | [], _, _, es, es', notes, hw => by
    rw [checkAll]
    exact .pure ⟨.nil, by simpa using hw⟩
  | a :: rest, hargs, hP, es, es', notes, hw => by
    obtain ⟨ha, hrest⟩ := List.forall_mem_cons.mp hargs
    obtain ⟨hPa, hPrest⟩ := List.forall_mem_cons.mp hP
    rw [checkAll]
    refine (ha env P es es' notes henv hPa hw).bind ?_
    rintro a' notes ⟨hra, hw⟩
    refine (writes_checkAll hrest hPrest hw).bind ?_
    rintro rest' notes ⟨hrrest, hw⟩
    exact .pure ⟨.cons hra hrrest, by simpa using hw⟩

theorem writes_checkElements {optionalIndices : List UInt64} : ∀ {args : List Expr},
    (∀ a ∈ args, Checks declared root a) → (∀ a ∈ args, ∀ id, a.Place id → P id) →
    ∀ (index : Nat) (element : Option Ty) {es es' : List Expr} {notes : List Note},
    Within (Expr.Accords declared root) P es es' notes →
    Writes declared notes (checkElements env optionalIndices index element args) fun r notes =>
      List.Forall₂ Expr.Rewrites args r.1 ∧
        Within (Expr.Accords declared root) P (es ++ args) (es' ++ r.1) notes
  | [], _, _, index, element, es, es', notes, hw => by
    rw [checkElements]
    exact .pure ⟨.nil, by simpa using hw⟩
  | a :: rest, hargs, hP, index, element, es, es', notes, hw => by
    obtain ⟨ha, hrest⟩ := List.forall_mem_cons.mp hargs
    obtain ⟨hPa, hPrest⟩ := List.forall_mem_cons.mp hP
    rw [checkElements]
    refine (ha env P es es' notes henv hPa hw).bind ?_
    rintro a' notes ⟨hra, hw⟩
    have hid : P a'.id := hra.id_eq ▸ hPa _ a.place_self
    refine ((quiet_entryType hid _).within hw).bind fun t notes hw =>
      ((quiet_joinTypes hid env element t).within hw).bind fun u notes hw =>
      (writes_checkElements hrest hPrest _ _ hw).bind ?_
    rintro r notes ⟨hrrest, hw⟩
    exact .pure ⟨.cons hra hrrest, by simpa using hw⟩

theorem writes_checkEntries : ∀ {entries : List MapEntry},
    (∀ e ∈ entries, Checks declared root e.key ∧ Checks declared root e.value) →
    (∀ e ∈ entries, ∀ id, e.key.Place id ∨ e.value.Place id → P id) →
    ∀ (types : Option (Ty × Ty)) {es es' : List Expr} {notes : List Note},
    Within (Expr.Accords declared root) P es es' notes →
    Writes declared notes (checkEntries env types entries) fun r notes =>
      List.Forall₂ (MapEntry.Rewrites Expr.Rewrites) entries r.1 ∧
        Within (Expr.Accords declared root) P (es ++ entries.flatMap fun e => [e.key, e.value])
          (es' ++ r.1.flatMap fun e => [e.key, e.value]) notes
  | [], _, _, types, es, es', notes, hw => by
    rw [checkEntries]
    exact .pure ⟨.nil, by simpa using hw⟩
  | ⟨id, key, value, optional⟩ :: rest, hentries, hP, types, es, es', notes, hw => by
    obtain ⟨⟨hkey, hvalue⟩, hrest⟩ := List.forall_mem_cons.mp hentries
    obtain ⟨hPentry, hPrest⟩ := List.forall_mem_cons.mp hP
    rw [checkEntries]
    refine (hkey env P es es' notes henv (fun id h => hPentry id (Or.inl h)) hw).bind ?_
    rintro key' notes ⟨hrkey, hw⟩
    have hkeyId : P key'.id := hrkey.id_eq ▸ hPentry _ (Or.inl key.place_self)
    refine ((quiet_typeOf _).within hw).bind fun t notes hw =>
      ((quiet_joinTypes hkeyId env _ t).within hw).bind fun keyType notes hw =>
      (hvalue env P _ _ notes henv (fun id h => hPentry id (Or.inr h)) hw).bind ?_
    rintro value' notes ⟨hrvalue, hw⟩
    have hvalueId : P value'.id := hrvalue.id_eq ▸ hPentry _ (Or.inr value.place_self)
    refine ((quiet_entryType hvalueId _).within hw).bind fun t notes hw =>
      ((quiet_joinTypes hvalueId env _ t).within hw).bind fun valueType notes hw =>
      (writes_checkEntries hrest hPrest _ hw).bind ?_
    rintro r notes ⟨hrrest, hw⟩
    exact .pure ⟨.cons (.mk id optional hrkey hrvalue) hrrest, by simpa using hw⟩

theorem writes_checkFields {message : String} {target : Ty} : ∀ {fields : List FieldInit},
    (∀ f ∈ fields, Checks declared root f.value) →
    (∀ f ∈ fields, P f.id ∧ ∀ id, f.value.Place id → P id) →
    ∀ {es es' : List Expr} {notes : List Note},
    Within (Expr.Accords declared root) P es es' notes →
    Writes declared notes (checkFields env message target fields) fun fields' notes =>
      List.Forall₂ (FieldInit.Rewrites Expr.Rewrites) fields fields' ∧
        Within (Expr.Accords declared root) P (es ++ fields.map FieldInit.value)
          (es' ++ fields'.map FieldInit.value) notes
  | [], _, _, es, es', notes, hw => by
    rw [checkFields]
    exact .pure ⟨.nil, by simpa using hw⟩
  | ⟨id, field, value, optional⟩ :: rest, hfields, hP, es, es', notes, hw => by
    obtain ⟨hvalue, hrest⟩ := List.forall_mem_cons.mp hfields
    obtain ⟨⟨hid, hPvalue⟩, hPrest⟩ := List.forall_mem_cons.mp hP
    rw [checkFields]
    refine (hvalue env P es es' notes henv hPvalue hw).bind ?_
    rintro value' notes ⟨hrvalue, hw⟩
    have hvalueId : P value'.id := hrvalue.id_eq ▸ hPvalue _ value.place_self
    refine ((quiet_checkInit env (f := ⟨id, field, value', optional⟩) hid hvalueId _ _).within
      hw).bind fun _ notes hw => (writes_checkFields hrest hPrest hw).bind ?_
    rintro rest' notes ⟨hrrest, hw⟩
    exact .pure ⟨.cons (.mk id field optional hrvalue) hrrest, by simpa using hw⟩

/-- Of the arguments of an optional selection the operand is checked, and none if the selection is
not of the right form. -/
theorem writes_checkOptionalSelect {id : NodeId} (hid : P id) {args : List Expr}
    (hargs : ∀ a ∈ args, Checks declared root a) (hP : ∀ a ∈ args, ∀ id, a.Place id → P id)
    (hw : Within (Expr.Accords declared root) P es es' notes) :
    Writes declared notes (checkOptionalSelect env id args) fun r notes =>
      List.Forall₂ Expr.Rewrites args r.1 ∧
      (∀ err, r.2 = .error err → P err.id ∧ err.fault.isConflict = false) ∧
      ∃ ps ps', ps <+ args ∧ ps' ⊆ r.1 ∧
        Within (Expr.Accords declared root) P (es ++ ps) (es' ++ ps') notes := by
  have hnone : Within (Expr.Accords declared root) P (es ++ []) (es' ++ []) notes := by
    simpa using hw
  unfold checkOptionalSelect
  split
  · next operand fieldId field =>
    refine (hargs operand List.mem_cons_self env P es es' notes henv
      (hP operand List.mem_cons_self) hw).bind ?_
    rintro operand' notes ⟨hr, hw⟩
    refine ((quiet_selectField hid env _ field true).within hw).bind fun t notes hw => .pure
      ⟨.cons hr (.cons (.refl _) .nil), by simp, [operand], [operand'], by simp, by simp, hw⟩
  · next operand field _ =>
    refine .pure ⟨Expr.Rewrites.refl_all _, fun err herr => ?_, [], [], by simp, by simp, hnone⟩
    obtain rfl := Except.error.inj herr
    exact ⟨hP field (by simp) _ field.place_self, rfl⟩
  · refine .pure ⟨Expr.Rewrites.refl_all _, fun err herr => ?_, [], [], by simp, by simp, hnone⟩
    obtain rfl := Except.error.inj herr
    exact ⟨hid, rfl⟩

/-- The condition and the step of a loop, in the scope of the variables of the iteration. -/
theorem writes_checkLoop {condition step : Expr} (hcondition : Checks declared root condition)
    (hstep : Checks declared root step) (hPcondition : ∀ id, condition.Place id → P id)
    (hPstep : ∀ id, step.Place id → P id) (iterVar : String) (iterVar2 : Option String)
    (first second accuType : Ty) (hw : Within (Expr.Accords declared root) P es es' notes) :
    Writes declared notes (checkLoop env iterVar iterVar2 first second accuType condition step)
      fun r notes => condition.Rewrites r.1 ∧ step.Rewrites r.2 ∧
        Within (Expr.Accords declared root) P (es ++ [condition, step]) (es' ++ [r.1, r.2])
          notes := by
  refine ((reports_enterScope henv).within hw).bind ?_
  rintro inner notes ⟨hinner, hw⟩
  refine ((quiet_declareLocal inner iterVar first).within hw).bind fun _ notes hw => ?_
  have hrest : ∀ notes, Within (Expr.Accords declared root) P es es' notes →
      Writes declared notes
        (do
          let condition ← checkExpr inner condition
          requireType condition.id .bool
          let step ← checkExpr inner step
          requireType step.id accuType
          return (condition, step))
        fun r notes => condition.Rewrites r.1 ∧ step.Rewrites r.2 ∧
          Within (Expr.Accords declared root) P (es ++ [condition, step]) (es' ++ [r.1, r.2])
            notes := by
    intro notes hw
    refine (hcondition inner P es es' notes hinner hPcondition hw).bind ?_
    rintro condition' notes ⟨hrcondition, hw⟩
    have hconditionId : P condition'.id :=
      hrcondition.id_eq ▸ hPcondition _ condition.place_self
    refine ((quiet_requireType hconditionId .bool).within hw).bind fun _ notes hw =>
      (hstep inner P _ _ notes hinner hPstep hw).bind ?_
    rintro step' notes ⟨hrstep, hw⟩
    have hstepId : P step'.id := hrstep.id_eq ▸ hPstep _ step.place_self
    exact ((quiet_requireType hstepId accuType).within hw).bind fun _ notes hw =>
      .pure ⟨hrcondition, hrstep, by simpa using hw⟩
  rcases iterVar2 with _ | iterVar2
  · exact hrest notes hw
  · exact ((quiet_declareLocal inner iterVar2 second).within hw).bind fun _ notes hw =>
      hrest notes hw

end Lists

/-! ## Nodes -/

theorem place_of_forall₂ {args args' : List Expr} (h : List.Forall₂ Expr.Rewrites args args')
    (hP : ∀ a ∈ args, ∀ id, a.Place id → P id) : ∀ a ∈ args', P a.id := by
  induction h with
  | nil => simp
  | @cons a a' _ _ ha _ ih =>
    obtain ⟨hPa, hPrest⟩ := List.forall_mem_cons.mp hP
    exact List.forall_mem_cons.mpr ⟨ha.id_eq ▸ hPa _ a.place_self, ih hPrest⟩

theorem checks_unset (id : NodeId) : Checks declared root (.unset id) := by
  intro env P es es' notes henv hP hw
  rw [checkExpr]
  exact ((quiet_report (hP _ (Expr.place_self _)) rfl).within hw).bind fun _ notes hw =>
    (settles_type _ _).leaf hw (.refl _)

theorem checks_const (id : NodeId) (value : Constant) :
    Checks declared root (.const id value) := by
  intro env P es es' notes henv hP hw
  rw [checkExpr]
  exact (settles_type _ _).leaf hw (.refl _)

theorem checks_ident (id : NodeId) (name : String) : Checks declared root (.ident id name) := by
  intro env P es es' notes henv hP hw
  rw [checkExpr]
  refine ((quiet_lookupIdent env name).within hw).bind ?_
  rintro (_ | v) notes hw
  · exact (settles_undeclared env (hP _ (Expr.place_self _)) name).leaf hw (.refl _)
  · exact (settles_resolveIdent _ v).leaf hw (.ident id name v.name)

theorem checks_select (id : NodeId) {operand : Expr} (field : String) (testOnly optional : Bool)
    (hoperand : Checks declared root operand) :
    Checks declared root (.select id operand field testOnly optional) := by
  intro env P es es' notes henv hP hw
  have hid : P id := hP _ (Expr.place_self _)
  have hPoperand : ∀ id, operand.Place id → P id := fun id h =>
    hP id (h.of_mem_parts (List.mem_singleton_self operand))
  rw [checkExpr]
  refine ((reports_lookupQualified env _).within hw).bind ?_
  rintro (_ | v) notes ⟨hv, hw⟩
  · refine (hoperand env P es es' notes henv hPoperand hw).bind ?_
    rintro operand' notes ⟨hr, hw⟩
    refine ((quiet_selectField hid env _ field optional).within hw).bind fun t notes hw =>
      ((quiet_resolve _).within hw).bind fun t notes hw => ?_
    exact (settles_select t optional trivial).close hw (.select id field testOnly optional hr)
      (.refl _) (List.Subset.refl _)
  · exact (settles_resolveIdent _ v).leaf hw (.qualified v.name (hv v rfl))

/-- An optional selection. -/
theorem checks_optionalSelect (id : NodeId) (target : Option Expr) {args : List Expr}
    (hargs : ∀ a ∈ args, Checks declared root a) :
    Checks declared root (.call id Standard.optionalSelect target args) := by
  intro env P es es' notes henv hP hw
  have hPargs : ∀ a ∈ args, ∀ id, a.Place id → P id := fun a ha id h =>
    hP id (h.of_mem_parts (List.mem_append_right _ ha))
  rw [checkExpr, if_pos rfl]
  refine (writes_checkOptionalSelect henv (hP _ (Expr.place_self _)) hargs hPargs hw).bind ?_
  rintro ⟨args', result⟩ notes ⟨hr, hresult, ps, ps', hps, hps', hw⟩
  exact writes_finishOptionalSelect hw (.optionalSelect id target hr)
    (hps.trans (List.sublist_append_right _ _)).subperm
    (fun p hp => List.mem_append_right _ (hps' hp)) hresult

/-- Any other call. -/
theorem checks_call (id : NodeId) {function : String}
    (hfunction : function ≠ Standard.optionalSelect) {target : Option Expr} {args : List Expr}
    (htarget : ∀ r ∈ target, Checks declared root r)
    (hargs : ∀ a ∈ args, Checks declared root a) :
    Checks declared root (.call id function target args) := by
  intro env P es es' notes henv hP hw
  have hid : P id := hP _ (Expr.place_self _)
  have hPargs : ∀ a ∈ args, ∀ id, a.Place id → P id := fun a ha id h =>
    hP id (h.of_mem_parts (List.mem_append_right _ ha))
  rw [checkExpr, if_neg hfunction]
  refine (writes_checkAll henv hargs hPargs hw).bind ?_
  rintro args' notes ⟨hr, hw⟩
  have hPargs' : ∀ a ∈ args', P a.id := place_of_forall₂ hr hPargs
  refine ((reports_lookupNamespaced henv target function).within hw).bind ?_
  rintro (_ | f) notes ⟨hf, hw⟩
  · rcases target with _ | receiver
    · refine ((reports_lookupFunction henv function).within hw).bind ?_
      rintro (_ | f) notes ⟨hf, hw⟩
      · exact (settles_undeclared env hid function).close hw
          (.global id function hfunction (by simp) hr) (.refl _) (List.Subset.refl _)
      · exact writes_typeCall henv none hw (.global id f.name hfunction (by simp) hr)
          (.refl _) (List.Subset.refl _) hid hPargs' (hf f rfl) fun _ => rfl
    · have hPreceiver : ∀ id, receiver.Place id → P id := fun id h =>
        hP id (h.of_mem_parts List.mem_cons_self)
      refine (htarget receiver rfl env P _ _ notes henv hPreceiver hw).bind ?_
      rintro receiver' notes ⟨hrreceiver, hw⟩
      -- the receiver is checked after the arguments, and stands before them
      rw [List.append_assoc, List.append_assoc] at hw
      have hps : args ++ [receiver] <+~ receiver :: args :=
        (List.perm_append_singleton _ _).subperm
      have hps' : args' ++ [receiver'] ⊆ receiver' :: args' :=
        (List.perm_append_singleton _ _).subset
      refine ((reports_lookupFunction henv function).within hw).bind ?_
      rintro (_ | f) notes ⟨hf, hw⟩
      · exact (settles_undeclared env hid function).close hw (.member id hfunction hrreceiver hr)
          hps hps'
      · refine writes_typeCall henv (some receiver') hw
          (.member id hfunction hrreceiver hr) hps hps' hid ?_ (hf f rfl) (by simp)
        exact List.forall_mem_cons.mpr
          ⟨hrreceiver.id_eq ▸ hPreceiver _ receiver.place_self, hPargs'⟩
  · obtain ⟨hknown, hqualified⟩ := hf f rfl
    exact writes_typeCall henv none hw (.global id f.name hfunction hqualified hr)
      (List.sublist_append_right _ _).subperm (List.Subset.refl _) hid hPargs' hknown fun _ => rfl

theorem checks_list (id : NodeId) {elements : List Expr} (optionalIndices : List UInt64)
    (helements : ∀ e ∈ elements, Checks declared root e) :
    Checks declared root (.list id elements optionalIndices) := by
  intro env P es es' notes henv hP hw
  rw [checkExpr]
  refine (writes_checkElements henv helements (fun e he id h => hP id (h.of_mem_parts he)) 0 none
    hw).bind ?_
  rintro ⟨elements', element⟩ notes ⟨hr, hw⟩
  rcases element with _ | t
  · exact (quiet_freshVar.within hw).bind fun t notes hw =>
      (settles_type _ _).close hw (.list id optionalIndices hr) (.refl _) (List.Subset.refl _)
  · exact ((Quiet.pure t).within hw).bind fun t notes hw =>
      (settles_type _ _).close hw (.list id optionalIndices hr) (.refl _) (List.Subset.refl _)

theorem checks_map (id : NodeId) {entries : List MapEntry}
    (hentries : ∀ e ∈ entries, Checks declared root e.key ∧ Checks declared root e.value) :
    Checks declared root (.map id entries) := by
  intro env P es es' notes henv hP hw
  have hPentries : ∀ e ∈ entries, ∀ id, e.key.Place id ∨ e.value.Place id → P id := by
    rintro e he i (h | h)
    · exact hP i (h.of_mem_parts (List.mem_flatMap.mpr ⟨e, he, by simp⟩))
    · exact hP i (h.of_mem_parts (List.mem_flatMap.mpr ⟨e, he, by simp⟩))
  rw [checkExpr]
  refine (writes_checkEntries henv hentries hPentries none hw).bind ?_
  rintro ⟨entries', types⟩ notes ⟨hr, hw⟩
  rcases types with _ | types
  · exact (quiet_freshVar.within hw).bind fun key notes hw => (quiet_freshVar.within hw).bind
      fun value notes hw => ((Quiet.pure (key, value)).within hw).bind fun types notes hw =>
      (settles_type _ _).close hw (.map id hr) (.refl _) (List.Subset.refl _)
  · exact ((Quiet.pure types).within hw).bind fun types notes hw =>
      (settles_type _ _).close hw (.map id hr) (.refl _) (List.Subset.refl _)

theorem checks_struct (id : NodeId) (messageName : String) {fields : List FieldInit}
    (hfields : ∀ f ∈ fields, Checks declared root f.value) :
    Checks declared root (.struct id messageName fields) := by
  intro env P es es' notes henv hP hw
  have hid : P id := hP _ (Expr.place_self _)
  have hPfields : ∀ f ∈ fields, P f.id ∧ ∀ id, f.value.Place id → P id := by
    intro f hf
    refine ⟨hP _ ⟨_, Expr.mem_nodes_self _, Or.inr ⟨f, hf, rfl⟩⟩, fun i h => ?_⟩
    exact hP i (h.of_mem_parts (List.mem_map_of_mem hf))
  rw [checkExpr]
  refine ((quiet_lookupIdent env messageName).within hw).bind ?_
  rintro (_ | v) notes hw
  · exact (settles_undeclared env hid messageName).leaf hw (.refl _)
  · refine ((quiet_literalTarget hid v).within hw).bind fun r notes hw =>
      (writes_checkFields henv hfields hPfields hw).bind ?_
    rintro fields' notes ⟨hr, hw⟩
    exact (settles_reference _ trivial).close hw (.struct id messageName r.1 hr) (.refl _)
      (List.Subset.refl _)

theorem checks_comprehension (id : NodeId) {iterRange : Expr} (iterVar : String)
    (iterVar2 : Option String) (accuVar : String)
    {accuInit loopCondition loopStep result : Expr} (hrange : Checks declared root iterRange)
    (hinit : Checks declared root accuInit) (hcondition : Checks declared root loopCondition)
    (hstep : Checks declared root loopStep) (hresult : Checks declared root result) :
    Checks declared root (.comprehension id iterRange iterVar iterVar2 accuVar accuInit
      loopCondition loopStep result) := by
  intro env P es es' notes henv hP hw
  have hparts : ∀ c ∈ [iterRange, accuInit, loopCondition, loopStep, result],
      ∀ id, c.Place id → P id := fun c hc id h => hP id (h.of_mem_parts hc)
  simp only [List.forall_mem_cons] at hparts
  obtain ⟨hPrange, hPinit, hPcondition, hPstep, hPresult, -⟩ := hparts
  rw [checkExpr_comprehension]
  refine (hrange env P es es' notes henv hPrange hw).bind ?_
  rintro iterRange' notes ⟨hrrange, hw⟩
  refine (hinit env P _ _ notes henv hPinit hw).bind ?_
  rintro accuInit' notes ⟨hrinit, hw⟩
  have hrangeId : P iterRange'.id := hrrange.id_eq ▸ hPrange _ iterRange.place_self
  refine ((quiet_typeOf _).within hw).bind fun _ notes hw =>
    ((quiet_resolve _).within hw).bind fun rangeType notes hw =>
    ((quiet_typeOf _).within hw).bind fun accuType notes hw =>
    ((reports_enterScope henv).within hw).bind ?_
  rintro outer notes ⟨houter, hw⟩
  refine ((quiet_declareLocal outer accuVar accuType).within hw).bind fun _ notes hw =>
    ((quiet_iterationTypes hrangeId rangeType iterVar2.isSome).within hw).bind fun types notes hw =>
    (writes_checkLoop houter hcondition hstep hPcondition hPstep iterVar iterVar2 types.1 types.2
      accuType hw).bind ?_
  rintro loop notes ⟨hrcondition, hrstep, hw⟩
  refine (hresult outer P _ _ notes houter hPresult hw).bind ?_
  rintro result' notes ⟨hrresult, hw⟩
  refine ((quiet_typeOf _).within hw).bind fun _ notes hw =>
    ((quiet_resolve _).within hw).bind fun resultType notes hw => ?_
  simp only [List.append_assoc, List.cons_append, List.nil_append] at hw
  exact (settles_type _ resultType).close hw
    (.comprehension id iterVar iterVar2 accuVar hrrange hrinit hrcondition hrstep hrresult)
    (.refl _) (List.Subset.refl _)

/-- **Checking a tree rewrites it and takes notes about it.** -/
theorem checks (declared : Store) (root : Env) (e : Expr) : Checks declared root e := by
  induction e using Expr.induct with
  | unset id => exact checks_unset id
  | const id value => exact checks_const id value
  | ident id name => exact checks_ident id name
  | select id operand field testOnly optional hoperand =>
    exact checks_select id field testOnly optional hoperand
  | call id function target args htarget hargs =>
    by_cases hfunction : function = Standard.optionalSelect
    · subst hfunction
      exact checks_optionalSelect id target hargs
    · exact checks_call id hfunction htarget hargs
  | list id elements optionalIndices helements => exact checks_list id optionalIndices helements
  | map id entries hentries => exact checks_map id hentries
  | struct id messageName fields hfields => exact checks_struct id messageName hfields
  | comprehension id iterRange iterVar iterVar2 accuVar accuInit loopCondition loopStep result
      hrange hinit hcondition hstep hresult =>
    exact checks_comprehension id iterVar iterVar2 accuVar hrange hinit hcondition hstep hresult

end Checking

/-! ## Whole checks -/

/-- The node that a check gives back and the state it ends in. -/
theorem exists_notes (env : Env) (store : Store) (e : Expr) :
    ∃ notes, (CheckState.start store).Noted notes
        ((Checking.checkExpr env e : Checking Expr).run (.start store)).2 ∧
      e.Rewrites ((Checking.checkExpr env e : Checking Expr).run (.start store)).1 ∧
      Note.Within (Expr.Accords store env) e.Place [e]
        [((Checking.checkExpr env e : Checking Expr).run (.start store)).1] notes :=
  Checking.checks store env e env e.Place [] [] [] (.refl store env) (fun _ h => h)
    Note.within_nil (.start store) fun _ _ => rfl

/-- **A check rewrites a tree**: nodes keep their ids and their places, a chain of selections turns
into an identifier only if it spells one, a receiver goes away only if it may be a namespace, and
all else stays as it was. -/
theorem check_rewrites (env : Env) (store : Store) (source : Source) (e : Expr) :
    e.Rewrites (check env store source e).1.expr := by
  obtain ⟨_, -, hr, -⟩ := exists_notes env store e
  exact hr

end CelTyping
