import CelTyping.Proofs.Expr.Nodes
import Mathlib.Data.List.Flatten
import Mathlib.Data.List.Forall2

/-!
# What resolving names may do to a tree

A check writes the names in a tree in full.  On the way a chain of selections may turn into the
identifier it spells, and a receiver that turns out to be the namespace of a function goes away.
Everything else stays where it is: `Expr.Rewrites` says so node by node, with one rule for every
sort of node and two for those that may lose nodes below them.

* `Rewrites.refl`: a tree that is left alone is rewritten to itself.
* `Rewrites.id_eq`: a node keeps its id.
* `Rewrites.parts`: below a node nothing is added and nothing changes its place.
* `Rewrites.ids_sublist`: the ids of the rewritten tree are ids of the tree, in their order.
-/

namespace CelTyping

open scoped List

/-- An entry of a map literal whose key and value are related to those of another. -/
inductive MapEntry.Rewrites (R : Expr → Expr → Prop) : MapEntry → MapEntry → Prop
  /-- The id of the entry stays, and so does whether it is optional. -/
  | mk {key key' value value' : Expr} (id : NodeId) (optional : Bool) :
    R key key' → R value value' → Rewrites R ⟨id, key, value, optional⟩ ⟨id, key', value', optional⟩

/-- An initializer of a message literal whose value is related to that of another. -/
inductive FieldInit.Rewrites (R : Expr → Expr → Prop) : FieldInit → FieldInit → Prop
  /-- The id, the name of the field and whether it is optional stay. -/
  | mk {value value' : Expr} (id : NodeId) (field : String) (optional : Bool) :
    R value value' → Rewrites R ⟨id, field, value, optional⟩ ⟨id, field, value', optional⟩

namespace Expr

/-- One tree is another with its names written in full. -/
inductive Rewrites : Expr → Expr → Prop
  | unset (id : NodeId) : Rewrites (.unset id) (.unset id)
  | const (id : NodeId) (value : Constant) : Rewrites (.const id value) (.const id value)
  | ident (id : NodeId) (name name' : String) : Rewrites (.ident id name) (.ident id name')
  | select {operand operand' : Expr} (id : NodeId) (field : String) (testOnly optional : Bool) :
    Rewrites operand operand' → Rewrites (.select id operand field testOnly optional)
      (.select id operand' field testOnly optional)
  /-- A chain of selections that spells a name may turn into an identifier. -/
  | qualified {id : NodeId} {operand : Expr} {field : String} {testOnly optional : Bool}
      (name' : String) :
    (Expr.select id operand field testOnly optional).qualifiedName?.isSome = true →
    Rewrites (.select id operand field testOnly optional) (.ident id name')
  /-- An optional selection keeps its form, and a receiver is left alone. -/
  | optionalSelect {args args' : List Expr} (id : NodeId) (target : Option Expr) :
    List.Forall₂ Rewrites args args' →
    Rewrites (.call id Standard.optionalSelect target args)
      (.call id Standard.optionalSelect target args')
  /-- A call that keeps its receiver keeps the name of its function. -/
  | member {function : String} {receiver receiver' : Expr} {args args' : List Expr} (id : NodeId) :
    function ≠ Standard.optionalSelect → Rewrites receiver receiver' →
    List.Forall₂ Rewrites args args' →
    Rewrites (.call id function (some receiver) args) (.call id function (some receiver') args')
  /-- A receiver goes away only if it spells a name. -/
  | global {function : String} {target : Option Expr} {args args' : List Expr} (id : NodeId)
      (function' : String) :
    function ≠ Standard.optionalSelect → (∀ r ∈ target, r.qualifiedName?.isSome = true) →
    List.Forall₂ Rewrites args args' →
    Rewrites (.call id function target args) (.call id function' none args')
  | list {elements elements' : List Expr} (id : NodeId) (optionalIndices : List UInt64) :
    List.Forall₂ Rewrites elements elements' →
    Rewrites (.list id elements optionalIndices) (.list id elements' optionalIndices)
  | map {entries entries' : List MapEntry} (id : NodeId) :
    List.Forall₂ (MapEntry.Rewrites Rewrites) entries entries' →
    Rewrites (.map id entries) (.map id entries')
  | struct {fields fields' : List FieldInit} (id : NodeId) (messageName messageName' : String) :
    List.Forall₂ (FieldInit.Rewrites Rewrites) fields fields' →
    Rewrites (.struct id messageName fields) (.struct id messageName' fields')
  | comprehension {iterRange iterRange' accuInit accuInit' loopCondition loopCondition' loopStep
      loopStep' result result' : Expr} (id : NodeId) (iterVar : String) (iterVar2 : Option String)
      (accuVar : String) :
    Rewrites iterRange iterRange' → Rewrites accuInit accuInit' →
    Rewrites loopCondition loopCondition' → Rewrites loopStep loopStep' →
    Rewrites result result' →
    Rewrites
      (.comprehension id iterRange iterVar iterVar2 accuVar accuInit loopCondition loopStep result)
      (.comprehension id iterRange' iterVar iterVar2 accuVar accuInit' loopCondition' loopStep'
        result')

namespace Rewrites

/-- A tree that is left alone is rewritten to itself. -/
theorem refl (e : Expr) : e.Rewrites e := by
  induction e using Expr.induct with
  | unset id => exact .unset id
  | const id value => exact .const id value
  | ident id name => exact .ident id name name
  | select id operand field testOnly optional hoperand => exact .select id _ _ _ hoperand
  | call id function target args htarget hargs =>
    have hall : List.Forall₂ Rewrites args args := List.forall₂_same.mpr hargs
    by_cases hfunction : function = Standard.optionalSelect
    · subst hfunction
      exact .optionalSelect id target hall
    · rcases target with _ | receiver
      · exact .global id function hfunction (by simp) hall
      · exact .member id hfunction (htarget receiver rfl) hall
  | list id elements optionalIndices helements =>
    exact .list id _ (List.forall₂_same.mpr helements)
  | map id entries hentries =>
    refine .map id (List.forall₂_same.mpr ?_)
    rintro ⟨id, key, value, optional⟩ he
    exact .mk id optional (hentries _ he).1 (hentries _ he).2
  | struct id messageName fields hfields =>
    refine .struct id _ _ (List.forall₂_same.mpr ?_)
    rintro ⟨id, field, value, optional⟩ hf
    exact .mk id field optional (hfields _ hf)
  | comprehension id iterRange iterVar iterVar2 accuVar accuInit loopCondition loopStep result
      hrange hinit hcondition hstep hresult =>
    exact .comprehension id _ _ _ hrange hinit hcondition hstep hresult

theorem refl_all (es : List Expr) : List.Forall₂ Rewrites es es :=
  List.forall₂_same.mpr fun e _ => refl e

/-- A node keeps its id. -/
theorem id_eq {e e' : Expr} (h : e.Rewrites e') : e'.id = e.id := by
  cases h <;> rfl

theorem forall₂_keys_values {entries entries' : List MapEntry}
    (h : List.Forall₂ (MapEntry.Rewrites Rewrites) entries entries') :
    List.Forall₂ Rewrites (entries.flatMap fun e => [e.key, e.value])
      (entries'.flatMap fun e => [e.key, e.value]) := by
  induction h with
  | nil => exact .nil
  | cons hentry _ ih =>
    obtain ⟨id, optional, hkey, hvalue⟩ := hentry
    exact .cons hkey (.cons hvalue ih)

theorem forall₂_values {fields fields' : List FieldInit}
    (h : List.Forall₂ (FieldInit.Rewrites Rewrites) fields fields') :
    List.Forall₂ Rewrites (fields.map FieldInit.value) (fields'.map FieldInit.value) := by
  induction h with
  | nil => exact .nil
  | cons hfield _ ih =>
    obtain ⟨id, field, optional, hvalue⟩ := hfield
    exact .cons hvalue ih

/-- Below a node nothing is added and nothing changes its place. -/
theorem parts {e e' : Expr} (h : e.Rewrites e') :
    ∃ ps, ps <+ e.parts ∧ List.Forall₂ Rewrites ps e'.parts := by
  cases h with
  | unset id => exact ⟨[], .refl _, .nil⟩
  | const id value => exact ⟨[], .refl _, .nil⟩
  | ident id name name' => exact ⟨[], .refl _, .nil⟩
  | select id field testOnly optional hoperand => exact ⟨_, .refl _, .cons hoperand .nil⟩
  | qualified name' _ => exact ⟨[], List.nil_sublist _, .nil⟩
  | optionalSelect id target hargs =>
    exact ⟨_, .refl _, List.rel_append (refl_all target.toList) hargs⟩
  | member id _ hreceiver hargs => exact ⟨_, .refl _, .cons hreceiver hargs⟩
  | @global _ _ args _ id function' _ _ hargs => exact ⟨args, List.sublist_append_right _ _, hargs⟩
  | list id optionalIndices helements => exact ⟨_, .refl _, helements⟩
  | map id hentries => exact ⟨_, .refl _, forall₂_keys_values hentries⟩
  | struct id messageName messageName' hfields => exact ⟨_, .refl _, forall₂_values hfields⟩
  | comprehension id iterVar iterVar2 accuVar hrange hinit hcondition hstep hresult =>
    exact ⟨_, .refl _,
      .cons hrange (.cons hinit (.cons hcondition (.cons hstep (.cons hresult .nil))))⟩

/-- **The ids of the rewritten tree are ids of the tree**, in their order. -/
theorem ids_sublist {e e' : Expr} (h : e.Rewrites e') : e'.ids <+ e.ids := by
  induction e using Expr.induct_parts generalizing e' with
  | step e ih =>
    obtain ⟨ps, hps, hrel⟩ := h.parts
    have hbelow : e'.parts.flatMap ids <+ ps.flatMap ids := by
      have hmem : ∀ p ∈ ps, ∀ p', p.Rewrites p' → p'.ids <+ p.ids :=
        fun p hp p' h => ih p (hps.subset hp) h
      clear h hps
      generalize e'.parts = ps' at hrel
      induction hrel with
      | nil => exact .refl _
      | cons hp _ ihrel =>
        obtain ⟨hhead, htail⟩ := List.forall_mem_cons.mp hmem
        rw [List.flatMap_cons, List.flatMap_cons]
        exact (hhead _ hp).append (ihrel htail)
    rw [ids_eq e, ids_eq e', h.id_eq]
    exact (hbelow.trans (hps.flatMap ids)).cons_cons _

end Rewrites
end Expr
end CelTyping
