import CelTyping.Env.Standard
import CelTyping.Expr.Basic
import Mathlib.Logic.Relation

/-!
# The nodes of expression trees

`Expr.induct` is the induction principle that the walk over a tree asks for: what is to be shown of
a node may be assumed of the nodes right below it, wherever these stand: as a receiver, in a list
of arguments or elements, as keys and values of entries, or as initializers of fields.

`Expr.Below` relates a node to itself and to the nodes below it.  Two sorts of nodes are left out,
which belong to the form of an optional selection: the name of the field, which stands as a literal
in the place of the second argument, and a receiver, which such a selection has no use for.

`Expr.nodes` lists all nodes, these included, and `Expr.ids` their ids.  Errors may also be found at
the initializers of message literals, which have ids of their own (`Expr.Place`).
-/

namespace CelTyping

open Relation

namespace Expr

/-- Induction over an expression tree. -/
@[elab_as_elim]
theorem induct {P : Expr → Prop} (unset : ∀ id, P (.unset id))
    (const : ∀ id value, P (.const id value)) (ident : ∀ id name, P (.ident id name))
    (select : ∀ id operand field testOnly optional, P operand →
      P (.select id operand field testOnly optional))
    (call : ∀ id function target args, (∀ r ∈ target, P r) → (∀ a ∈ args, P a) →
      P (.call id function target args))
    (list : ∀ id elements optionalIndices, (∀ e ∈ elements, P e) →
      P (.list id elements optionalIndices))
    (map : ∀ id entries, (∀ e ∈ entries, P e.key ∧ P e.value) → P (.map id entries))
    (struct : ∀ id messageName fields, (∀ f ∈ fields, P f.value) →
      P (.struct id messageName fields))
    (comprehension : ∀ id iterRange iterVar iterVar2 accuVar accuInit loopCondition loopStep result,
      P iterRange → P accuInit → P loopCondition → P loopStep → P result →
      P (.comprehension id iterRange iterVar iterVar2 accuVar accuInit loopCondition loopStep
        result))
    (e : Expr) : P e := by
  refine @Expr.rec (fun entry => P entry.key ∧ P entry.value) (fun f => P f.value) P
    (fun target => ∀ r ∈ target, P r) (fun args => ∀ a ∈ args, P a)
    (fun entries => ∀ e ∈ entries, P e.key ∧ P e.value) (fun fields => ∀ f ∈ fields, P f.value)
    ?_ ?_ unset const ident select call list map struct comprehension ?_ ?_ ?_ ?_ ?_ ?_ ?_ ?_ e
  · exact fun _ _ _ _ hkey hvalue => ⟨hkey, hvalue⟩
  · exact fun _ _ _ _ hvalue => hvalue
  · simp
  · simp
  · simp
  · exact fun _ _ hhead htail => List.forall_mem_cons.mpr ⟨hhead, htail⟩
  · simp
  · exact fun _ _ hhead htail => List.forall_mem_cons.mpr ⟨hhead, htail⟩
  · simp
  · exact fun _ _ hhead htail => List.forall_mem_cons.mpr ⟨hhead, htail⟩

/-- The nodes right below a node, but for the field name and the receiver of an optional
selection. -/
def children : Expr → List Expr
  | unset _ | const _ _ | ident _ _ => []
  | select _ operand _ _ _ => [operand]
  | call _ function target args =>
    if function = Standard.optionalSelect then args.eraseIdx 1 else target.toList ++ args
  | list _ elements _ => elements
  | map _ entries => entries.flatMap fun e => [e.key, e.value]
  | struct _ _ fields => fields.map FieldInit.value
  | comprehension _ iterRange _ _ _ accuInit loopCondition loopStep result =>
    [iterRange, accuInit, loopCondition, loopStep, result]

/-- One node is another or stands below it. -/
def Below (e n : Expr) : Prop := ReflTransGen (fun a b => b ∈ a.children) e n

theorem below_iff {e n : Expr} : e.Below n ↔ n = e ∨ ∃ c ∈ e.children, c.Below n := by
  unfold Below
  rw [ReflTransGen.cases_head_iff, eq_comm]

/-- Whether a node refers to something that was declared. -/
def refers : Expr → Bool
  | ident _ _ | call _ _ _ _ | struct _ _ _ => true
  | _ => false

/-! ## All nodes -/

/-- The nodes right below a node, whatever they are there for. -/
def parts : Expr → List Expr
  | unset _ | const _ _ | ident _ _ => []
  | select _ operand _ _ _ => [operand]
  | call _ _ target args => target.toList ++ args
  | list _ elements _ => elements
  | map _ entries => entries.flatMap fun e => [e.key, e.value]
  | struct _ _ fields => fields.map FieldInit.value
  | comprehension _ iterRange _ _ _ accuInit loopCondition loopStep result =>
    [iterRange, accuInit, loopCondition, loopStep, result]

/-- Induction over an expression tree, for what is shown of all sorts of nodes alike. -/
@[elab_as_elim]
theorem induct_parts {P : Expr → Prop} (step : ∀ e : Expr, (∀ c ∈ e.parts, P c) → P e)
    (e : Expr) : P e := by
  induction e using induct with
  | unset id => exact step _ (by simp [parts])
  | const id value => exact step _ (by simp [parts])
  | ident id name => exact step _ (by simp [parts])
  | select id operand field testOnly optional hoperand =>
    exact step _ (List.forall_mem_singleton.mpr hoperand)
  | call id function target args htarget hargs =>
    refine step _ fun c hc => (List.mem_append.mp hc).elim (fun hc => ?_) (hargs c)
    exact htarget c (Option.mem_toList.mp hc)
  | list id elements optionalIndices helements => exact step _ helements
  | map id entries hentries =>
    refine step _ fun c hc => ?_
    obtain ⟨e, he, hc⟩ := List.mem_flatMap.mp hc
    have hpart : c = e.key ∨ c = e.value := by simpa using hc
    rcases hpart with rfl | rfl
    · exact (hentries e he).1
    · exact (hentries e he).2
  | struct id messageName fields hfields => exact step _ (List.forall_mem_map.mpr hfields)
  | comprehension id iterRange iterVar iterVar2 accuVar accuInit loopCondition loopStep result
      hrange hinit hcondition hstep hresult =>
    exact step _ (by simp [parts, hrange, hinit, hcondition, hstep, hresult])

mutual

/-- A node and all nodes below it. -/
def nodes : Expr → List Expr
  | unset id => [unset id]
  | const id value => [const id value]
  | ident id name => [ident id name]
  | select id operand field testOnly optional =>
    select id operand field testOnly optional :: nodes operand
  | call id function target args =>
    call id function target args :: (nodesOfTarget target ++ nodesOfAll args)
  | list id elements optionalIndices => list id elements optionalIndices :: nodesOfAll elements
  | map id entries => map id entries :: nodesOfEntries entries
  | struct id messageName fields => struct id messageName fields :: nodesOfFields fields
  | comprehension id iterRange iterVar iterVar2 accuVar accuInit loopCondition loopStep result =>
    comprehension id iterRange iterVar iterVar2 accuVar accuInit loopCondition loopStep result ::
      (nodes iterRange ++ (nodes accuInit ++ (nodes loopCondition ++ (nodes loopStep ++
        nodes result))))

/-- The nodes of a receiver. -/
def nodesOfTarget : Option Expr → List Expr
  | none => []
  | some receiver => nodes receiver

/-- The nodes of a list of nodes. -/
def nodesOfAll : List Expr → List Expr
  | [] => []
  | e :: rest => nodes e ++ nodesOfAll rest

/-- The nodes of the entries of a map literal. -/
def nodesOfEntries : List MapEntry → List Expr
  | [] => []
  | ⟨_, key, value, _⟩ :: rest => nodes key ++ (nodes value ++ nodesOfEntries rest)

/-- The nodes of the initializers of a message literal. -/
def nodesOfFields : List FieldInit → List Expr
  | [] => []
  | ⟨_, _, value, _⟩ :: rest => nodes value ++ nodesOfFields rest

end

theorem nodesOfTarget_eq (target : Option Expr) :
    nodesOfTarget target = target.toList.flatMap nodes := by
  cases target with
  | none => rfl
  | some receiver => simp [nodesOfTarget]

theorem nodesOfAll_eq (es : List Expr) : nodesOfAll es = es.flatMap nodes := by
  induction es with
  | nil => rfl
  | cons e rest ih => rw [nodesOfAll, ih, List.flatMap_cons]

theorem nodesOfEntries_eq (entries : List MapEntry) :
    nodesOfEntries entries = (entries.flatMap fun e => [e.key, e.value]).flatMap nodes := by
  induction entries with
  | nil => rfl
  | cons e rest ih =>
    obtain ⟨id, key, value, optional⟩ := e
    rw [nodesOfEntries, ih]
    simp

theorem nodesOfFields_eq (fields : List FieldInit) :
    nodesOfFields fields = (fields.map FieldInit.value).flatMap nodes := by
  induction fields with
  | nil => rfl
  | cons f rest ih =>
    obtain ⟨id, field, value, optional⟩ := f
    rw [nodesOfFields, ih]
    simp

/-- The nodes of a tree are its root and the nodes of the trees right below it. -/
theorem nodes_eq (e : Expr) : e.nodes = e :: e.parts.flatMap nodes := by
  cases e with
  | unset id => rfl
  | const id value => rfl
  | ident id name => rfl
  | select id operand field testOnly optional => simp [nodes, parts]
  | call id function target args =>
    rw [nodes, parts, nodesOfTarget_eq, nodesOfAll_eq, List.flatMap_append]
  | list id elements optionalIndices => rw [nodes, parts, nodesOfAll_eq]
  | map id entries => rw [nodes, parts, nodesOfEntries_eq]
  | struct id messageName fields => rw [nodes, parts, nodesOfFields_eq]
  | comprehension id iterRange iterVar iterVar2 accuVar accuInit loopCondition loopStep result =>
    simp [nodes, parts]

theorem mem_nodes_self (e : Expr) : e ∈ e.nodes := by
  rw [nodes_eq]
  exact List.mem_cons_self

theorem mem_nodes_of_mem_parts {e c n : Expr} (hc : c ∈ e.parts) (hn : n ∈ c.nodes) :
    n ∈ e.nodes := by
  rw [nodes_eq]
  exact List.mem_cons_of_mem _ (List.mem_flatMap.mpr ⟨c, hc, hn⟩)

/-- The ids of all nodes. -/
def ids (e : Expr) : List NodeId := e.nodes.map Expr.id

theorem ids_eq (e : Expr) : e.ids = e.id :: e.parts.flatMap ids := by
  unfold ids
  rw [nodes_eq, List.map_cons, List.map_flatMap]

/-- The initializers of a message literal. -/
def inits : Expr → List FieldInit
  | struct _ _ fields => fields
  | _ => []

/-- An id belongs to a node of a tree or to an initializer of a message literal in it. -/
def Place (e : Expr) (id : NodeId) : Prop :=
  ∃ n ∈ e.nodes, n.id = id ∨ ∃ f ∈ n.inits, f.id = id

theorem place_self (e : Expr) : e.Place e.id := ⟨e, e.mem_nodes_self, Or.inl rfl⟩

theorem Place.of_mem_parts {e c : Expr} {id : NodeId} (h : c.Place id) (hc : c ∈ e.parts) :
    e.Place id := by
  obtain ⟨n, hn, hid⟩ := h
  exact ⟨n, mem_nodes_of_mem_parts hc hn, hid⟩

end Expr
end CelTyping
