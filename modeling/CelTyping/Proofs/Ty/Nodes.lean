import CelTyping.Ty.Printing
import Mathlib.Data.List.Basic

/-!
# The nodes of a type

A type is a tree, and most of what is asked of a type in later modules is asked of every node of
the tree: that no node is erroneous, that only nodes of some kinds have parameters, that the type
parameters have certain names.  `Ty.nodes` lists the nodes, the type itself first, and this module
has what is needed to reason about such statements.

* `Ty.induct`: induction over types, with one hypothesis for all parameters of a node.
* `mem_nodes_iff`, `mem_nodes_trans`: the nodes of a type are the type and the nodes of its
  parameters, and a node of a node is a node.
* `size_lt_of_mem_params`: going down makes a type smaller.
* `isExact_iff`: two types are exactly equal when they have the same shape.
* `key_of_params_nil`: the key of a node without parameters is its name.
-/

namespace CelTyping
namespace Ty

/-! ## Induction -/

/-- Induction over types: what passes from all parameters of a type to the type holds always. -/
@[elab_as_elim]
theorem induct {P : Ty → Prop} (node : ∀ t : Ty, (∀ p ∈ t.params, P p) → P t) (t : Ty) : P t := by
  refine @Ty.rec P (fun ts => ∀ p ∈ ts, P p) ?_ ?_ ?_ t
  · intro kind name params traits acceptance ih
    exact node ⟨kind, name, params, traits, acceptance⟩ ih
  · intro p hp
    exact absurd hp List.not_mem_nil
  · intro head tail hhead htail p hp
    rcases List.mem_cons.mp hp with rfl | hp
    · exact hhead
    · exact htail p hp

theorem withParams_self (t : Ty) : t.withParams t.params = t := by
  cases t
  rfl

/-! ## Nodes -/

mutual

/-- The nodes of a type, the type itself first. -/
def nodes : Ty → List Ty
  | ⟨kind, name, params, traits, acceptance⟩ =>
    ⟨kind, name, params, traits, acceptance⟩ :: nodesOfAll params

/-- The nodes of a list of types. -/
def nodesOfAll : List Ty → List Ty
  | [] => []
  | t :: rest => t.nodes ++ nodesOfAll rest

end

theorem nodes_eq (t : Ty) : t.nodes = t :: nodesOfAll t.params := by
  cases t
  rw [nodes]

theorem mem_nodesOfAll_iff {u : Ty} : ∀ {ts : List Ty}, u ∈ nodesOfAll ts ↔ ∃ t ∈ ts, u ∈ t.nodes
  | [] => by simp [nodesOfAll]
  | t :: rest => by
    rw [nodesOfAll, List.mem_append, mem_nodesOfAll_iff]
    simp

theorem mem_nodes_iff {t u : Ty} : u ∈ t.nodes ↔ u = t ∨ ∃ p ∈ t.params, u ∈ p.nodes := by
  rw [nodes_eq, List.mem_cons, mem_nodesOfAll_iff]

@[simp] theorem mem_nodes_self (t : Ty) : t ∈ t.nodes := mem_nodes_iff.mpr (Or.inl rfl)

theorem mem_nodes_of_mem_params {t p u : Ty} (hp : p ∈ t.params) (hu : u ∈ p.nodes) :
    u ∈ t.nodes :=
  mem_nodes_iff.mpr (Or.inr ⟨p, hp, hu⟩)

/-- A node of a node is a node. -/
theorem mem_nodes_trans {t u v : Ty} (hu : u ∈ t.nodes) (hv : v ∈ u.nodes) : v ∈ t.nodes := by
  induction t using Ty.induct with
  | node t ih =>
    rcases mem_nodes_iff.mp hu with rfl | ⟨p, hp, hup⟩
    · exact hv
    · exact mem_nodes_of_mem_params hp (ih p hp hup)

/-- What holds at every node of the parameters and at the root holds at every node. -/
theorem forall_nodes_iff {P : Ty → Prop} {t : Ty} :
    (∀ u ∈ t.nodes, P u) ↔ P t ∧ ∀ p ∈ t.params, ∀ u ∈ p.nodes, P u := by
  constructor
  · intro h
    exact ⟨h t (mem_nodes_self t), fun p hp u hu => h u (mem_nodes_of_mem_params hp hu)⟩
  · rintro ⟨hroot, hparams⟩ u hu
    rcases mem_nodes_iff.mp hu with rfl | ⟨p, hp, hup⟩
    · exact hroot
    · exact hparams p hp u hup

/-! ## Sizes -/

theorem size_eq (t : Ty) : t.size = 1 + sizes t.params := by
  cases t
  rw [size]

theorem size_pos (t : Ty) : 0 < t.size := by
  rw [size_eq]
  omega

theorem size_le_sizes {t : Ty} : ∀ {ts : List Ty}, t ∈ ts → t.size ≤ sizes ts
  | [], h => absurd h List.not_mem_nil
  | s :: rest, h => by
    rw [sizes]
    rcases List.mem_cons.mp h with rfl | h
    · omega
    · have hrest := size_le_sizes h
      omega

/-- A parameter is smaller than the type it is a parameter of. -/
theorem size_lt_of_mem_params {t p : Ty} (hp : p ∈ t.params) : p.size < t.size := by
  have h := size_le_sizes hp
  rw [size_eq t]
  omega

/-- A type has as many nodes as its size says. -/
theorem length_nodes (t : Ty) : t.nodes.length = t.size := by
  have hall : ∀ ts : List Ty, (∀ p ∈ ts, p.nodes.length = p.size) →
      (nodesOfAll ts).length = sizes ts := by
    intro ts
    induction ts with
    | nil => intro _; rfl
    | cons s rest ih =>
      intro h
      rw [nodesOfAll, List.length_append, sizes, h s List.mem_cons_self,
        ih fun p hp => h p (List.mem_cons_of_mem s hp)]
  induction t using Ty.induct with
  | node t ih =>
    rw [nodes_eq, List.length_cons, hall t.params ih, size_eq]
    omega

theorem length_nodesOfAll (ts : List Ty) : (nodesOfAll ts).length = sizes ts := by
  induction ts with
  | nil => rfl
  | cons s rest ih => rw [nodesOfAll, List.length_append, sizes, length_nodes, ih]

/-! ## Shapes and views -/

theorem shape_eq (t : Ty) : t.shape = .node t.kind t.name (shapes t.params) := by
  cases t
  rw [shape]

theorem shapes_eq_map (ts : List Ty) : shapes ts = ts.map shape := by
  induction ts with
  | nil => rfl
  | cons t rest ih => rw [shapes, List.map_cons, ih]

theorem agrees_eq (exact : Bool) (a b : Ty) :
    a.agrees exact b =
      (a.kind == b.kind && ((!exact && a.kind == .typeParam) || a.name == b.name) &&
        agreeAll exact a.params b.params) := by
  cases a
  rw [agrees]

theorem agreeAll_iff {as : List Ty} (ih : ∀ a ∈ as, ∀ b : Ty, a.agrees true b ↔ a.shape = b.shape) :
    ∀ bs : List Ty, agreeAll true as bs ↔ shapes as = shapes bs := by
  induction as with
  | nil => intro bs; cases bs <;> simp [agreeAll, shapes]
  | cons a rest ihs =>
    intro bs
    cases bs with
    | nil => simp [agreeAll, shapes]
    | cons b bs =>
      have hrest := ihs (fun a' ha => ih a' (List.mem_cons_of_mem a ha)) bs
      rw [agreeAll, Bool.and_eq_true, ih a List.mem_cons_self b, hrest, shapes, shapes,
        List.cons.injEq]

/-- Two types are exactly equal when they have the same shape. -/
theorem isExact_iff {a b : Ty} : a.isExact b ↔ a.shape = b.shape := by
  unfold isExact
  induction a using Ty.induct generalizing b with
  | node a ih =>
    have hparams := agreeAll_iff (fun p hp c => ih p hp (b := c)) b.params
    rw [agrees_eq, shape_eq, shape_eq, Shape.node.injEq, Bool.and_eq_true, hparams]
    simp [and_assoc]

theorem isExact_eq_false_iff {a b : Ty} : a.isExact b = false ↔ a.shape ≠ b.shape := by
  rw [Ne, ← isExact_iff, Bool.not_eq_true]

theorem shape_kind (t : Ty) : t.shape.kind = t.kind := by rw [shape_eq]; rfl

theorem shape_name (t : Ty) : t.shape.name = t.name := by rw [shape_eq]; rfl

theorem kind_eq_of_isExact {a b : Ty} (h : a.isExact b = true) : a.kind = b.kind := by
  rw [← shape_kind, isExact_iff.mp h, shape_kind]

theorem isExact_eq_false_of_isParam {a b : Ty} (ha : a.isParam = true) (hb : b.isParam = false) :
    a.isExact b = false := Bool.eq_false_iff.mpr fun h => by
  unfold isParam at ha hb
  rw [kind_eq_of_isExact h, hb] at ha
  exact Bool.false_ne_true ha

theorem view_eq (t : Ty) :
    t.view = .node t.kind t.name (views t.params) t.traits t.acceptance.manner := by
  cases t
  rw [view]

theorem views_eq_map (ts : List Ty) : views ts = ts.map view := by
  induction ts with
  | nil => rfl
  | cons t rest ih => rw [views, List.map_cons, ih]

/-! ## Keys -/

theorem key_eq (t : Ty) : t.key = applied t.name (keys t.params) := by
  cases t
  rw [key]

/-- The key of a node without parameters is its name. -/
theorem key_of_params_nil {t : Ty} (h : t.params = []) : t.key = t.name := by
  rw [key_eq, h, keys, applied]

@[simp] theorem key_param (name : String) : (param name).key = name := key_of_params_nil rfl

@[simp] theorem isParam_param (name : String) : (param name).isParam = true := rfl

theorem isParam_iff {t : Ty} : t.isParam ↔ t.kind = .typeParam := by
  unfold isParam
  rw [beq_iff_eq]

/-- A type parameter is not of a kind that carries parameters. -/
theorem isParam_of_isParameterized {t : Ty} (h : t.kind.isParameterized = true) :
    t.isParam = false := by
  cases hpar : t.isParam with
  | false => rfl
  | true =>
    rw [isParam_iff.mp hpar] at h
    exact absurd h (by decide)

end Ty
end CelTyping
