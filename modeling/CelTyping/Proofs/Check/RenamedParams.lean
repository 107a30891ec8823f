import CelTyping.Proofs.Check.Instantiate
import CelTyping.Proofs.Check.Parallel
import CelTyping.Proofs.Unification.Solutions
import Mathlib.Data.Set.Function

/-!
# Renaming the type parameters of overloads

The type parameters of an overload are local to it: every attempt to use the overload exchanges them
for new type variables, and which variable a parameter is exchanged for depends on its place in the
signature and not on its name.  So two environments whose overloads differ in the names of their
type parameters only are alike, and every check against one gives what it gives against the other.

For this the parameters need names of their own (`Overload.Distinct`), and they have to be exposed:
a parameter inside of a type whose kind carries no parameters is counted among the parameters of the
overload, but it is not exchanged (`leaked_parameter`).

* `typeParams_rename`: collecting finds the renamed parameters, in the same order.
* `substitute_exchange`: exchanging gives every parameter the variable of its place.
* `instantiate_rename`: with new type variables in place of its parameters, a renamed overload is
  the overload.
-/

namespace CelTyping

namespace Ty

/-! ## Renaming -/

mutual

/-- The type with its type parameters renamed. -/
def rename (ρ : String → String) : Ty → Ty
  | ⟨kind, name, params, traits, acceptance⟩ =>
    ⟨kind, if kind = .typeParam then ρ name else name, renameAll ρ params, traits, acceptance⟩

/-- `rename` on every type of a list. -/
def renameAll (ρ : String → String) : List Ty → List Ty
  | [] => []
  | t :: rest => t.rename ρ :: renameAll ρ rest

end

theorem renameAll_eq_map (ρ : String → String) (ts : List Ty) :
    renameAll ρ ts = ts.map (rename ρ) := by
  induction ts with
  | nil => rfl
  | cons t rest ih => rw [renameAll, List.map_cons, ih]

theorem kind_rename (ρ : String → String) (t : Ty) : (t.rename ρ).kind = t.kind := by
  cases t
  rw [rename]

theorem isParam_rename (ρ : String → String) (t : Ty) : (t.rename ρ).isParam = t.isParam := by
  unfold isParam
  rw [kind_rename]

theorem params_rename (ρ : String → String) (t : Ty) :
    (t.rename ρ).params = t.params.map (rename ρ) := by
  cases t
  rw [rename, renameAll_eq_map]

theorem name_rename_of_isParam {ρ : String → String} {t : Ty} (h : t.isParam = true) :
    (t.rename ρ).name = ρ t.name := by
  cases t
  rw [rename, if_pos (isParam_iff.mp h)]

theorem rename_of_not_isParam {ρ : String → String} {t : Ty} (h : t.isParam = false) :
    t.rename ρ = t.withParams (t.params.map (rename ρ)) := by
  have hk : ¬ t.kind = .typeParam := by
    rw [← isParam_iff, h]
    simp
  cases t
  rw [rename, if_neg hk, renameAll_eq_map]
  rfl

/-- A type without type parameters stays as it is. -/
theorem rename_eq_self {ρ : String → String} {t : Ty} (h : ∀ u ∈ t.nodes, u.isParam = false) :
    t.rename ρ = t := by
  induction t using Ty.induct with
  | node t ih =>
    have hparams : t.params.map (rename ρ) = t.params := by
      rw [List.map_congr_left fun c hc => ih c hc fun u hu => h u (mem_nodes_of_mem_params hc hu)]
      exact List.map_id _
    rw [rename_of_not_isParam (h t (mem_nodes_self t)), hparams, withParams_self]

/-- Renaming and then assigning types is assigning them along the renaming. -/
theorem instantiate_rename (ρ : String → String) (σ : String → Ty) (t : Ty) :
    (t.rename ρ).instantiate σ = t.instantiate (σ ∘ ρ) := by
  induction t using Ty.induct with
  | node t ih =>
    cases hpar : t.isParam with
    | true =>
      rw [instantiate_of_isParam hpar, instantiate_of_isParam (by rw [isParam_rename, hpar]),
        name_rename_of_isParam hpar]
      rfl
    | false =>
      rw [instantiate_of_not_isParam hpar,
        instantiate_of_not_isParam (by rw [isParam_rename, hpar]),
        params_rename, List.map_map, rename_of_not_isParam hpar]
      exact congrArg t.withParams (List.map_congr_left ih)

theorem instantiate_congr {σ τ : String → Ty} {t : Ty}
    (h : ∀ u ∈ t.nodes, u.isParam = true → σ u.name = τ u.name) :
    t.instantiate σ = t.instantiate τ := by
  induction t using Ty.induct with
  | node t ih =>
    cases hpar : t.isParam with
    | true =>
      rw [instantiate_of_isParam hpar, instantiate_of_isParam hpar]
      exact h t (mem_nodes_self t) hpar
    | false =>
      rw [instantiate_of_not_isParam hpar, instantiate_of_not_isParam hpar]
      exact congrArg t.withParams (List.map_congr_left fun c hc =>
        ih c hc fun u hu => h u (mem_nodes_of_mem_params hc hu))

theorem instantiate_eq_self {σ : String → Ty} {t : Ty} (h : ∀ u ∈ t.nodes, u.isParam = false) :
    t.instantiate σ = t := by
  induction t using Ty.induct with
  | node t ih =>
    have hparams : t.params.map (instantiate σ) = t.params := by
      rw [List.map_congr_left fun c hc => ih c hc fun u hu => h u (mem_nodes_of_mem_params hc hu)]
      exact List.map_id _
    rw [instantiate_of_not_isParam (h t (mem_nodes_self t)), hparams, withParams_self]

/-! ## Exposed parameters -/

/-- What stands below a node of a kind that carries no parameters has nothing to do with type
parameters: the node is none, and none is below it. -/
def Exposed (t : Ty) : Prop :=
  ∀ u ∈ t.nodes, u.kind.isParameterized = false →
    ∀ c ∈ u.params, u.isParam = false ∧ ∀ v ∈ c.nodes, v.isParam = false

instance (t : Ty) : Decidable t.Exposed :=
  inferInstanceAs (Decidable (∀ u ∈ t.nodes, u.kind.isParameterized = false →
    ∀ c ∈ u.params, u.isParam = false ∧ ∀ v ∈ c.nodes, v.isParam = false))

/-- An exposed parameter has no parameters of its own. -/
theorem Exposed.params_nil {t u : Ty} (h : t.Exposed) (hu : u ∈ t.nodes) (hpar : u.isParam = true) :
    u.params = [] := by
  have hk : u.kind.isParameterized = false := by
    rw [isParam_iff.mp hpar]
    rfl
  refine List.eq_nil_iff_forall_not_mem.mpr fun c hc => ?_
  rw [(h u hu hk c hc).1] at hpar
  exact absurd hpar (by simp)

/-! ## Collecting renamed parameters -/

section Collect

variable {ρ : String → String} {S : Set String}

theorem appendNew_map (hρ : S.InjOn ρ) {names : List String} {name : String}
    (hnames : ∀ p ∈ names, p ∈ S) (hname : name ∈ S) :
    appendNew (names.map ρ) (ρ name) = (appendNew names name).map ρ := by
  have hmem : ρ name ∈ names.map ρ ↔ name ∈ names := by
    rw [List.mem_map]
    refine ⟨?_, fun h => ⟨name, h, rfl⟩⟩
    rintro ⟨p, hp, heq⟩
    rw [← hρ (hnames p hp) hname heq]
    exact hp
  unfold appendNew
  by_cases h : name ∈ names
  · rw [if_pos h, if_pos (hmem.mpr h)]
  · rw [if_neg h, if_neg fun h' => h (hmem.mp h'), List.map_append]
    rfl

theorem collectAllParams_rename {ts : List Ty} (hts : ∀ t ∈ ts, ∀ names, (∀ p ∈ names, p ∈ S) →
      (t.rename ρ).collectParams (names.map ρ) = (t.collectParams names).map ρ ∧
        ∀ p ∈ t.collectParams names, p ∈ S) {names : List String} (hnames : ∀ p ∈ names, p ∈ S) :
    collectAllParams (names.map ρ) (ts.map (rename ρ)) = (collectAllParams names ts).map ρ ∧
      ∀ p ∈ collectAllParams names ts, p ∈ S := by
  induction ts generalizing names with
  | nil => exact ⟨rfl, hnames⟩
  | cons t rest ih =>
    obtain ⟨ht, hrest⟩ := List.forall_mem_cons.mp hts
    obtain ⟨heq, hmem⟩ := ht names hnames
    rw [List.map_cons, collectAllParams, collectAllParams, heq]
    exact ih hrest hmem

/-- Collecting finds the renamed parameters, in the same order. -/
theorem collectParams_rename (hρ : S.InjOn ρ) {t : Ty}
    (ht : ∀ u ∈ t.nodes, u.isParam = true → u.name ∈ S) {names : List String}
    (hnames : ∀ p ∈ names, p ∈ S) :
    (t.rename ρ).collectParams (names.map ρ) = (t.collectParams names).map ρ ∧
      ∀ p ∈ t.collectParams names, p ∈ S := by
  induction t using Ty.induct generalizing names with
  | node t ih =>
    have hall : collectAllParams (names.map ρ) (t.params.map (rename ρ)) =
        (collectAllParams names t.params).map ρ ∧ ∀ p ∈ collectAllParams names t.params, p ∈ S :=
      collectAllParams_rename
        (fun c hc _ hn => ih c hc (fun u hu => ht u (mem_nodes_of_mem_params hc hu)) hn) hnames
    have hroot := ht t (mem_nodes_self t)
    obtain ⟨kind, name, params, traits, acceptance⟩ := t
    rw [rename, collectParams, collectParams, renameAll_eq_map]
    by_cases hk : kind = .typeParam
    · rw [if_pos hk, if_pos hk, if_pos hk]
      have hname : name ∈ S := hroot (isParam_iff.mpr hk)
      refine ⟨appendNew_map hρ hnames hname, fun p hp => ?_⟩
      rcases mem_appendNew.mp hp with hp | rfl
      · exact hnames p hp
      · exact hname
    · rw [if_neg hk, if_neg hk]
      exact hall

end Collect

end Ty

namespace Overload

/-! ## Overloads -/

/-- The overload with its type parameters renamed. -/
def rename (ρ : String → String) (o : Overload) : Overload :=
  { o with args := o.args.map (Ty.rename ρ), result := o.result.rename ρ }

/-- The type parameters have names of their own and are exposed. -/
structure Hygienic (o : Overload) : Prop extends Distinct o where
  /-- Type parameters stand only where they are exchanged. -/
  exposed : ∀ t ∈ o.types, t.Exposed

/-- The type parameters are exposed and have names of their own when the type variables from a
number on are to take their places. -/
structure HygienicAt (o : Overload) (next : Nat) : Prop extends ClearAt o next where
  /-- Type parameters stand only where they are exchanged. -/
  exposed : ∀ t ∈ o.types, t.Exposed

theorem Hygienic.hygienicAt {o : Overload} (h : o.Hygienic) (next : Nat) : o.HygienicAt next :=
  ⟨h.clearAt next, h.exposed⟩

/-- Names that do not start with an underscore are no names of type variables. -/
theorem distinct_of_heads {os : List Overload}
    (hkey : ∀ o ∈ os, ∀ t ∈ o.types, ∀ u ∈ t.nodes, u.isParam = false → u.key ∉ o.typeParams)
    (hhead : ∀ o ∈ os, ∀ p ∈ o.typeParams, p.toList.head? ≠ some '_') : ∀ o ∈ os, o.Distinct :=
  fun o ho => ⟨hkey o ho, fun p hp => Ty.ne_varName (hhead o ho p hp)⟩

theorem types_rename (ρ : String → String) (o : Overload) :
    (o.rename ρ).types = o.types.map (Ty.rename ρ) := by
  unfold types
  rw [List.map_append]
  rfl

theorem mem_typeParams_of_exposed {o : Overload} (h : ∀ t ∈ o.types, t.Exposed) {t u : Ty}
    (ht : t ∈ o.types) (hu : u ∈ t.nodes) (hpar : u.isParam = true) : u.name ∈ o.typeParams :=
  (mem_typeParams_iff fun t ht _ hu => (h t ht).params_nil hu).mpr ⟨t, ht, u, hu, hpar, rfl⟩

theorem typeParams_rename {o : Overload} (h : o.Hygienic) {ρ : String → String}
    (hρ : Set.InjOn ρ {p | p ∈ o.typeParams}) :
    (o.rename ρ).typeParams = o.typeParams.map ρ := by
  have hnames : ∀ p ∈ ([] : List String), p ∈ {p | p ∈ o.typeParams} := by simp
  show Ty.collectAllParams [] (o.rename ρ).types = _
  rw [types_rename]
  exact (Ty.collectAllParams_rename (fun t ht _ hn =>
    Ty.collectParams_rename hρ (fun u hu => mem_typeParams_of_exposed h.exposed ht hu) hn) hnames).1

/-- Renamed parameters are bound to the variables of their places. -/
theorem freshMapping_map {ρ : String → String} {S : Set String} (hρ : S.InjOn ρ)
    {params : List String} (hparams : ∀ p ∈ params, p ∈ S) {p : String} (hp : p ∈ S) (next : Nat)
    {m m' : Mapping} (hm : m'.bindings.find? (ρ p) = m.bindings.find? p) :
    (freshMapping (params.map ρ) next m').bindings.find? (ρ p) =
      (freshMapping params next m).bindings.find? p := by
  induction params generalizing next m m' with
  | nil => exact hm
  | cons q rest ih =>
    obtain ⟨hq, hrest⟩ := List.forall_mem_cons.mp hparams
    rw [List.map_cons, freshMapping, freshMapping]
    refine ih hrest (next + 1) ?_
    rw [Mapping.bindings_find?_add, Mapping.bindings_find?_add, Ty.key_param, Ty.key_param, hm]
    by_cases hpq : p = q
    · rw [if_pos hpq, if_pos (congrArg ρ hpq)]
    · rw [if_neg hpq, if_neg fun heq => hpq (hρ hp hq heq)]

/-- The variables that an overload exchanges its parameters for, as an assignment. -/
def assignment (o : Overload) (next : Nat) (p : String) : Ty :=
  ((o.exchange next).bindings.find? p).getD (.param p)

theorem assignment_of_mem {o : Overload} (next : Nat) {p : String} (hp : p ∈ o.typeParams) :
    o.assignment next p = .var (next + o.typeParams.idxOf p) := by
  rw [assignment, bindings_find?_exchange, if_pos hp, Option.getD_some]

theorem find?_exchange_param {o : Overload} (h : ∀ t ∈ o.types, t.Exposed) (next : Nat) {t u : Ty}
    (ht : t ∈ o.types) (hu : u ∈ t.nodes) (hpar : u.isParam = true) :
    (o.exchange next).find? u = some (.var (next + o.typeParams.idxOf u.name)) := by
  rw [Mapping.find?, Ty.key_of_params_nil ((h t ht).params_nil hu hpar), bindings_find?_exchange,
    if_pos (mem_typeParams_of_exposed h ht hu hpar)]

/-- One step more than a type has levels is enough, for the step from a parameter to its
variable. -/
theorem substituteWithin_exchange {o : Overload} {next : Nat} (h : o.HygienicAt next) {t u : Ty}
    (ht : t ∈ o.types) (hu : u ∈ t.nodes) :
    (o.exchange next).substituteWithin false (u.size + 1) u =
      some (u.instantiate (o.assignment next)) := by
  induction u using Ty.induct with
  | node u ih =>
    rw [Mapping.substituteWithin]
    cases hpar : u.isParam with
    | true =>
      have hmem := mem_typeParams_of_exposed h.exposed ht hu hpar
      have hnone := find?_exchange_var h.toClearAt (List.idxOf_lt_length_of_mem hmem)
      rw [find?_exchange_param h.exposed next ht hu hpar, Ty.instantiate_of_isParam hpar,
        assignment_of_mem next hmem]
      refine Mapping.substituteWithin_mono (d := 1) ?_ u.size_pos
      rw [Mapping.substituteWithin, hnone]
      rfl
    | false =>
      rw [skips_exchange h.toClearAt ht u hu hpar, Ty.instantiate_of_not_isParam hpar]
      simp only [Bool.false_and, Bool.false_eq_true, if_false]
      cases hk : u.kind.isParameterized with
      | false =>
        -- nothing below is exchanged, and there is no parameter
        have hclosed : u.params.map (Ty.instantiate (o.assignment next)) = u.params := by
          rw [List.map_congr_left fun c hc =>
            Ty.instantiate_eq_self (h.exposed t ht u hu hk c hc).2]
          exact List.map_id _
        rw [Bool.false_and, if_neg (by simp), hclosed, Ty.withParams_self]
      | true =>
        have hparams : u.params.mapM ((o.exchange next).substituteWithin false u.size) =
            some (u.params.map (Ty.instantiate (o.assignment next))) := by
          rw [Mapping.mapM_eq_some_iff, List.map_map]
          refine List.map_congr_left fun c hc => ?_
          have hnode := Ty.mem_nodes_of_mem_params hc (Ty.mem_nodes_self c)
          have hc' := ih c hc (Ty.mem_nodes_trans hu hnode)
          exact Mapping.substituteWithin_mono hc' (Ty.size_lt_of_mem_params hc)
        by_cases hnil : u.params = []
        · have hself := u.withParams_self
          rw [hnil] at hself
          simp [hnil, hself]
        · rw [hparams, if_pos (by simp [hnil])]
          rfl

/-- **Exchanging gives every parameter its variable**, and changes nothing else. -/
theorem substitute_exchange {o : Overload} {next : Nat} (h : o.HygienicAt next) {t : Ty}
    (ht : t ∈ o.types) :
    (o.exchange next).substitute false t = t.instantiate (o.assignment next) := by
  have hsome := (acyclic_exchange h.toClearAt).isSome_substitute? (apart_exchange o next) false
    (skips_exchange h.toClearAt ht)
  exact Mapping.substitute_eq_of_within hsome
    (substituteWithin_exchange h ht (Ty.mem_nodes_self t))

/-- A renamed parameter has the variable that it had before. -/
theorem assignment_rename {o : Overload} {ρ : String → String} (h : o.Hygienic)
    (hρ : Set.InjOn ρ {p | p ∈ o.typeParams}) (next : Nat) {p : String} (hp : p ∈ o.typeParams) :
    (o.rename ρ).assignment next (ρ p) = o.assignment next p := by
  have hb := bindings_find?_exchange o next p
  rw [if_pos hp] at hb
  have hfind : ((o.rename ρ).exchange next).bindings.find? (ρ p) =
      (o.exchange next).bindings.find? p := by
    unfold exchange
    rw [typeParams_rename h hρ]
    exact freshMapping_map hρ (fun _ hq => hq) hp next rfl
  unfold assignment
  rw [hfind, hb, Option.getD_some, Option.getD_some]

/-- **New type variables in place of the type parameters forget their names.** -/
theorem instantiate_rename {o : Overload} {ρ : String → String} (h : o.Hygienic)
    (h' : (o.rename ρ).Hygienic) (hρ : Set.InjOn ρ {p | p ∈ o.typeParams}) (next : Nat) :
    (o.rename ρ).instantiate next = o.instantiate next := by
  have hparams := typeParams_rename h hρ
  unfold instantiate
  dsimp only
  rw [hparams]
  cases hempty : o.typeParams with
  | nil =>
    have hself : ∀ t ∈ o.types, t.rename ρ = t := by
      intro t ht
      refine Ty.rename_eq_self fun u hu => ?_
      cases hpar : u.isParam with
      | false => rfl
      | true =>
        have hmem := mem_typeParams_of_exposed h.exposed ht hu hpar
        rw [hempty] at hmem
        exact absurd hmem List.not_mem_nil
    obtain ⟨hargs, hresult⟩ := forall_types_iff.mp hself
    have hargs' : o.args.map (Ty.rename ρ) = o.args := by
      rw [List.map_congr_left hargs]
      exact List.map_id _
    show (o.args.map (Ty.rename ρ), o.result.rename ρ, next) = (o.args, o.result, next)
    rw [hargs', hresult]
  | cons p rest =>
    have hsubst : ∀ t ∈ o.types, ((o.rename ρ).exchange next).substitute false (t.rename ρ) =
        (o.exchange next).substitute false t := by
      intro t ht
      have ht' : t.rename ρ ∈ (o.rename ρ).types := by
        rw [types_rename]
        exact List.mem_map_of_mem ht
      rw [substitute_exchange (h.hygienicAt next) ht, substitute_exchange (h'.hygienicAt next) ht',
        Ty.instantiate_rename]
      exact Ty.instantiate_congr fun u hu hpar =>
        assignment_rename h hρ next (mem_typeParams_of_exposed h.exposed ht hu hpar)
    obtain ⟨hargs, hresult⟩ := forall_types_iff.mp hsubst
    unfold exchange at hargs hresult
    rw [hparams, hempty] at hargs hresult
    have hargs' := List.map_congr_left hargs
    rw [← Function.comp_def, ← List.map_map] at hargs'
    show (List.map _ (o.args.map (Ty.rename ρ)),
      Mapping.substitute _ false (o.result.rename ρ), _) = _
    rw [hargs', hresult, List.length_map]
    rfl

/-- An overload and the same with its type parameters renamed, no two to the same name. -/
def Renamed (o p : Overload) : Prop :=
  ∃ ρ : String → String, Set.InjOn ρ {p | p ∈ o.typeParams} ∧ p = o.rename ρ

theorem Renamed.alike {o p : Overload} (h : o.Renamed p) (ho : o.Hygienic) (hp : p.Hygienic) :
    o.Alike p := by
  obtain ⟨ρ, hρ, rfl⟩ := h
  exact ⟨rfl, rfl, instantiate_rename ho hp hρ⟩

end Overload

/-! ## Environments -/

/-- A function and the same with the type parameters of each overload renamed. -/
structure FunctionDecl.Renamed (f g : FunctionDecl) : Prop where
  /-- They differ in the overloads only. -/
  same : g = { f with overloads := g.overloads }
  /-- The overloads are renamed, one by one. -/
  overloads : List.Forall₂ Overload.Renamed f.overloads g.overloads

/-- The declarations of a scope and the same with the type parameters of each overload renamed. -/
structure Group.Renamed (g h : Group) : Prop where
  /-- The identifiers are the same. -/
  idents : h.idents = g.idents
  /-- The functions are renamed, one by one. -/
  functions : List.Forall₂ (fun a b => b.1 = a.1 ∧ a.2.Renamed b.2) g.functions.entries
    h.functions.entries

/-- Two environments that differ only in that the type parameters of each overload are renamed. -/
structure Env.Renamed (e : Env) (s : Store) (f : Env) (t : Store) : Prop where
  /-- They differ in the scopes only. -/
  same : f = { e with scopes := f.scopes }
  /-- The declarations are renamed, scope by scope. -/
  groups : List.Forall₂ (fun i j => (s.group i).Renamed (t.group j)) e.scopes.chain f.scopes.chain

/-- The overloads that an environment may see. -/
def Env.overloads (e : Env) (s : Store) : List Overload :=
  e.scopes.chain.flatMap fun id => (s.group id).functions.values.flatMap FunctionDecl.overloads

theorem FunctionDecl.Renamed.alike {f g : FunctionDecl} (h : f.Renamed g)
    (hf : ∀ o ∈ f.overloads, o.Hygienic) (hg : ∀ o ∈ g.overloads, o.Hygienic) : f.Alike g := by
  refine ⟨by rw [h.same], by rw [h.same], ?_⟩
  have hoverloads := h.overloads
  generalize f.overloads = os at hf hoverloads
  generalize g.overloads = ps at hg hoverloads
  induction hoverloads with
  | nil => exact .nil
  | cons hop _ ih =>
    obtain ⟨ho, hos⟩ := List.forall_mem_cons.mp hf
    obtain ⟨hp, hps⟩ := List.forall_mem_cons.mp hg
    exact .cons (hop.alike ho hp) (ih hos hps)

theorem Group.Renamed.rel_find? {g h : Group} (hgh : g.Renamed h)
    (hg : ∀ a ∈ g.functions.values, ∀ o ∈ a.overloads, o.Hygienic)
    (hh : ∀ a ∈ h.functions.values, ∀ o ∈ a.overloads, o.Hygienic) (name : String) :
    Option.Rel FunctionDecl.Alike (g.functions.find? name) (h.functions.find? name) := by
  have hentries := hgh.functions
  unfold Table.find?
  unfold Table.values at hg hh
  generalize g.functions.entries = as at hg hentries
  generalize h.functions.entries = bs at hh hentries
  induction hentries with
  | nil => exact .none
  | @cons a b as bs hab _ ih =>
    obtain ⟨ha, has⟩ := List.forall_mem_cons.mp hg
    obtain ⟨hb, hbs⟩ := List.forall_mem_cons.mp hh
    rw [Table.lookup, Table.lookup, hab.1]
    split
    · exact .some (hab.2.alike ha hb)
    · exact ih has hbs

namespace Env

variable {e f : Env} {s t : Store}

theorem Renamed.findIdent? (h : e.Renamed s f t) (name : String) :
    t.findIdent? f.scopes name = s.findIdent? e.scopes name := by
  unfold Store.findIdent?
  have hgroups := h.groups
  generalize e.scopes.chain = is at hgroups
  generalize f.scopes.chain = js at hgroups
  induction hgroups with
  | nil => rfl
  | cons hij _ ih => rw [List.findSome?_cons, List.findSome?_cons, hij.idents, ih]

theorem Renamed.rel_findFunction? (h : e.Renamed s f t) (he : ∀ o ∈ e.overloads s, o.Hygienic)
    (hf : ∀ o ∈ f.overloads t, o.Hygienic) (name : String) :
    Option.Rel FunctionDecl.Alike (s.findFunction? e.scopes name)
      (t.findFunction? f.scopes name) := by
  unfold overloads at he hf
  unfold Store.findFunction?
  simp only [List.forall_mem_flatMap] at he hf
  have hgroups := h.groups
  generalize e.scopes.chain = is at he hgroups
  generalize f.scopes.chain = js at hf hgroups
  induction hgroups with
  | nil => exact .none
  | @cons i j is js hij _ ih =>
    obtain ⟨hi, his⟩ := List.forall_mem_cons.mp he
    obtain ⟨hj, hjs⟩ := List.forall_mem_cons.mp hf
    rw [List.findSome?_cons, List.findSome?_cons]
    have hfirst := hij.rel_find? hi hj name
    revert hfirst
    generalize (s.group i).functions.find? name = a
    generalize (t.group j).functions.find? name = b
    rintro (@⟨a, b, hab⟩ | _)
    · exact .some hab
    · exact ih his hjs

theorem Renamed.alike (h : e.Renamed s f t) (hs : e.Valid s) (ht : f.Valid t)
    (he : ∀ o ∈ e.overloads s, o.Hygienic) (hf : ∀ o ∈ f.overloads t, o.Hygienic) :
    e.Alike s f t where
  same := h.same
  valid_left := hs
  valid_right := ht
  sees _ _ name _ := by
    unfold Env.sees
    rw [h.findIdent?, h.same]
    rfl
  functions _ _ name _ := h.rel_findFunction? he hf name

end Env

/-- **Renaming the type parameters of overloads changes nothing**: two environments that differ only
in the names of the type parameters of their overloads, each of them renamed in its own way, give
the same results for every expression. -/
theorem check_eq_of_renamed {e f : Env} {s t : Store} (hs : e.Valid s) (ht : f.Valid t)
    (h : e.Renamed s f t) (he : ∀ o ∈ e.overloads s, o.Hygienic)
    (hf : ∀ o ∈ f.overloads t, o.Hygienic) (source : Source) (expr : Expr) :
    (check f t source expr).1 = (check e s source expr).1 :=
  check_eq_of_alike (h.alike hs ht he hf) source expr

/-- A scope with a function `pair` of two overloads, with names for their type parameters. -/
def pairScope (a b c : String) : Group :=
  ⟨.empty, ⟨[("pair", { FunctionDecl.ofName "pair" with
    overloads := [.global "pair_list" [.list (.param a)] (.map (.param a) (.param a)),
      .global "pair_lists" [.list (.param b), .list (.param c)] (.map (.param b) (.param c))] })]⟩⟩

/-- The call `pair([true], [1])`. -/
def pairCall : Expr :=
  .call 1 "pair" none
    [.list 2 [.const 3 (.bool true)] [], .list 4 [.const 5 (.int 1)] []]

theorem renamed_pairScope : (pairScope "T" "T" "U").Renamed (pairScope "A" "U" "T") := by
  refine ⟨rfl, .cons ⟨rfl, rfl, .cons ?_ (.cons ?_ .nil)⟩ .nil⟩
  · refine ⟨fun _ => "A", ?_, rfl⟩
    have hparams : (Overload.global "pair_list" [.list (.param "T")]
        (.map (.param "T") (.param "T"))).typeParams = ["T"] := by decide +kernel
    rw [hparams]
    simp
  · -- the two names change places
    refine ⟨fun p => if p = "T" then "U" else "T", ?_, ?_⟩
    · have hparams : (Overload.global "pair_lists" [.list (.param "T"), .list (.param "U")]
          (.map (.param "T") (.param "U"))).typeParams = ["T", "U"] := by decide +kernel
      rw [hparams]
      simp [Set.InjOn]
    · simp [Overload.global, Overload.rename, Ty.rename, Ty.renameAll, Ty.list, Ty.map, Ty.param]

/-- In `pair` the overloads share the names of their type parameters or do not, and the call has the
type `map(bool, int)` either way. -/
theorem check_eq_of_renamed_pair :
    Env.ofFirst.Renamed ⟨#[pairScope "T" "T" "U"]⟩ .ofFirst ⟨#[pairScope "A" "U" "T"]⟩ ∧
    (check .ofFirst ⟨#[pairScope "A" "U" "T"]⟩ ⟨"", [], .empty⟩ pairCall).1 =
      (check .ofFirst ⟨#[pairScope "T" "T" "U"]⟩ ⟨"", [], .empty⟩ pairCall).1 ∧
    ((check .ofFirst ⟨#[pairScope "A" "U" "T"]⟩ ⟨"", [], .empty⟩ pairCall).1.resultType?.map
      Ty.display) = some "map(bool, int)" := by
  have hrenamed : Env.ofFirst.Renamed ⟨#[pairScope "T" "T" "U"]⟩ .ofFirst
      ⟨#[pairScope "A" "U" "T"]⟩ := ⟨rfl, .cons renamed_pairScope .nil⟩
  have hshared : ∀ o ∈ Env.ofFirst.overloads ⟨#[pairScope "T" "T" "U"]⟩, o.Hygienic := fun o ho =>
    ⟨Overload.distinct_of_heads (by decide +kernel) (by decide +kernel) o ho,
      (by decide +kernel : ∀ o ∈ Env.ofFirst.overloads ⟨#[pairScope "T" "T" "U"]⟩,
        ∀ t ∈ o.types, t.Exposed) o ho⟩
  have hapart : ∀ o ∈ Env.ofFirst.overloads ⟨#[pairScope "A" "U" "T"]⟩, o.Hygienic := fun o ho =>
    ⟨Overload.distinct_of_heads (by decide +kernel) (by decide +kernel) o ho,
      (by decide +kernel : ∀ o ∈ Env.ofFirst.overloads ⟨#[pairScope "A" "U" "T"]⟩,
        ∀ t ∈ o.types, t.Exposed) o ho⟩
  have heq := check_eq_of_renamed (by decide) (by decide) hrenamed hshared hapart
    ⟨"", [], .empty⟩ pairCall
  refine ⟨hrenamed, heq, ?_⟩
  rw [heq]
  decide +kernel

/-- A scope with a function `f` whose result is `int` with a type parameter inside. -/
def leakScope (p : String) : Group :=
  ⟨.empty, ⟨[("f", { FunctionDecl.ofName "f" with
    overloads := [.global "f_0" [] (Ty.int.withParams [.param p])] })]⟩⟩

/-- **A parameter that is not exposed leaks**: the two environments differ in the name of one type
parameter, which is no other name in the signature and none of a type variable, and yet a call of
`f` has the type `int(T)` in one of them and `int(U)` in the other. -/
theorem leaked_parameter :
    Env.ofFirst.Renamed ⟨#[leakScope "T"]⟩ .ofFirst ⟨#[leakScope "U"]⟩ ∧
    (∀ o ∈ Env.ofFirst.overloads ⟨#[leakScope "T"]⟩, o.Distinct) ∧
    (∀ o ∈ Env.ofFirst.overloads ⟨#[leakScope "U"]⟩, o.Distinct) ∧
    ((check .ofFirst ⟨#[leakScope "T"]⟩ ⟨"", [], .empty⟩ (.call 1 "f" none [])).1.resultType?.map
      Ty.display) = some "int(T)" ∧
    ((check .ofFirst ⟨#[leakScope "U"]⟩ ⟨"", [], .empty⟩ (.call 1 "f" none [])).1.resultType?.map
      Ty.display) = some "int(U)" := by
  have hrenamed : (Overload.global "f_0" [] (Ty.int.withParams [.param "T"])).Renamed
      (.global "f_0" [] (Ty.int.withParams [.param "U"])) := by
    refine ⟨fun _ => "U", ?_, rfl⟩
    have hparams :
        (Overload.global "f_0" [] (Ty.int.withParams [.param "T"])).typeParams = ["T"] := by
      decide +kernel
    rw [hparams]
    simp
  exact ⟨⟨rfl, .cons ⟨rfl, .cons ⟨rfl, rfl, .cons hrenamed .nil⟩ .nil⟩ .nil⟩,
    Overload.distinct_of_heads (by decide +kernel) (by decide +kernel),
    Overload.distinct_of_heads (by decide +kernel) (by decide +kernel), by decide +kernel,
    by decide +kernel⟩

end CelTyping
