import CelTyping.Proofs.Check.Policy

/-!
# Type variables and the type parameters of overloads

A check makes up type variables, which are type parameters with names of their own: `_var0`,
`_var1` and so on.  Declarations keep clear of these names.  What is declared as the type of an
identifier or of a field has no type parameters at all (`Ty.Closed`), and the type parameters of an
overload are exchanged for type variables before it is used, so all type parameters that a check
comes across are type variables (`Ty.OverVars`).

* `bindings_find?_exchange`: every parameter is exchanged for the variable of its place.
* `find?_exchange_var`: no variable is exchanged, so an exchange ends (`acyclic_exchange`).
* `overVars_exchange`: after the exchange the types of an overload are over type variables.
-/

namespace CelTyping

namespace Ty

/-! ## Names -/

/-- The name of the type variable of a number. -/
def varName (n : Nat) : String := "_var" ++ toString n

theorem var_eq (n : Nat) : Ty.var n = param (varName n) := rfl

theorem toList_varName (n : Nat) : (varName n).toList = "_var".toList ++ Nat.toDigits 10 n := by
  have hrepr : (toString n).toList = Nat.toDigits 10 n := by
    rw [Nat.toString_eq_repr, Nat.repr, String.toList_ofList]
  unfold varName
  rw [String.toList_append, hrepr]

/-- Type variables of different numbers have different names. -/
theorem varName_inj {m n : Nat} (h : varName m = varName n) : m = n := by
  have hdigits : Nat.toDigits 10 m = Nat.toDigits 10 n := by
    have hlists := congrArg String.toList h
    rw [toList_varName, toList_varName] at hlists
    exact List.append_cancel_left hlists
  rw [← @Nat.ofDigitChars_ten_toDigits m, hdigits, Nat.ofDigitChars_ten_toDigits]

/-- A name that does not start with an underscore is not the name of a type variable. -/
theorem ne_varName {name : String} (h : name.toList.head? ≠ some '_') (n : Nat) :
    name ≠ varName n := by
  rintro rfl
  refine h ?_
  unfold varName
  rw [String.toList_append]
  rfl

theorem notMem_varName (n : Nat) : ')' ∉ (varName n).toList := by
  rw [toList_varName, List.mem_append, not_or]
  refine ⟨by decide, fun h => ?_⟩
  exact absurd (Nat.isDigit_of_mem_toDigits (by decide) (by decide) h) (by decide)

/-- A text with something in brackets is not the name of a type variable. -/
theorem applied_ne_varName (name : String) {args : List String} (h : args ≠ []) (n : Nat) :
    applied name args ≠ varName n := by
  intro heq
  refine notMem_varName n ?_
  rw [← heq]
  cases args with
  | nil => exact absurd rfl h
  | cons a rest => simp [applied]

/-! ## Types by their parameters -/

/-- A well-formed type without reserved names. -/
structure Declared (t : Ty) : Prop where
  /-- Only nodes of the kinds that carry parameters have parameters. -/
  wellFormed : t.WellFormed
  /-- No node has the name of a type variable. -/
  name_ne : ∀ u ∈ t.nodes, ∀ n, u.name ≠ varName n

theorem declared_of {t : Ty} (hwf : t.WellFormed)
    (hname : ∀ u ∈ t.nodes, u.name.toList.head? ≠ some '_') : t.Declared :=
  ⟨hwf, fun u hu => ne_varName (hname u hu)⟩

/-- A well-formed type without reserved names and without type parameters. -/
structure Closed (t : Ty) : Prop extends Declared t where
  /-- No node is a type parameter. -/
  isParam : ∀ u ∈ t.nodes, u.isParam = false

/-- A well-formed type whose type parameters are type variables. -/
structure OverVars (t : Ty) : Prop where
  /-- Only nodes of the kinds that carry parameters have parameters. -/
  wellFormed : t.WellFormed
  /-- The type parameters are the nodes with the name of a type variable. -/
  isParam_iff : ∀ u ∈ t.nodes, u.isParam = true ↔ ∃ n, u.name = varName n

theorem Closed.overVars {t : Ty} (h : t.Closed) : t.OverVars where
  wellFormed := h.wellFormed
  isParam_iff u hu := by
    rw [h.isParam u hu]
    refine ⟨fun hfalse => absurd hfalse (by simp), ?_⟩
    rintro ⟨n, hn⟩
    exact absurd hn (h.name_ne u hu n)

theorem mem_nodes_var {u : Ty} {n : Nat} (hu : u ∈ (Ty.var n).nodes) : u = Ty.var n := by
  rw [nodes_eq] at hu
  exact List.mem_singleton.mp hu

theorem overVars_var (n : Nat) : (Ty.var n).OverVars where
  wellFormed u hu := by
    rw [mem_nodes_var hu]
    exact Or.inl rfl
  isParam_iff u hu := by
    rw [mem_nodes_var hu]
    exact ⟨fun _ => ⟨n, rfl⟩, fun _ => rfl⟩

theorem OverVars.of_mem_params {t c : Ty} (h : t.OverVars) (hc : c ∈ t.params) : c.OverVars where
  wellFormed := h.wellFormed.of_mem_params hc
  isParam_iff u hu := h.isParam_iff u (mem_nodes_of_mem_params hc hu)

/-- A node that is no parameter, over types over type variables. -/
theorem overVars_node {t : Ty} (hroot : t.params = [] ∨ t.kind.isParameterized = true)
    (hpar : t.isParam = false) (hname : ∀ n, t.name ≠ varName n)
    (hparams : ∀ c ∈ t.params, c.OverVars) : t.OverVars where
  wellFormed := forall_nodes_iff.mpr ⟨hroot, fun c hc => (hparams c hc).wellFormed⟩
  isParam_iff := by
    refine forall_nodes_iff.mpr ⟨?_, fun c hc => (hparams c hc).isParam_iff⟩
    rw [hpar]
    refine ⟨fun hfalse => absurd hfalse (by simp), ?_⟩
    rintro ⟨n, hn⟩
    exact absurd hn (hname n)

theorem overVars_plain {kind : Kind} {name : String} {traits : List Trait}
    (hkind : (kind == .typeParam) = false) (hname : name.toList.head? ≠ some '_') :
    (plain kind name traits).OverVars :=
  overVars_node (Or.inl rfl) hkind (ne_varName hname) (by simp [plain])

theorem overVars_made {kind : Kind} {name : String} {params : List Ty} {traits : TraitSet}
    {acceptance : Acceptance} (hkind : kind.isParameterized = true)
    (hname : name.toList.head? ≠ some '_') (hparams : ∀ c ∈ params, c.OverVars) :
    OverVars ⟨kind, name, params, traits, acceptance⟩ :=
  overVars_node (Or.inr hkind) (isParam_of_isParameterized hkind) (ne_varName hname) hparams

theorem OverVars.name_ne {t u : Ty} (h : t.OverVars) (hu : u ∈ t.nodes) (hpar : u.isParam = false)
    (n : Nat) : u.name ≠ varName n := by
  intro hn
  rw [(h.isParam_iff u hu).mpr ⟨n, hn⟩] at hpar
  exact absurd hpar (by simp)

theorem OverVars.withParams {t : Ty} {ps : List Ty} (h : t.OverVars)
    (hk : t.kind.isParameterized = true) (hps : ∀ c ∈ ps, c.OverVars) :
    (t.withParams ps).OverVars := by
  have hpar : t.isParam = false := isParam_of_isParameterized hk
  have hname : ∀ n, t.name ≠ varName n := h.name_ne (mem_nodes_self t) hpar
  exact overVars_node (Or.inr hk) hpar hname hps

/-- In a type over type variables only these have keys like type variables. -/
theorem OverVars.key_ne {t u : Ty} (h : t.OverVars) (hu : u ∈ t.nodes) (hpar : u.isParam = false)
    (n : Nat) : u.key ≠ varName n := by
  rw [key_eq]
  cases u.params with
  | nil => exact h.name_ne hu hpar n
  | cons c rest => exact applied_ne_varName _ (by simp [keys]) n

theorem OverVars.key_eq_varName {t : Ty} (h : t.OverVars) (hpar : t.isParam = true) :
    ∃ n, t.key = varName n := by
  rw [key_of_params_nil (h.wellFormed.params_nil_of_isParam hpar)]
  exact (h.isParam_iff t (mem_nodes_self t)).mp hpar

/-! ## Collecting parameters -/

theorem mem_appendNew {names : List String} {name p : String} :
    p ∈ appendNew names name ↔ p ∈ names ∨ p = name := by
  unfold appendNew
  split
  · next h =>
    refine ⟨Or.inl, ?_⟩
    rintro (hp | rfl)
    · exact hp
    · exact h
  · rw [List.mem_append, List.mem_singleton]

theorem nodup_appendNew {names : List String} (h : names.Nodup) (name : String) :
    (appendNew names name).Nodup := by
  unfold appendNew
  split
  · exact h
  · next hname => exact List.nodup_append.mpr ⟨h, by simp, by grind⟩

mutual

theorem nodup_collectParams {names : List String} (h : names.Nodup) :
    (t : Ty) → (t.collectParams names).Nodup
  | ⟨kind, name, params, _, _⟩ => by
    rw [collectParams]
    split
    · exact nodup_appendNew h name
    · exact nodup_collectAllParams h params

/-- Collecting finds no parameter twice. -/
theorem nodup_collectAllParams {names : List String} (h : names.Nodup) :
    (ts : List Ty) → (collectAllParams names ts).Nodup
  | [] => h
  | t :: rest => nodup_collectAllParams (nodup_collectParams h t) rest

end

theorem mem_collectAllParams_of {p : String} {ts : List Ty}
    (h : ∀ t ∈ ts, ∀ names, p ∈ t.collectParams names ↔
      p ∈ names ∨ ∃ u ∈ t.nodes, u.isParam = true ∧ u.name = p) (names : List String) :
    p ∈ collectAllParams names ts ↔
      p ∈ names ∨ ∃ t ∈ ts, ∃ u ∈ t.nodes, u.isParam = true ∧ u.name = p := by
  induction ts generalizing names with
  | nil => simp [collectAllParams]
  | cons t rest ih =>
    obtain ⟨ht, hrest⟩ := List.forall_mem_cons.mp h
    rw [collectAllParams, ih hrest, ht, List.exists_mem_cons_iff, or_assoc]

/-- Collecting finds the names of the type parameters that occur in a type. -/
theorem mem_collectParams_iff {t : Ty} (ht : ∀ u ∈ t.nodes, u.isParam = true → u.params = [])
    {p : String} (names : List String) :
    p ∈ t.collectParams names ↔ p ∈ names ∨ ∃ u ∈ t.nodes, u.isParam = true ∧ u.name = p := by
  induction t using Ty.induct generalizing names with
  | node t ih =>
    have hroot : t.collectParams names = if t.kind = .typeParam then appendNew names t.name
        else collectAllParams names t.params := by
      cases t
      rw [collectParams]
    rw [hroot]
    split
    · next hk =>
      have hpar : t.isParam = true := isParam_iff.mpr hk
      rw [mem_appendNew]
      refine or_congr_right ⟨?_, ?_⟩
      · rintro rfl
        exact ⟨t, mem_nodes_self t, hpar, rfl⟩
      · rintro ⟨u, hu, -, rfl⟩
        rcases mem_nodes_iff.mp hu with rfl | ⟨c, hc, -⟩
        · rfl
        · rw [ht t (mem_nodes_self t) hpar] at hc
          exact absurd hc List.not_mem_nil
    · next hk =>
      rw [mem_collectAllParams_of fun c hc names =>
        ih c hc (fun u hu => ht u (mem_nodes_of_mem_params hc hu)) names]
      refine or_congr_right ⟨?_, ?_⟩
      · rintro ⟨c, hc, u, hu, hup⟩
        exact ⟨u, mem_nodes_of_mem_params hc hu, hup⟩
      · rintro ⟨u, hu, hpar, hname⟩
        rcases mem_nodes_iff.mp hu with rfl | ⟨c, hc, huc⟩
        · exact absurd (isParam_iff.mp hpar) hk
        · exact ⟨c, hc, u, huc, hpar, hname⟩

end Ty

namespace Overload

/-- The formal types and the result type. -/
def types (o : Overload) : List Ty := o.args ++ [o.result]

/-- An overload with well-formed types and without reserved names, in which the type parameters
have keys of their own. -/
structure Clean (o : Overload) : Prop where
  /-- The types are well-formed and without reserved names. -/
  declared : ∀ t ∈ o.types, t.Declared
  /-- No type but a parameter has the name of a parameter for its key. -/
  key_notMem : ∀ t ∈ o.types, ∀ u ∈ t.nodes, u.isParam = false → u.key ∉ o.typeParams

/-- The type parameters of an overload have names of their own: no other type of the signature has
one of them for its key, and none is the name of a type variable. -/
structure Distinct (o : Overload) : Prop where
  /-- No type but a parameter has the name of a parameter for its key. -/
  key_notMem : ∀ t ∈ o.types, ∀ u ∈ t.nodes, u.isParam = false → u.key ∉ o.typeParams
  /-- No parameter has the name of a type variable. -/
  ne_var : ∀ p ∈ o.typeParams, ∀ n, p ≠ Ty.varName n

/-- The type parameters of an overload have names of their own when the type variables from a
number on are to take their places: no other type of the signature has one of them for its key, and
none is the name of one of these variables. -/
structure ClearAt (o : Overload) (next : Nat) : Prop where
  /-- No type but a parameter has the name of a parameter for its key. -/
  key_notMem : ∀ t ∈ o.types, ∀ u ∈ t.nodes, u.isParam = false → u.key ∉ o.typeParams
  /-- No parameter has the name of a type variable that takes the place of one. -/
  ne_var : ∀ p ∈ o.typeParams, ∀ i < o.typeParams.length, p ≠ Ty.varName (next + i)

theorem Distinct.clearAt {o : Overload} (h : o.Distinct) (next : Nat) : o.ClearAt next :=
  ⟨h.key_notMem, fun p hp i _ => h.ne_var p hp (next + i)⟩

theorem nodup_typeParams (o : Overload) : o.typeParams.Nodup :=
  Ty.nodup_collectAllParams List.nodup_nil _

theorem mem_typeParams_iff {o : Overload}
    (h : ∀ t ∈ o.types, ∀ u ∈ t.nodes, u.isParam = true → u.params = []) {p : String} :
    p ∈ o.typeParams ↔ ∃ t ∈ o.types, ∃ u ∈ t.nodes, u.isParam = true ∧ u.name = p := by
  have hcollect := Ty.mem_collectAllParams_of (p := p) (fun t ht names =>
    Ty.mem_collectParams_iff (h t ht) names) []
  rw [or_iff_right List.not_mem_nil] at hcollect
  exact hcollect

theorem Clean.params_nil {o : Overload} (h : o.Clean) :
    ∀ t ∈ o.types, ∀ u ∈ t.nodes, u.isParam = true → u.params = [] :=
  fun t ht _ hu => ((h.declared t ht).wellFormed.of_mem_nodes hu).params_nil_of_isParam

theorem Clean.distinct {o : Overload} (h : o.Clean) : o.Distinct where
  key_notMem := h.key_notMem
  ne_var p hp n := by
    obtain ⟨t, ht, u, hu, -, rfl⟩ := (mem_typeParams_iff h.params_nil).mp hp
    exact (h.declared t ht).name_ne u hu n

/-! ## The mapping of parameters to variables -/

/-- Every parameter is bound to the variable of its place, and nothing else is bound. -/
theorem bindings_find?_freshMapping {params : List String} (hparams : params.Nodup) (p : String) :
    ∀ (next : Nat) (m : Mapping), (freshMapping params next m).bindings.find? p =
      if p ∈ params then some (Ty.var (next + params.idxOf p)) else m.bindings.find? p := by
  induction params with
  | nil =>
    intro next m
    rw [freshMapping, if_neg List.not_mem_nil]
  | cons q rest ih =>
    intro next m
    obtain ⟨hq, hrest⟩ := List.nodup_cons.mp hparams
    rw [freshMapping, ih hrest, Mapping.bindings_find?_add, Ty.key_param]
    by_cases hpq : p = q
    · rw [hpq, if_neg hq, if_pos rfl, if_pos List.mem_cons_self, List.idxOf_cons_self, Nat.add_zero]
    · rw [if_neg hpq, List.idxOf_cons_ne rest fun h => hpq h.symm]
      simp only [List.mem_cons, hpq, false_or]
      rw [Nat.add_right_comm, Nat.add_assoc]

/-- The mapping that exchanges the type parameters of an overload for type variables. -/
def exchange (o : Overload) (next : Nat) : Mapping := freshMapping o.typeParams next .empty

/-- **Every parameter is exchanged for the variable of its place.** -/
theorem bindings_find?_exchange (o : Overload) (next : Nat) (p : String) :
    (o.exchange next).bindings.find? p =
      if p ∈ o.typeParams then some (Ty.var (next + o.typeParams.idxOf p)) else none :=
  bindings_find?_freshMapping o.nodup_typeParams p next .empty

theorem exchange_cases {o : Overload} {next : Nat} {p : String} {b : Ty}
    (hb : (o.exchange next).bindings.find? p = some b) :
    p ∈ o.typeParams ∧ ∃ i < o.typeParams.length, b = Ty.var (next + i) := by
  rw [bindings_find?_exchange] at hb
  split at hb
  · next hp => exact ⟨hp, _, List.idxOf_lt_length_of_mem hp, (Option.some.inj hb).symm⟩
  · exact absurd hb (by simp)

/-- A call leaves alone formal types in which nothing has the name of a type parameter. -/
theorem instantiate_args {o : Overload} (next : Nat)
    (h : ∀ t ∈ o.args, ∀ u ∈ t.nodes, u.key ∉ o.typeParams) :
    (o.instantiate next).1 = o.args := by
  unfold instantiate
  dsimp only
  split
  · rfl
  · show o.args.map ((o.exchange next).substitute false) = o.args
    refine (List.map_congr_left fun t ht => ?_).trans (List.map_id _)
    refine Mapping.substitute_eq_self fun u hu => ?_
    rw [Mapping.find?, bindings_find?_exchange, if_neg (h t ht u hu)]

theorem apart_exchange (o : Overload) (next : Nat) : (o.exchange next).Apart := by
  intro p b hb u hu hpar
  obtain ⟨-, i, -, rfl⟩ := exchange_cases hb
  rw [Ty.mem_nodes_var hu, Ty.var_eq, Ty.isParam_param] at hpar
  exact absurd hpar (by simp)

section ClearAt

variable {o : Overload} {next : Nat} (h : o.ClearAt next)

include h

/-- **No variable is exchanged**, so exchanging the parameters of an overload ends. -/
theorem find?_exchange_var {i : Nat} (hi : i < o.typeParams.length) :
    (o.exchange next).find? (Ty.var (next + i)) = none := by
  cases hb : (o.exchange next).find? (Ty.var (next + i)) with
  | none => rfl
  | some b =>
    obtain ⟨hp, -⟩ := exchange_cases hb
    rw [Ty.var_eq, Ty.key_param] at hp
    exact absurd rfl (h.ne_var _ hp i hi)

theorem acyclic_exchange : (o.exchange next).Acyclic := by
  intro p hcycle
  -- a cycle would leave the variable that its first step leads to
  obtain ⟨q, ⟨b, hb, u, hu, -, rfl⟩, hreturn⟩ := Relation.TransGen.head'_iff.mp hcycle
  obtain ⟨hp, i, hi, rfl⟩ := exchange_cases hb
  rw [Ty.mem_nodes_var hu] at hreturn
  rcases Relation.ReflTransGen.cases_head hreturn with hq | ⟨r, ⟨c, hc, -⟩, -⟩
  · rw [Ty.var_eq, Ty.key_param] at hq
    exact h.ne_var p hp i hi hq.symm
  · have hnone := find?_exchange_var h hi
    rw [Mapping.find?, hc] at hnone
    exact absurd hnone (by simp)

theorem skips_exchange {t : Ty} (ht : t ∈ o.types) : (o.exchange next).Skips t := by
  intro u hu hpar
  cases hb : (o.exchange next).find? u with
  | none => rfl
  | some b => exact absurd (exchange_cases hb).1 (h.key_notMem t ht u hu hpar)

end ClearAt

section Clean

variable {o : Overload} (h : o.Clean) (next : Nat)

include h

/-- **The types of an overload are over type variables** once its parameters are exchanged. -/
theorem overVars_exchange {s t : Ty} (hs : s ∈ o.types) (ht : t ∈ s.nodes) :
    ((o.exchange next).substitute false t).OverVars := by
  have hclear := h.distinct.clearAt next
  have hac := acyclic_exchange hclear
  have hapart := apart_exchange o next
  induction t using Ty.induct with
  | node t ih =>
    have hwf := (h.declared s hs).wellFormed.of_mem_nodes ht
    have hskip : (o.exchange next).Skips t := fun u hu =>
      skips_exchange hclear hs u (Ty.mem_nodes_trans ht hu)
    cases hpar : t.isParam with
    | true =>
      -- a parameter is bound to a variable, and the variable to nothing
      have hkey : t.key = t.name := Ty.key_of_params_nil (hwf.params_nil_of_isParam hpar)
      have hmem : t.key ∈ o.typeParams := by
        rw [hkey, mem_typeParams_iff h.params_nil]
        exact ⟨s, hs, t, ht, hpar, rfl⟩
      have hb : (o.exchange next).find? t = some (.var (next + o.typeParams.idxOf t.key)) := by
        rw [Mapping.find?, bindings_find?_exchange, if_pos hmem]
      rw [Mapping.substitute_of_bound hac hapart hskip hb,
        Mapping.substitute_of_unbound hac hapart (hapart _ _ hb) rfl
          (find?_exchange_var hclear (List.idxOf_lt_length_of_mem hmem))]
      exact Ty.overVars_var _
    | false =>
      rw [Mapping.substitute_of_not_isParam hac hapart hskip hwf hpar]
      refine Ty.overVars_node ?_ hpar ((h.declared s hs).name_ne t ht) fun c hc => ?_
      · refine (hwf t (Ty.mem_nodes_self t)).imp_left fun hnil => ?_
        show t.params.map _ = []
        rw [hnil, List.map_nil]
      · obtain ⟨d, hd, rfl⟩ := List.mem_map.mp hc
        exact ih d hd (Ty.mem_nodes_trans ht (Ty.mem_nodes_of_mem_params hd (Ty.mem_nodes_self d)))

/-- An overload without type parameters is over type variables as it stands. -/
theorem overVars_of_isEmpty (hempty : o.typeParams = []) {t : Ty} (ht : t ∈ o.types) :
    t.OverVars := by
  refine Ty.Closed.overVars ⟨h.declared t ht, fun u hu => ?_⟩
  cases hpar : u.isParam with
  | false => rfl
  | true =>
    have hmem := (mem_typeParams_iff h.params_nil).mpr ⟨t, ht, u, hu, hpar, rfl⟩
    rw [hempty] at hmem
    exact absurd hmem List.not_mem_nil

end Clean

theorem forall_types_iff {o : Overload} {P : Ty → Prop} :
    (∀ t ∈ o.types, P t) ↔ (∀ t ∈ o.args, P t) ∧ P o.result := by
  unfold types
  rw [List.forall_mem_append, List.forall_mem_singleton]

/-- A family that has all type variables and is closed under taking parameters and giving others
keeps the types of an overload. -/
theorem supplies_of_forall {U : Ty → Prop} (hvar : ∀ n, U (.var n))
    (hparams : ∀ t, U t → ∀ c ∈ t.params, U c)
    (hwith : ∀ t ps, U t → t.kind.isParameterized = true → (∀ c ∈ ps, U c) → U (t.withParams ps))
    {o : Overload} (h : ∀ t ∈ o.types, U t) : o.Supplies U := by
  intro next
  have hbound : ∀ p b, (o.exchange next).bindings.find? p = some b → U b := by
    intro p b hb
    obtain ⟨-, i, -, rfl⟩ := exchange_cases hb
    exact hvar (next + i)
  unfold instantiate
  dsimp only
  split
  · exact forall_types_iff.mp h
  · have hsubst : ∀ t ∈ o.types, U ((o.exchange next).substitute false t) := fun t ht =>
      Mapping.substitute_mem (by simp) hbound hparams hwith (h t ht)
    obtain ⟨hargs, hresult⟩ := forall_types_iff.mp hsubst
    exact ⟨List.forall_mem_map.mpr hargs, hresult⟩

theorem supplies_of_clean {o : Overload} (h : o.Clean) : o.Supplies Ty.OverVars := by
  intro next
  unfold instantiate
  dsimp only
  split
  · next hempty =>
    exact forall_types_iff.mp fun t ht =>
      overVars_of_isEmpty h (List.isEmpty_iff.mp hempty) ht
  · obtain ⟨hargs, hresult⟩ := forall_types_iff.mp fun t ht =>
      overVars_exchange h next ht (Ty.mem_nodes_self t)
    exact ⟨List.forall_mem_map.mpr hargs, hresult⟩

end Overload

end CelTyping
