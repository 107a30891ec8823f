import CelTyping.Config.Build
import CelTyping.Proofs.Env.Retention
import CelTyping.Proofs.Ty.RoundTrip
import CelTyping.Proofs.Unification.Ground

/-!
# What a configuration declares

An environment that is built from a configuration contains what the configuration says.  Between the
text of a type and the answer to a lookup there are five stages: the text is read, the container and
the message types are set up, the standard declarations are added, then the variables, then the
functions.  Each of them may refuse; none may lose what an earlier one declared.

The type of a variable is read without type parameters, and so being equivalent to it is having its
shape (`isExact_of_isEquivalent`).  The types of an overload may have type parameters, and what is
found under its id may be a declaration that was there before, with other names for them.

A name with a leading dot is looked up as it is, whatever the container is, unless it is an alias.
-/

namespace CelTyping

/-! ## Types of variables -/

namespace Ty

theorem ground_of_params {t : Ty} (hroot : t.isParam = false) (hparams : ∀ p ∈ t.params, p.Ground) :
    t.Ground :=
  forall_nodes_iff.mpr ⟨hroot, hparams⟩

theorem Ground.nullable {t : Ty} (h : t.Ground) : t.nullable.Ground :=
  h.of_shape_eq (by rw [shape_eq, shape_eq]; rfl)

theorem agreeAll_exact : ∀ {as bs : List Ty},
    (∀ a ∈ as, ∀ b : Ty, a.isEquivalent b = true → a.isExact b = true) →
    agreeAll false as bs = true → agreeAll true as bs = true
  | [], [], _, _ => rfl
  | [], _ :: _, _, h => absurd h (by simp [agreeAll])
  | _ :: _, [], _, h => absurd h (by simp [agreeAll])
  | a :: as, b :: bs, ih, h => by
    obtain ⟨iha, ihas⟩ := List.forall_mem_cons.mp ih
    rw [agreeAll, Bool.and_eq_true] at h ⊢
    exact ⟨iha b h.1, agreeAll_exact ihas h.2⟩

/-- What is equivalent to a type without type parameters has its shape. -/
theorem isExact_of_isEquivalent {a b : Ty} (ha : a.Ground) (h : a.isEquivalent b = true) :
    a.isExact b = true := by
  induction a using Ty.induct generalizing b with
  | node a ih =>
    obtain ⟨hkind, hname, hparams⟩ := isEquivalent_iff.mp h
    have hnoparam : a.kind ≠ .typeParam := isParam_iff.not.mp (Bool.eq_false_iff.mp ha.isParam)
    have hname : a.name = b.name := hname.resolve_left hnoparam
    have hparams : agreeAll true a.params b.params = true :=
      agreeAll_exact (fun p hp q => ih p hp (ha.of_mem_params hp)) hparams
    unfold isExact
    rw [agrees_eq]
    simp [hkind, hname, hparams]

theorem ground_wellKnown {name : String} {t : Ty} (h : wellKnown? name = some t) : t.Ground := by
  have hall : ∀ e ∈ wellKnownTypes, e.2.Ground := by decide
  exact hall (name, t) (mem_of_lookup_eq_some h)

theorem ground_object (name : String) : (object name).Ground := by
  unfold object
  cases h : wellKnown? name with
  | some t => exact ground_wellKnown h
  | none => exact ground_of_params rfl fun _ hp => absurd hp List.not_mem_nil

theorem sanitizeAll_eq_map (ts : List Ty) : sanitizeAll ts = ts.map sanitize := by
  induction ts with
  | nil => rfl
  | cons t rest ih => rw [sanitizeAll, ih, List.map_cons]

theorem Ground.sanitize {t : Ty} (h : t.Ground) : t.sanitize.Ground := by
  induction t using Ty.induct with
  | node t ih =>
    obtain ⟨kind, name, params, traits, acceptance⟩ := t
    rw [Ty.sanitize, sanitizeAll_eq_map]
    split
    · cases hknown : wellKnown? name with
      | some known => exact ground_wellKnown hknown
      | none => exact h
    · exact ground_of_params h.isParam
        (List.forall_mem_map.mpr fun p hp => ih p hp (h.of_mem_params hp))

namespace Parsing

/-- Without names of type parameters, types are built from types without type parameters. -/
theorem ground_of_build {name : String} {ps : List Ty} {t : Ty} (hps : ∀ p ∈ ps, p.Ground)
    (h : build [] name ps = .ok t) : t.Ground := by
  unfold build at h
  split at h
  · split at h
    · obtain rfl := Except.ok.inj h
      exact ground_of_params rfl hps
    · exact absurd h (by simp)
  split at h
  · split at h
    · obtain rfl := Except.ok.inj h
      exact ground_of_params rfl hps
    · exact absurd h (by simp)
  split at h
  · split at h
    · obtain rfl := Except.ok.inj h
      exact ground_of_params rfl hps
    · obtain rfl := Except.ok.inj h
      exact ground_of_params rfl hps
    · exact absurd h (by simp)
  split at h
  · split at h
    · obtain rfl := Except.ok.inj h
      exact ground_of_params rfl hps
    · exact absurd h (by simp)
  split at h
  · split at h
    · obtain rfl := Except.ok.inj h
      exact (hps _ List.mem_cons_self).nullable
    · exact absurd h (by simp)
  split at h
  · split at h
    · next hfound =>
      have hall : ∀ e ∈ simpleTypes, e.2.Ground := by decide
      obtain rfl := Except.ok.inj h
      exact hall _ (mem_of_lookup_eq_some hfound)
    · obtain rfl := Except.ok.inj h
      rw [if_neg List.not_mem_nil]
      exact ground_object name
  · obtain rfl := Except.ok.inj h
    exact ground_of_params rfl hps

theorem ground_of_spelled {written : List Char} {t : Ty} (h : Spelled [] written t) :
    t.Ground := by
  induction h with
  | bare _ _ ht => exact ground_of_build (fun _ hp => absurd hp List.not_mem_nil) ht
  | applied _ _ _ _ _ ht ih => exact ground_of_build (List.forall_mem_map.mpr ih) ht

end Parsing

/-- A type that is read without names of type parameters has none. -/
theorem ground_of_parse {text : String} {t : Ty} (h : parse text [] = .ok t) : t.Ground := by
  obtain ⟨_, _, hspelled, -, -⟩ := parse_eq_ok_iff.mp h
  exact Parsing.ground_of_spelled hspelled

end Ty

/-! ## Reading a configuration -/

namespace OverloadConfig

theorem mapM_parse_of_argTypes {function : String} {o : OverloadConfig} {tys : List String}
    {args : List Ty} : ∀ {index : Nat}, o.argTypes function index tys = .ok args →
      tys.mapM (fun ty => Ty.parse ty o.typeParams) = .ok args := by
  induction tys generalizing args with
  | nil =>
    intro index h
    rw [argTypes] at h
    rw [← Except.ok.inj h]
    rfl
  | cons ty tys ih =>
    intro index h
    rw [argTypes] at h
    obtain ⟨t, ht, h⟩ := bind_eq_ok_iff.mp h
    obtain ⟨ts, hts, h⟩ := bind_eq_ok_iff.mp h
    obtain rfl : t :: ts = args := Except.ok.inj h
    rw [List.mapM_cons, eq_ok_of_mapError ht, ih hts]
    rfl

/-- An overload is what its description says, its types being read. -/
theorem toOverload_eq_ok {function : String} {o : OverloadConfig} {p : Overload}
    (h : o.toOverload function = .ok p) :
    p.id = o.id ∧ p.isMember = o.isMember ∧
      o.args.mapM (fun ty => Ty.parse ty o.typeParams) = .ok p.args ∧
      Ty.parse o.result o.typeParams = .ok p.result := by
  unfold toOverload at h
  obtain ⟨args, hargs, h⟩ := bind_eq_ok_iff.mp h
  obtain ⟨result, hresult, h⟩ := bind_eq_ok_iff.mp h
  obtain rfl := Except.ok.inj h
  have hargs := mapM_parse_of_argTypes hargs
  have hresult := eq_ok_of_mapError hresult
  cases o.isMember with
  | true => exact ⟨rfl, rfl, hargs, hresult⟩
  | false => exact ⟨rfl, rfl, hargs, hresult⟩

end OverloadConfig

namespace FunctionConfig

/-- A function is found, and holds an overload for every description of one. -/
theorem toFunction_eq_ok {f : FunctionConfig} {g : FunctionDecl} (h : f.toFunction = .ok g) :
    g.name = f.name ∧ g.isDisabled = false ∧ ∀ o ∈ f.overloads, ∃ p,
      o.toOverload f.name = .ok p ∧ FunctionDecl.Holds g.overloads p := by
  unfold toFunction at h
  obtain ⟨os, hos, h⟩ := bind_eq_ok_iff.mp h
  have hadd : (FunctionDecl.ofName f.name).addOverloads os = .ok g := eq_ok_of_mapError h
  obtain ⟨hname, hstate⟩ := FunctionDecl.addOverloads_unchanged hadd
  refine ⟨hname, ?_, fun o ho => ?_⟩
  · unfold FunctionDecl.isDisabled
    rw [hstate]
    rfl
  · obtain ⟨p, hp, hop⟩ := (exists_of_mapM_eq_ok hos).1 o ho
    exact ⟨p, hop, (FunctionDecl.addOverloads_holds hadd).1 p hp⟩

end FunctionConfig

/-! ## Absolute names -/

theorem Container.candidates_absolute {container : Container}
    (h : container.aliases.entries = []) (name : String) :
    container.candidates ("." ++ name) = [name] := by
  have hchars : ("." ++ name).toList = '.' :: name.toList := by simp
  have hnone : ∀ short, container.aliases.find? short = none := by
    intro short
    unfold Table.find?
    rw [h]
    rfl
  unfold candidates
  rw [hchars]
  simp [findAlias?, hnone]

namespace Env

variable {env env' : Env} {store store' : Store}

theorem lookupIdent_absolute (h : env.container.aliases.entries = []) (name : String) :
    (env.lookupIdent store ("." ++ name)).1 = env.sees store name := by
  rw [lookupIdent_fst, Container.candidates_absolute h, List.findSome?_singleton]

theorem lookupFunction_absolute (h : env.container.aliases.entries = [])
    (henabled : env.AllEnabled store) (name : String) :
    env.lookupFunction store ("." ++ name) = store.findFunction? env.scopes name := by
  unfold lookupFunction
  rw [Container.candidates_absolute h, List.findSome?_singleton]
  cases hfind : store.findFunction? env.scopes name with
  | none => rfl
  | some f => simp [henabled name f hfind]

/-! ## The standard environment -/

theorem container_addIdents (env : Env) (store : Store) (others : List Scopes)
    (vs : List Variable) : (env.addIdents store others vs).1.container = env.container := rfl

theorem container_addFunctions (env : Env) (store : Store) (others : List Scopes)
    (fs : List FunctionDecl) :
    (env.addFunctions store others fs).1.container = env.container := rfl

theorem container_standard (store : Store) (container : Container) (provider : Provider)
    (options : CheckerOptions) : (standard store container provider options).1.container =
      container :=
  standard_induct (P := fun env _ => env.container = container) rfl (fun _ _ h => h) fun _ _ h => h

theorem allEnabled_standard (store : Store) (container : Container) (provider : Provider)
    (options : CheckerOptions) : (standard store container provider options).1.AllEnabled
      (standard store container provider options).2 := by
  have henabled : ∀ f ∈ Standard.functions, f.isDisabled = false := by decide
  have hvalid := valid_bare store container provider options
  have hbare : (bare store container provider options).1.AllEnabled
      (bare store container provider options).2 := by
    intro name f hf
    rw [findFunction?_bare] at hf
    exact absurd hf (by simp)
  refine (standard_induct (P := fun env store => env.Valid store ∧ env.AllEnabled store)
    ⟨hvalid, hbare⟩ (fun env store h => ?_) fun env store h => ?_).2
  · exact ⟨h.1.addIdents _ _, h.2.addIdents h.1 _ _⟩
  · exact ⟨h.1.addFunctions _ _, h.2.addFunctions h.1 _ henabled⟩

end Env

namespace EnvConfig

/-! ## Building -/

variable {c : EnvConfig} {env : Env} {store : Store}

theorem aliases_of_buildContainer {container : Container} (haliases : c.aliases.entries = [])
    (habbreviations : c.abbreviations = []) (h : c.buildContainer = .ok container) :
    container.aliases.entries = [] := by
  unfold buildContainer at h
  obtain ⟨named, hnamed, h⟩ := bind_eq_ok_iff.mp h
  rw [haliases, habbreviations] at h
  obtain rfl : named = container := Except.ok.inj h
  unfold Container.ofName at hnamed
  split at hnamed
  · exact absurd hnamed (by simp)
  · rw [← Except.ok.inj hnamed]
    rfl

theorem eq_of_accepted {outcome : Env × Store × Option DeclarationError}
    (h : accepted outcome = .ok (env, store)) : outcome = (env, store, none) := by
  obtain ⟨env', store', refused⟩ := outcome
  cases refused with
  | some e => exact absurd h (by simp [accepted])
  | none =>
    obtain ⟨rfl, rfl⟩ := Prod.mk.inj (Except.ok.inj h)
    rfl

/-- The stages of building.  Of the environment with the standard declarations it matters only that
nothing in it is disabled. -/
theorem build_stages (h : c.build = .ok (env, store)) :
    ∃ (env₀ env₁ : Env) (store₀ store₁ : Store) (vs : List Variable) (fs : List FunctionDecl),
      c.buildContainer = .ok env₀.container ∧ env₀.Valid store₀ ∧ env₀.AllEnabled store₀ ∧
      c.buildVariables = .ok vs ∧ env₀.addIdents store₀ [] vs = (env₁, store₁, none) ∧
      c.functions.mapM FunctionConfig.toFunction = .ok fs ∧
      env₁.addFunctions store₁ [] fs = (env, store, none) := by
  unfold build at h
  obtain ⟨container, hcontainer, h⟩ := bind_eq_ok_iff.mp h
  obtain ⟨registry, -, h⟩ := bind_eq_ok_iff.mp h
  have hvalid := (Env.built_standard .empty container registry.toProvider c.options).tidy.1
  have henabled := Env.allEnabled_standard .empty container registry.toProvider c.options
  have hnamed := Env.container_standard .empty container registry.toProvider c.options
  generalize Env.standard .empty container registry.toProvider c.options = standard
    at h hvalid henabled hnamed
  obtain ⟨env₀, store₀⟩ := standard
  obtain ⟨vs, hvs, h⟩ := bind_eq_ok_iff.mp h
  obtain ⟨⟨env₁, store₁⟩, hidents, h⟩ := bind_eq_ok_iff.mp h
  obtain ⟨fs, hfs, h⟩ := bind_eq_ok_iff.mp h
  have hcontainer : c.buildContainer = .ok env₀.container :=
    (eq_ok_of_mapError hcontainer).trans (congrArg Except.ok hnamed.symm)
  exact ⟨env₀, env₁, store₀, store₁, vs, fs, hcontainer, hvalid, henabled, hvs,
    eq_of_accepted hidents, hfs, eq_of_accepted h⟩

theorem mem_buildVariables {vs : List Variable} (h : c.buildVariables = .ok vs) :
    ∀ e ∈ c.variableTypes.entries, ∃ t, Ty.parse e.2 [] = .ok t ∧ .ofType e.1 t ∈ vs := by
  rintro ⟨name, ty⟩ he
  obtain ⟨v, hv, hread⟩ := (exists_of_mapM_eq_ok h).1 (name, ty) he
  obtain ⟨t, ht, hread⟩ := bind_eq_ok_iff.mp hread
  obtain rfl : .ofType name t = v := Except.ok.inj hread
  exact ⟨t, eq_ok_of_mapError ht, hv⟩

theorem enabled_of_mapM {fs : List FunctionDecl}
    (h : c.functions.mapM FunctionConfig.toFunction = .ok fs) :
    ∀ f ∈ fs, f.isDisabled = false := by
  intro f hf
  obtain ⟨d, -, hd⟩ := (exists_of_mapM_eq_ok h).2 f hf
  exact (FunctionConfig.toFunction_eq_ok hd).2.1

/-- What is found in an environment that was built, in terms of the declarations that a
configuration stands for.  Functions are added after the variables, which does not change what
identifiers mean. -/
theorem build_declares (h : c.build = .ok (env, store)) :
    ∃ vs fs, c.buildVariables = .ok vs ∧ c.functions.mapM FunctionConfig.toFunction = .ok fs ∧
      (∀ v ∈ vs, ∃ w, env.sees store v.name = some w ∧ w.isEquivalent v.sanitized = true) ∧
      (∀ f ∈ fs, env.Provides store f) ∧ env.AllEnabled store ∧
      c.buildContainer = .ok env.container := by
  obtain ⟨env₀, env₁, store₀, store₁, vs, fs, hcontainer, hvalid, henabled, hvs, hidents, hfs,
    hfunctions⟩ := build_stages h
  have hvalid₁ := hvalid.addIdents [] vs
  have henabled₁ := henabled.addIdents hvalid [] vs
  have hcontainer₁ := env₀.container_addIdents store₀ [] vs
  rw [hidents] at hvalid₁ henabled₁ hcontainer₁
  have henabled₂ := henabled₁.addFunctions hvalid₁ [] (enabled_of_mapM hfs)
  have hcontainer₂ := env₁.container_addFunctions store₁ [] fs
  have hsees := Env.sees_addFunctions hvalid₁ [] fs
  rw [hfunctions] at henabled₂ hcontainer₂ hsees
  refine ⟨vs, fs, hvs, hfs, fun v hv => ?_, Env.addFunctions_finds hvalid₁ hfunctions, henabled₂,
    ?_⟩
  · obtain ⟨w, hw, hequiv⟩ := Env.addIdents_finds hvalid hidents v hv
    exact ⟨w, (hsees v.name).trans hw, hequiv⟩
  · rw [hcontainer₂, hcontainer₁, hcontainer]

/-- **An environment that is built contains what its configuration says.**  Every variable is found
with the type that its text stands for, well-known message types replaced.  Every overload is found
under its id in the function, with its call style and types that are equivalent to what its texts
stand for. -/
theorem build_contains (haliases : c.aliases.entries = []) (habbreviations : c.abbreviations = [])
    (h : c.build = .ok (env, store)) :
    (∀ e ∈ c.variableTypes.entries, ∃ t, Ty.parse e.2 [] = .ok t ∧
      ∃ v, (env.lookupIdent store ("." ++ e.1)).1 = some v ∧ v.name = e.1 ∧
        v.ty.isExact t.sanitize = true) ∧
    ∀ f ∈ c.functions, ∀ o ∈ f.overloads, ∃ args result,
      o.args.mapM (fun ty => Ty.parse ty o.typeParams) = .ok args ∧
      Ty.parse o.result o.typeParams = .ok result ∧
      ∃ g, env.lookupFunction store ("." ++ f.name) = some g ∧
        ∃ p, g.find? o.id = some p ∧ p.isMember = o.isMember ∧
          Ty.agreeAll false p.args args = true ∧ p.result.isEquivalent result = true := by
  obtain ⟨vs, fs, hvs, hfs, hsees, hprovides, henabled, hcontainer⟩ := build_declares h
  have hnone := aliases_of_buildContainer haliases habbreviations hcontainer
  constructor
  · intro e he
    obtain ⟨t, ht, hmem⟩ := mem_buildVariables hvs e he
    obtain ⟨v, hv, hequiv⟩ := hsees _ hmem
    unfold Variable.isEquivalent at hequiv
    rw [Bool.and_eq_true, beq_iff_eq] at hequiv
    -- equivalence is all that is known of a variable that was declared before
    have hexact := Ty.isExact_of_isEquivalent (Ty.ground_of_parse ht).sanitize
      (Ty.isEquivalent_symm hequiv.2)
    refine ⟨t, ht, v, (Env.lookupIdent_absolute hnone e.1).trans hv, hequiv.1, ?_⟩
    exact Ty.isExact_iff.mpr (Ty.isExact_iff.mp hexact).symm
  · intro f hf o ho
    obtain ⟨d, hd, hfd⟩ := (exists_of_mapM_eq_ok hfs).1 f hf
    obtain ⟨hname, -, hheld⟩ := FunctionConfig.toFunction_eq_ok hfd
    obtain ⟨q, hq, hholds⟩ := hheld o ho
    obtain ⟨hid, hmember, hargs, hresult⟩ := OverloadConfig.toOverload_eq_ok hq
    obtain ⟨g, hg, hkeeps⟩ := hprovides d hd
    obtain ⟨p, hp, hsame⟩ := hkeeps q hholds
    obtain ⟨-, hstyle, hagree, hequiv⟩ := Overload.sameSignature_iff.mp hsame
    rw [hname] at hg
    rw [hid] at hp
    exact ⟨q.args, q.result, hargs, hresult, g,
      (Env.lookupFunction_absolute hnone henabled f.name).trans hg, p, hp, hstyle.trans hmember,
      hagree, hequiv⟩

/-- A configuration that declares a standard identifier again, and a standard function twice: once
with a standard overload under another name of its type parameter. -/
def redeclaring : EnvConfig :=
  { standard with
    container := "acme"
    variableTypes := ⟨[("int", "type(int)"), ("limit", "google.protobuf.Int64Value")]⟩
    functions := [⟨"size", [⟨"size_list", ["list(T)"], "int", false, ["T"]⟩]⟩,
      ⟨"size", [⟨"size_order", ["acme.Order"], "uint", true, []⟩]⟩] }

theorem build_contains_redeclared : ∃ env store, redeclaring.build = .ok (env, store) ∧
    (∃ t, Ty.parse "type(int)" [] = .ok t ∧ ∃ v,
      (env.lookupIdent store ("." ++ "int")).1 = some v ∧ v.name = "int" ∧
        v.ty.isExact t.sanitize = true) ∧
    ∃ args result, ["list(T)"].mapM (fun ty => Ty.parse ty ["T"]) = .ok args ∧
      Ty.parse "int" ["T"] = .ok result ∧
      ∃ g, env.lookupFunction store ("." ++ "size") = some g ∧
        ∃ p, g.find? "size_list" = some p ∧ p.isMember = false ∧
          Ty.agreeAll false p.args args = true ∧ p.result.isEquivalent result = true := by
  have hok : redeclaring.build.isOk = true := by decide +kernel
  cases hbuild : redeclaring.build with
  | error e =>
    rw [hbuild] at hok
    exact absurd hok Bool.false_ne_true
  | ok built =>
    obtain ⟨hvariables, hfunctions⟩ := build_contains rfl rfl hbuild
    exact ⟨built.1, built.2, rfl, hvariables ("int", "type(int)") List.mem_cons_self,
      hfunctions ⟨"size", [⟨"size_list", ["list(T)"], "int", false, ["T"]⟩]⟩ List.mem_cons_self
        ⟨"size_list", ["list(T)"], "int", false, ["T"]⟩ List.mem_cons_self⟩

end EnvConfig
end CelTyping
