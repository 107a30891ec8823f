import CelTyping.Proofs.Env.Additions

/-!
# Declarations are found

What is found under a name need not be what was declared under it.  An identifier may be declared
again with an equivalent type, to no effect.  A function is merged with what is known of it, and an
overload that is declared again takes the place of the earlier one, or does not.  What is found is
equivalent to what was declared in any case, and stays so whatever is declared later in the same
scope.

* `Holds`: a list of overloads has one with the signature of another, under its id.
* `addOverloads_holds`, `merge_holds`: all overloads of all declarations of a function are held by
  the function that is found.
* `addIdents_finds`, `addFunctions_finds`: the same for lists of declarations.
-/

namespace CelTyping

theorem Variable.isEquivalent_refl (v : Variable) : v.isEquivalent v = true := by
  unfold isEquivalent
  rw [v.ty.isEquivalent_refl, beq_self_eq_true, Bool.and_self]

namespace FunctionDecl

/-! ## Overloads of a function -/

/-- What is found under the id of an overload in a list of overloads has its signature. -/
def Holds (os : List Overload) (o : Overload) : Prop :=
  ∃ p, os.find? (fun q => q.id == o.id) = some p ∧ p.sameSignature o = true

theorem holds_cons_of_eq {e o : Overload} (h : e.id = o.id) (rest : List Overload) :
    Holds (e :: rest) o ↔ e.sameSignature o = true := by
  unfold Holds
  simp [h]

theorem holds_cons_of_ne {e o : Overload} (h : e.id ≠ o.id) (rest : List Overload) :
    Holds (e :: rest) o ↔ Holds rest o := by
  unfold Holds
  simp [h]

theorem Holds.trans {os : List Overload} {o p : Overload} (h : Holds os p)
    (hpo : p.sameSignature o = true) : Holds os o := by
  obtain ⟨q, hq, hqp⟩ := h
  rw [(Overload.sameSignature_iff.mp hpo).1] at hq
  exact ⟨q, hq, Overload.sameSignature_trans hqp hpo⟩

/-- An overload may take the place of one with its signature. -/
theorem Holds.replace_head {e k x : Overload} {rest : List Overload}
    (hk : k.sameSignature e = true) (h : Holds (e :: rest) x) : Holds (k :: rest) x := by
  have hid : k.id = e.id := (Overload.sameSignature_iff.mp hk).1
  by_cases hx : e.id = x.id
  · have hex := (holds_cons_of_eq hx rest).mp h
    exact (holds_cons_of_eq (hid.trans hx) rest).mpr (Overload.sameSignature_trans hk hex)
  · exact (holds_cons_of_ne (hid ▸ hx) rest).mpr ((holds_cons_of_ne hx rest).mp h)

/-- An overload that is added is held, and so is everything that was. -/
theorem place_holds {function : String} {o : Overload} : ∀ {os os' : List Overload},
    place function o os = .ok os' → Holds os' o ∧ ∀ x, Holds os x → Holds os' x
  | [], os', h => by
    rw [place] at h
    obtain rfl := Except.ok.inj h
    refine ⟨(holds_cons_of_eq rfl []).mpr o.sameSignature_refl, fun x hx => ?_⟩
    obtain ⟨p, hp, -⟩ := hx
    exact absurd hp (by simp)
  | e :: rest, os', h => by
    rw [place] at h
    split at h
    · next hid =>
      split at h
      · next hsame =>
        rw [Bool.and_eq_true] at hsame
        obtain rfl := Except.ok.inj h
        -- whichever of the two is kept, it has the signature of both
        have hkept : (if o.hasImplementation then o else e).sameSignature o = true ∧
            (if o.hasImplementation then o else e).sameSignature e = true := by
          split
          · exact ⟨o.sameSignature_refl, Overload.sameSignature_symm hsame.1⟩
          · exact ⟨hsame.1, e.sameSignature_refl⟩
        have hid' := (Overload.sameSignature_iff.mp hkept.1).1
        exact ⟨(holds_cons_of_eq hid' rest).mpr hkept.1, fun x hx => hx.replace_head hkept.2⟩
      · exact absurd h (by simp)
    · next hid =>
      split at h
      · exact absurd h (by simp)
      · cases hrest : place function o rest with
        | error err =>
          rw [hrest] at h
          exact absurd h (by simp [Except.map])
        | ok rest' =>
          rw [hrest] at h
          obtain rfl : e :: rest' = os' := Except.ok.inj h
          obtain ⟨hself, hkeep⟩ := place_holds hrest
          refine ⟨(holds_cons_of_ne hid rest').mpr hself, fun x hx => ?_⟩
          by_cases hxid : e.id = x.id
          · exact (holds_cons_of_eq hxid rest').mpr ((holds_cons_of_eq hxid rest).mp hx)
          · exact (holds_cons_of_ne hxid rest').mpr (hkeep x ((holds_cons_of_ne hxid rest).mp hx))

theorem addOverloads_holds {g : FunctionDecl} {os : List Overload} : ∀ {f : FunctionDecl},
    f.addOverloads os = .ok g →
      (∀ o ∈ os, Holds g.overloads o) ∧ ∀ x, Holds f.overloads x → Holds g.overloads x := by
  induction os with
  | nil =>
    intro f h
    obtain rfl : f = g := Except.ok.inj h
    exact ⟨fun _ ho => absurd ho List.not_mem_nil, fun _ hx => hx⟩
  | cons o os ih =>
    intro f h
    obtain ⟨k, hadd, hrest⟩ := addOverloads_cons h
    obtain ⟨hself, hkeep⟩ := place_holds (place_of_addOverload hadd)
    obtain ⟨hall, hkeep'⟩ := ih hrest
    exact ⟨List.forall_mem_cons.mpr ⟨hkeep' o hself, hall⟩, fun x hx => hkeep' x (hkeep x hx)⟩

/-- **Merging keeps the overloads of both functions.** -/
theorem merge_holds {f g h : FunctionDecl} (hmerge : f.merge g = .ok h) :
    (∀ o ∈ g.overloads, Holds h.overloads o) ∧
      ∀ x, Holds f.overloads x → Holds h.overloads x := by
  obtain ⟨k, hadd, hk, -⟩ := addOverloads_of_merge hmerge
  rw [hk]
  exact addOverloads_holds hadd

/-- A merged function is found, if both functions are. -/
theorem isDisabled_merge {f g h : FunctionDecl} (hmerge : f.merge g = .ok h)
    (hf : f.isDisabled = false) (hg : g.isDisabled = false) : h.isDisabled = false := by
  obtain ⟨-, -, -, -, hstate⟩ := addOverloads_of_merge hmerge
  unfold isDisabled at hf hg ⊢
  rw [hstate]
  split
  · exact hf
  · exact hg

end FunctionDecl

namespace Env

variable {env env' : Env} {store store' s s' : Store} {others : List Scopes}

/-! ## Identifiers -/

/-- In the innermost scope something equivalent to a variable is found under its name. -/
def HoldsIdent (env : Env) (s : Store) (v : Variable) : Prop :=
  ∃ w, s.findLocalIdent? env.scopes v.name = some w ∧ w.isEquivalent v.sanitized = true

theorem HoldsIdent.sees {v : Variable} (h : env.HoldsIdent s v) :
    ∃ w, env.sees s v.name = some w ∧ w.isEquivalent v.sanitized = true := by
  obtain ⟨w, hw, heq⟩ := h
  have hfind : s.findIdent? env.scopes v.name = some w := by
    unfold Store.findIdent? Scopes.chain
    unfold Store.findLocalIdent? at hw
    rw [List.findSome?_cons, hw]
  refine ⟨w, ?_, heq⟩
  unfold Env.sees
  rw [hfind]
  rfl

/-- An identifier that is added is declared, and so is everything that was: what is put into the
scope has a new name. -/
theorem addIdent_holdsIdent (hv : env.Valid s) {v : Variable} (h : env.addIdent s v = .ok s') :
    env.HoldsIdent s' v ∧ ∀ u, env.HoldsIdent s u → env.HoldsIdent s' u := by
  rcases addIdent_cases h with ⟨existing, hfind, heq, rfl⟩ | ⟨hnone, rfl⟩
  · exact ⟨⟨existing, hfind, heq⟩, fun _ hu => hu⟩
  · have hlt : env.scopes.innermost < s.groups.size := hv _ List.mem_cons_self
    have hfind : ∀ name, (env.declareLocal s v.sanitized).findLocalIdent? env.scopes name =
        if name = v.name then some v.sanitized else s.findLocalIdent? env.scopes name := by
      intro name
      have hidents := s.idents_addIdent hlt v.sanitized env.scopes.innermost name
      simp only [true_and] at hidents
      exact hidents
    refine ⟨⟨v.sanitized, by rw [hfind, if_pos rfl], v.sanitized.isEquivalent_refl⟩, ?_⟩
    rintro u ⟨w, hw, heq⟩
    refine ⟨w, ?_, heq⟩
    rw [hfind, if_neg, hw]
    intro hname
    rw [hname, hnone] at hw
    exact absurd hw (by simp)

/-- **Identifiers that are added are seen**, up to equivalence. -/
theorem addIdents_finds (hv : env.Valid store) {vs : List Variable}
    (h : env.addIdents store others vs = (env', store', none)) :
    ∀ v ∈ vs, ∃ w, env'.sees store' v.name = some w ∧ w.isEquivalent v.sanitized = true := by
  obtain ⟨rfl, hrun⟩ := Prod.mk.inj h
  have hall := runSteps_forall (P := (env.detach store others).1.Valid)
    (Q := fun v t => (env.detach store others).1.HoldsIdent t v)
    (fun v _ s s' hs hadd => ⟨hs.addIdent hadd, addIdent_holdsIdent hs hadd⟩) hv.detach hrun
  exact fun v hmem => (hall.2 v hmem).sees

/-! ## Functions -/

/-- A function is found that has the name of another and holds what this one holds. -/
def Provides (env : Env) (s : Store) (f : FunctionDecl) : Prop :=
  ∃ g, s.findFunction? env.scopes f.name = some g ∧
    ∀ o, FunctionDecl.Holds f.overloads o → FunctionDecl.Holds g.overloads o

/-- A function that is added is provided, and so is everything that was. -/
theorem addFunction_provides (hv : env.Valid s) {f : FunctionDecl}
    (h : env.addFunction s f = .ok s') :
    env.Provides s' f ∧ ∀ k, env.Provides s k → env.Provides s' k := by
  obtain ⟨merged, hafter, -, hmerged⟩ := findFunction?_addFunction hv h
  have hnew : s'.findFunction? env.scopes f.name = some merged := by rw [hafter, if_pos rfl]
  have hother : ∀ k : FunctionDecl, k.name ≠ f.name → env.Provides s k → env.Provides s' k := by
    rintro k hne ⟨g, hg, hholds⟩
    exact ⟨g, by rw [hafter, if_neg hne, hg], hholds⟩
  rcases hmerged with ⟨hnone, rfl⟩ | ⟨existing, hexisting, hmerge⟩
  · refine ⟨⟨merged, hnew, fun _ ho => ho⟩, fun k hk => hother k (fun hname => ?_) hk⟩
    obtain ⟨g, hg, -⟩ := hk
    rw [hname, hnone] at hg
    exact absurd hg (by simp)
  · obtain ⟨hadded, hkept⟩ := FunctionDecl.merge_holds hmerge
    refine ⟨⟨merged, hnew, ?_⟩, fun k hk => ?_⟩
    · rintro o ⟨p, hp, hpo⟩
      exact (hadded p (List.mem_of_find?_eq_some hp)).trans hpo
    · by_cases hname : k.name = f.name
      · obtain ⟨g, hg, hholds⟩ := hk
        rw [hname, hexisting] at hg
        obtain rfl := Option.some.inj hg
        exact ⟨merged, hname ▸ hnew, fun o ho => hkept o (hholds o ho)⟩
      · exact hother k hname hk

/-- **Functions that are added are found**, with all their overloads. -/
theorem addFunctions_finds (hv : env.Valid store) {fs : List FunctionDecl}
    (h : env.addFunctions store others fs = (env', store', none)) :
    ∀ f ∈ fs, env'.Provides store' f := by
  obtain ⟨rfl, hrun⟩ := Prod.mk.inj h
  exact (runSteps_forall (P := (env.detach store others).1.Valid)
    (Q := fun f t => (env.detach store others).1.Provides t f)
    (fun f _ s s' hs hadd => ⟨hs.addFunction hadd, addFunction_provides hs hadd⟩) hv.detach
    hrun).2

/-- None of the functions that an environment sees is disabled. -/
def AllEnabled (env : Env) (s : Store) : Prop :=
  ∀ name f, s.findFunction? env.scopes name = some f → f.isDisabled = false

theorem AllEnabled.addIdents (h : env.AllEnabled store) (hv : env.Valid store)
    (others : List Scopes) (vs : List Variable) :
    (env.addIdents store others vs).1.AllEnabled (env.addIdents store others vs).2.1 := by
  intro name f hf
  rw [findFunction?_addIdents hv] at hf
  exact h name f hf

theorem AllEnabled.addFunctions (h : env.AllEnabled store) (hv : env.Valid store)
    (others : List Scopes) {fs : List FunctionDecl} (hfs : ∀ f ∈ fs, f.isDisabled = false) :
    (env.addFunctions store others fs).1.AllEnabled (env.addFunctions store others fs).2.1 := by
  have hdetach : (env.detach store others).1.AllEnabled (env.detach store others).2 := by
    intro name f hf
    rw [findFunction?_detach hv] at hf
    exact h name f hf
  refine (runSteps_invariant (P := fun t => (env.detach store others).1.Valid t ∧
    (env.detach store others).1.AllEnabled t) ?_ ⟨hv.detach, hdetach⟩).2
  rintro f hmem s s' ⟨hs, hall⟩ hadd
  refine ⟨hs.addFunction hadd, fun name g hg => ?_⟩
  obtain ⟨merged, hafter, -, hmerged⟩ := findFunction?_addFunction hs hadd
  rw [hafter] at hg
  split at hg
  · obtain rfl := Option.some.inj hg
    rcases hmerged with ⟨-, rfl⟩ | ⟨existing, hexisting, hmerge⟩
    · exact hfs _ hmem
    · exact FunctionDecl.isDisabled_merge hmerge (hall _ existing hexisting) (hfs f hmem)
  · exact hall name g hg

end Env
end CelTyping
