import CelTyping.Proofs.Check.Independence
import CelTyping.Proofs.Ty.Acceptance

/-!
# Declarations after lookups

A lookup adds what the provider knows to the outermost scope, and so does a check.  Nothing that is
seen changes by this (`check_after_check`), but what is declared does: where the outermost scope is
also the innermost one, a name that was looked up counts as declared when identifiers are added
later.  So an identifier that could have been declared before may be refused afterwards.

This module says exactly when.  `gained` is what the innermost scope declares after some uses of an
environment and did not declare before; all of it is known to the provider.  Adding identifiers
succeeds after the uses just if it succeeded before them and every identifier under a gained name
has a type equivalent to the gained one (`addIdents_after_uses`).

Identifiers are added one by one, so the proof goes along the list with a relation between the two
scopes: `Echoes` says that they agree but for the gained names, where the later scope keeps what was
gained and the earlier one has nothing as yet, or something equivalent.
-/

namespace CelTyping

theorem Variable.isEquivalent_symm {a b : Variable} (h : a.isEquivalent b = true) :
    b.isEquivalent a = true := by
  obtain ⟨hname, hty⟩ := Bool.and_eq_true_iff.mp h
  exact Bool.and_eq_true_iff.mpr ⟨beq_iff_eq.mpr (eq_of_beq hname).symm, Ty.isEquivalent_symm hty⟩

theorem Variable.isEquivalent_trans {a b c : Variable} (hab : a.isEquivalent b = true)
    (hbc : b.isEquivalent c = true) : a.isEquivalent c = true := by
  obtain ⟨hname, hty⟩ := Bool.and_eq_true_iff.mp hab
  obtain ⟨hname', hty'⟩ := Bool.and_eq_true_iff.mp hbc
  exact Bool.and_eq_true_iff.mpr ⟨beq_iff_eq.mpr ((eq_of_beq hname).trans (eq_of_beq hname')),
    Ty.isEquivalent_trans hty hty'⟩

namespace Env

/-! ## Uses -/

/-- A use of an environment that adds no declarations. -/
inductive Use where
  /-- Look up an identifier. -/
  | lookup (name : String)
  /-- Check an expression. -/
  | check (source : Source) (e : Expr)

/-- The store after a use. -/
def afterUse (env : Env) (store : Store) : Use → Store
  | .lookup name => (env.lookupIdent store name).2
  | .check source e => (CelTyping.check env store source e).2

/-- The store after some uses. -/
def afterUses (env : Env) (store : Store) (uses : List Use) : Store :=
  uses.foldl env.afterUse store

variable {env : Env} {store : Store}

theorem maintained_afterUse (hv : env.Valid store) (use : Use) :
    env.Maintained store (env.afterUse store use) := by
  cases use with
  | lookup name => exact maintained_lookupIdent (.refl env) hv name
  | check source e => exact maintained_check (.refl env) hv source e

/-- **The scopes of an environment are maintained by its uses.** -/
theorem maintained_afterUses (hv : env.Valid store) (uses : List Use) :
    env.Maintained store (env.afterUses store uses) := by
  induction uses generalizing store with
  | nil => exact .refl env store
  | cons use rest ih =>
    have hstep := maintained_afterUse hv use
    exact hstep.trans (ih (hstep.toUndisturbed.valid hv))

/-! ## What is gained -/

/-- What the innermost scope declares under a name in one store and does not declare in another. -/
def gained (env : Env) (s t : Store) (name : String) : Option Variable :=
  if (s.findLocalIdent? env.scopes name).isSome then none else t.findLocalIdent? env.scopes name

theorem Maintained.gained {s t : Store} (h : env.Maintained s t) {name : String} {w : Variable}
    (hw : env.gained s t name = some w) :
    env.provided? name = some w ∧ env.scopes.innermost = env.scopes.outermost := by
  unfold Env.gained at hw
  split at hw
  · cases hw
  · next hnone =>
    rw [Bool.not_eq_true, Option.isSome_eq_false_iff, Option.isNone_iff_eq_none] at hnone
    rcases h.idents _ List.mem_cons_self name with heq | ⟨hout, -, hprov⟩
    · exact absurd (hw.symm.trans (heq.trans hnone)) (Option.some_ne_none w)
    · exact ⟨hprov.symm.trans hw, hout⟩

/-- Two innermost scopes declare the same, but for some names: of these the second has what is
given, and the first has nothing or something equivalent. -/
def Echoes (given : String → Option Variable) (s : Store) (h : Scopes) (t : Store) (k : Scopes) :
    Prop :=
  ∀ name, (given name = none ∧ t.findLocalIdent? k name = s.findLocalIdent? h name) ∨
    ∃ w, given name = some w ∧ t.findLocalIdent? k name = some w ∧
      ∀ v, s.findLocalIdent? h name = some v → w.isEquivalent v = true

theorem Maintained.echoes {s t : Store} (h : env.Maintained s t) :
    Echoes (env.gained s t) s env.scopes t env.scopes := by
  intro name
  unfold Env.gained
  cases hs : s.findLocalIdent? env.scopes name with
  | some v =>
    refine Or.inl ⟨rfl, ?_⟩
    rcases h.idents _ List.mem_cons_self name with heq | ⟨-, hnone, -⟩
    · exact heq.trans hs
    · exact absurd (hs.symm.trans hnone) (Option.some_ne_none v)
  | none =>
    cases ht : t.findLocalIdent? env.scopes name with
    | none => exact Or.inl ⟨rfl, rfl⟩
    | some w => exact Or.inr ⟨w, rfl, rfl, fun v hv => nomatch hv⟩

/-- A scope of its own declares what the scope declared. -/
theorem findLocalIdent?_detach (env : Env) (store : Store) (others : List Scopes) (name : String) :
    (env.detach store others).2.findLocalIdent? (env.detach store others).1.scopes name =
      store.findLocalIdent? env.scopes name := by
  rcases env.detach_cases store others with heq | heq
  · rw [heq]
    show ((store.alloc _).2.group store.groups.size).idents.find? name = _
    rw [Store.group_alloc, if_pos rfl]
    rfl
  · rw [heq]

theorem findLocalIdent?_declareLocal {s : Store} (h : env.scopes.innermost < s.groups.size)
    (v : Variable) (name : String) :
    (env.declareLocal s v).findLocalIdent? env.scopes name =
      if name = v.name then some v else s.findLocalIdent? env.scopes name := by
  have hidents := s.idents_addIdent h v env.scopes.innermost name
  simp only [true_and] at hidents
  exact hidents

/-! ## Adding one identifier -/

theorem addIdent_of_none {s : Store} {v : Variable}
    (h : s.findLocalIdent? env.scopes v.name = none) :
    env.addIdent s v = .ok (env.declareLocal s v.sanitized) := by
  have hname : v.sanitized.name = v.name := rfl
  unfold addIdent
  dsimp only
  rw [hname, h]
  rfl

theorem addIdent_of_some {s : Store} {v x : Variable}
    (h : s.findLocalIdent? env.scopes v.name = some x) :
    env.addIdent s v = if x.isEquivalent v.sanitized then .ok s
      else .error (.overlappingIdentifier v.name) := by
  have hname : v.sanitized.name = v.name := rfl
  unfold addIdent
  dsimp only
  rw [hname, h]

variable {given : String → Option Variable} {e f : Env} {s t : Store}

/-- The same identifier is declared on both sides. -/
theorem Echoes.declareLocal (h : Echoes given s e.scopes t f.scopes) (he : e.Valid s)
    (hf : f.Valid t) {v : Variable} (hv : given v.name = none) :
    Echoes given (e.declareLocal s v) e.scopes (f.declareLocal t v) f.scopes := by
  intro name
  rw [findLocalIdent?_declareLocal (he _ List.mem_cons_self),
    findLocalIdent?_declareLocal (hf _ List.mem_cons_self)]
  by_cases hname : name = v.name
  · rw [if_pos hname, if_pos hname, hname]
    exact Or.inl ⟨hv, rfl⟩
  · rw [if_neg hname, if_neg hname]
    exact h name

/-- An identifier is declared that the second side has already. -/
theorem Echoes.declareLocal_left (h : Echoes given s e.scopes t f.scopes) (he : e.Valid s)
    {v w : Variable} (hv : given v.name = some w) (hequiv : w.isEquivalent v = true) :
    Echoes given (e.declareLocal s v) e.scopes t f.scopes := by
  intro name
  rw [findLocalIdent?_declareLocal (he _ List.mem_cons_self)]
  by_cases hname : name = v.name
  · subst hname
    rw [if_pos rfl]
    rcases h v.name with ⟨hnone, -⟩ | ⟨w', hw', ht, -⟩
    · exact absurd (hv.symm.trans hnone) (Option.some_ne_none w)
    · obtain rfl := Option.some.inj (hv.symm.trans hw')
      refine Or.inr ⟨w, hv, ht, fun v' hv' => ?_⟩
      rwa [← Option.some.inj hv']
  · rw [if_neg hname]
    exact h name

/-- How adding an identifier goes on both sides: it is refused on both for the same reason, or
accepted on both, or its name is given and the second side refuses it. -/
inductive Outcome (given : String → Option Variable) (e : Env) (s : Store) (f : Env) (t : Store)
    (v : Variable) : Prop
  | refused (err : DeclarationError) :
    e.addIdent s v = .error err → f.addIdent t v = .error err → Outcome given e s f t v
  | accepted (s' t' : Store) : e.addIdent s v = .ok s' → f.addIdent t v = .ok t' →
    Echoes given s' e.scopes t' f.scopes →
    (∀ w, given v.name = some w → w.isEquivalent v.sanitized = true) → Outcome given e s f t v
  | given (w : Variable) : given v.name = some w → w.isEquivalent v.sanitized = false →
    f.addIdent t v = .error (.overlappingIdentifier v.name) → Outcome given e s f t v

theorem Echoes.addIdent (h : Echoes given s e.scopes t f.scopes) (he : e.Valid s) (hf : f.Valid t)
    (v : Variable) : Outcome given e s f t v := by
  rcases h v.name with ⟨hnone, hsame⟩ | ⟨w, hw, ht, hknown⟩
  · -- the name is not given, so both sides know the same of it
    have hvacuous : ∀ w, given v.name = some w → w.isEquivalent v.sanitized = true :=
      fun w hw => absurd (hw.symm.trans hnone) (Option.some_ne_none w)
    cases hs : s.findLocalIdent? e.scopes v.name with
    | none =>
      exact .accepted _ _ (addIdent_of_none hs) (addIdent_of_none (hsame.trans hs))
        (h.declareLocal he hf hnone) hvacuous
    | some x =>
      have hleft := addIdent_of_some hs
      have hright := addIdent_of_some (hsame.trans hs)
      cases hequiv : x.isEquivalent v.sanitized with
      | true =>
        rw [hequiv] at hleft hright
        exact .accepted s t hleft hright h hvacuous
      | false =>
        rw [hequiv] at hleft hright
        exact .refused _ hleft hright
  · have hright := addIdent_of_some ht
    cases hequiv : w.isEquivalent v.sanitized with
    | false =>
      rw [hequiv] at hright
      exact .given w hw hequiv hright
    | true =>
      have hgiven : ∀ w', given v.name = some w' → w'.isEquivalent v.sanitized = true := by
        intro w' hw'
        rwa [← Option.some.inj (hw.symm.trans hw')]
      rw [hequiv] at hright
      cases hs : s.findLocalIdent? e.scopes v.name with
      | none =>
        exact .accepted _ t (addIdent_of_none hs) hright
          (h.declareLocal_left he (v := v.sanitized) hw hequiv) hgiven
      | some x =>
        -- what the first side has is equivalent to what is given, and so to the identifier
        have hleft := addIdent_of_some hs
        have hx : x.isEquivalent v.sanitized = true :=
          Variable.isEquivalent_trans (Variable.isEquivalent_symm (hknown x hs)) hequiv
        rw [hx] at hleft
        exact .accepted s t hleft hright h hgiven

/-! ## Adding identifiers -/

/-- The first error of a list of identifiers that are added. -/
def refusal? (env : Env) (store : Store) (vs : List Variable) : Option DeclarationError :=
  (runSteps (addIdent env) store vs).2

/-- **Adding identifiers to scopes that agree but for given names** goes the same way on both sides,
and if all are accepted then those under given names are equivalent to what is given; or the second
side refuses one under a given name. -/
theorem Echoes.refusal? (h : Echoes given s e.scopes t f.scopes) (he : e.Valid s) (hf : f.Valid t)
    (vs : List Variable) :
    f.refusal? t vs = e.refusal? s vs ∧ (e.refusal? s vs = none →
        ∀ v ∈ vs, ∀ w, given v.name = some w → w.isEquivalent v.sanitized = true) ∨
      ∃ v ∈ vs, ∃ w, given v.name = some w ∧ w.isEquivalent v.sanitized = false ∧
        f.refusal? t vs = some (.overlappingIdentifier v.name) := by
  induction vs generalizing s t with
  | nil => exact Or.inl ⟨rfl, fun _ _ hv => absurd hv List.not_mem_nil⟩
  | cons v rest ih =>
    unfold Env.refusal?
    rcases h.addIdent he hf v with ⟨err, hs, ht⟩ | ⟨s', t', hs, ht, hnext, hv⟩ | ⟨w, hw, hne, ht⟩
    · rw [runSteps_cons_error hs, runSteps_cons_error ht]
      exact Or.inl ⟨rfl, fun hnone => absurd hnone (Option.some_ne_none err)⟩
    · rw [runSteps_cons_ok hs, runSteps_cons_ok ht]
      rcases ih hnext (he.addIdent hs) (hf.addIdent ht) with ⟨hsame, hrest⟩ | ⟨v', hv', hrest⟩
      · exact Or.inl ⟨hsame, fun hnone => List.forall_mem_cons.mpr ⟨hv, hrest hnone⟩⟩
      · exact Or.inr ⟨v', List.mem_cons_of_mem _ hv', hrest⟩
    · rw [runSteps_cons_error ht]
      exact Or.inr ⟨v, List.mem_cons_self, w, hw, hne, rfl⟩

end Env

/-- **What lookups change for declarations.**  After an environment was used for lookups and checks,
its innermost scope may declare more names, if it is also the outermost one: names that the provider
knows, as the provider knows them.  Adding identifiers succeeds then if and only if it succeeded
before and every identifier under such a name is equivalent to what is declared by now; and where
the result is another one, it is that such an identifier is refused. -/
theorem addIdents_after_uses {env : Env} {store : Store} (hv : env.Valid store)
    (uses : List Env.Use) :
    (∀ name w, env.gained store (env.afterUses store uses) name = some w →
      env.provided? name = some w ∧ env.scopes.innermost = env.scopes.outermost) ∧
    ∀ (others : List Scopes) (vs : List Variable),
      ((env.addIdents (env.afterUses store uses) others vs).2.2 = none ↔
        (env.addIdents store others vs).2.2 = none ∧ ∀ v ∈ vs, ∀ w,
          env.gained store (env.afterUses store uses) v.name = some w →
            w.isEquivalent v.sanitized = true) ∧
      ((env.addIdents (env.afterUses store uses) others vs).2.2 =
          (env.addIdents store others vs).2.2 ∨
        ∃ v ∈ vs, ∃ w, env.gained store (env.afterUses store uses) v.name = some w ∧
          w.isEquivalent v.sanitized = false ∧
          (env.addIdents (env.afterUses store uses) others vs).2.2 =
            some (.overlappingIdentifier v.name)) := by
  have hmaintained := Env.maintained_afterUses hv uses
  refine ⟨fun name w hw => hmaintained.gained hw, fun others vs => ?_⟩
  generalize env.afterUses store uses = later at hmaintained
  have hechoes : Env.Echoes (env.gained store later) (env.detach store others).2
      (env.detach store others).1.scopes (env.detach later others).2
      (env.detach later others).1.scopes := by
    intro name
    rw [Env.findLocalIdent?_detach, Env.findLocalIdent?_detach]
    exact hmaintained.echoes name
  have hlater := hmaintained.toUndisturbed.valid hv
  have hboth := hechoes.refusal? hv.detach hlater.detach vs
  show ((env.detach later others).1.refusal? (env.detach later others).2 vs = none ↔
    (env.detach store others).1.refusal? (env.detach store others).2 vs = none ∧ _) ∧ _
  rcases hboth with ⟨hsame, hgiven⟩ | ⟨v, hmem, w, hw, hne, herror⟩
  · refine ⟨⟨fun hnone => ?_, fun h => hsame.trans h.1⟩, Or.inl hsame⟩
    have hstore := hsame.symm.trans hnone
    exact ⟨hstore, hgiven hstore⟩
  · refine ⟨⟨fun hnone => ?_, fun h => ?_⟩, Or.inr ⟨v, hmem, w, hw, hne, herror⟩⟩
    · exact absurd (herror.symm.trans hnone) (Option.some_ne_none _)
    · exact absurd ((h.2 v hmem w hw).symm.trans hne) (by decide)

/-- An environment of a first scope whose provider knows a message type `acme.Order`. -/
def Env.ofOrder : Env :=
  { Env.ofFirst with provider := (Registry.empty.addMessage "acme.Order" []).toProvider }

/-- A lookup and a check that name the message type, and one that names nothing. -/
def orderUses : List Env.Use :=
  [.lookup "acme.Order", .check ⟨"", [], .empty⟩ (.ident 1 "acme.Order"), .lookup "acme.Item"]

/-- After the uses the name of the message type may be declared again as what it is, and other names
as anything. -/
theorem addIdents_after_order :
    Env.ofOrder.Valid ⟨#[.empty]⟩ ∧
    (Env.ofOrder.gained ⟨#[.empty]⟩ (Env.ofOrder.afterUses ⟨#[.empty]⟩ orderUses)
      "acme.Order").isSome = true ∧
    (Env.ofOrder.addIdents (Env.ofOrder.afterUses ⟨#[.empty]⟩ orderUses) []
      [.ofType "acme.Order" (Ty.typeOf (Ty.object "acme.Order")), .ofType "acme.Item" .int]).2.2 =
        none := by
  have hvalid : Env.ofOrder.Valid ⟨#[.empty]⟩ := by decide
  obtain ⟨hgained, hadd⟩ := addIdents_after_uses hvalid orderUses
  refine ⟨hvalid, by decide +kernel, (hadd [] _).1.mpr ⟨rfl, ?_⟩⟩
  have horder : Env.ofOrder.provided? "acme.Order" =
      some (.ofType "acme.Order" (Ty.typeOf (Ty.object "acme.Order"))) := rfl
  have hitem : Env.ofOrder.provided? "acme.Item" = none := rfl
  intro v hv w hw
  have hw := (hgained v.name w hw).1
  rcases List.mem_pair.mp hv with rfl | rfl
  · obtain rfl := Option.some.inj (horder.symm.trans hw)
    decide +kernel
  · exact absurd (hw.symm.trans hitem) (Option.some_ne_none w)

/-- **A lookup may keep a name from being declared**: before it, the name of the message type could
be declared as a number. -/
theorem lookup_blocks_declaration :
    (Env.ofOrder.addIdents ⟨#[.empty]⟩ [] [.ofType "acme.Order" .int]).2.2 = none ∧
    (Env.ofOrder.addIdents (Env.ofOrder.afterUses ⟨#[.empty]⟩ [.lookup "acme.Order"]) []
      [.ofType "acme.Order" .int]).2.2 = some (.overlappingIdentifier "acme.Order") := by
  constructor <;> rfl

end CelTyping
