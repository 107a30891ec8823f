import CelTyping.Proofs.Check.Notes
import Mathlib.Data.List.Nodup

/-!
# What the steps of a check write down

`Writes` is the judgement about one step of a check: from the notes so far it goes on to notes with
some property, whatever the state it starts from.  Most steps only report errors, and of these it is
enough to know where (`Reports`): the rules for types, the resolution of overloads and the lookups.

What a lookup gives depends on the declarations.  Identifiers are added on the way, functions are
not, so the functions that are found are those that were declared before the check, in the scopes of
the environment it was started with (`Env.Nested`).

* `reports_resolveOverload`: the overloads that a call is resolved to stand in the order of their
  declaration, without repetition, and are such as the call may use.
-/

namespace CelTyping

open scoped List

/-! ## The overloads of a reference -/

/-- A reference names overloads among some, in their order and at least one. -/
structure Reference.Selects (r : Reference) (os : List Overload) : Prop where
  /-- There is an overload. -/
  nonempty : r.overloads ≠ []
  /-- No overload is named twice. -/
  nodup : r.overloads.Nodup
  /-- They stand in the order of the overloads. -/
  order : r.overloads <+ os.map Overload.id

namespace Reference.Selects

variable {r : Reference} {os : List Overload}

theorem mono (h : r.Selects os) {os' : List Overload} (hos : os <+ os') : r.Selects os' :=
  ⟨h.nonempty, h.nodup, h.order.trans (hos.map _)⟩

theorem ofOverload {o : Overload} (ho : o ∈ os) : (Reference.ofOverload o.id).Selects os :=
  ⟨List.cons_ne_nil _ _, List.nodup_singleton _,
    List.singleton_sublist.mpr (List.mem_map_of_mem ho)⟩

/-- One more overload may be named after the others. -/
theorem addOverload (h : r.Selects os) (o : Overload) :
    (r.addOverload o.id).Selects (os ++ [o]) := by
  unfold Reference.addOverload
  split
  · exact h.mono (List.sublist_append_left _ _)
  · next hnew =>
    refine ⟨by simp, ?_, ?_⟩
    · exact List.nodup_append.mpr ⟨h.nodup, List.nodup_singleton _, fun a ha b hb hab =>
        hnew (List.mem_singleton.mp hb ▸ hab ▸ ha)⟩
    · rw [List.map_append]
      exact h.order.append (.refl _)

end Reference.Selects

/-! ## Environments of one check -/

/-- An environment finds the functions that another one finds in a store, and the options are the
same. -/
structure Env.Nested (declared : Store) (root env : Env) : Prop where
  /-- The names of functions mean the same. -/
  functions : ∀ name,
    declared.findFunction? env.scopes name = declared.findFunction? root.scopes name
  /-- The options are the same. -/
  options : env.options = root.options

/-- A function that an environment knows under some name. -/
def Env.Knows (store : Store) (env : Env) (f : FunctionDecl) : Prop :=
  ∃ name, store.findFunction? env.scopes name = some f

theorem Env.Nested.refl (declared : Store) (env : Env) : Env.Nested declared env env :=
  ⟨fun _ => rfl, rfl⟩

theorem Env.Nested.usable {declared : Store} {root env : Env} (h : Env.Nested declared root env)
    (f : FunctionDecl) (isMember : Bool) :
    Checking.usable env f isMember = Checking.usable root f isMember := by
  unfold Checking.usable Env.isOverloadDisabled
  rw [h.options]

/-- A store has the functions of another one, in all scopes. -/
def Store.SameFunctions (s t : Store) : Prop :=
  ∀ h name, t.findFunction? h name = s.findFunction? h name

/-- A new scope declares no functions. -/
theorem Store.sameFunctions_push (s : Store) (h : Scopes) : s.SameFunctions (s.push h).2 := by
  intro k name
  unfold findFunction?
  simp only [s.group_push_eq h]

namespace Checking

variable {α β : Type} {declared : Store} {P : NodeId → Prop}

/-! ## The judgements -/

/-- From the notes so far a step goes on to notes with some property, wherever the functions are
those of a given store. -/
def Writes (declared : Store) (before : List Note) (x : Checking α)
    (Q : α → List Note → Prop) : Prop :=
  ∀ s : CheckState, declared.SameFunctions s.store →
    ∃ notes, s.Noted notes (x.run s).2 ∧ Q (x.run s).1 (before ++ notes)

theorem Writes.pure {before : List Note} {Q : α → List Note → Prop} {a : α} (h : Q a before) :
    Writes declared before (pure a) Q := by
  intro s _
  refine ⟨[], .silent rfl rfl rfl fun _ _ => rfl, ?_⟩
  rw [List.append_nil]
  exact h

theorem Writes.bind {before : List Note} {x : Checking α} {k : α → Checking β}
    {Q : α → List Note → Prop} {R : β → List Note → Prop} (hx : Writes declared before x Q)
    (hk : ∀ a notes, Q a notes → Writes declared notes (k a) R) :
    Writes declared before (x >>= k) R := by
  intro s hs
  obtain ⟨notes, hnotes, ha⟩ := hx s hs
  have hafter : declared.SameFunctions (x.run s).2.store :=
    fun h name => (hnotes.functions h name).trans (hs h name)
  obtain ⟨more, hmore, hb⟩ := hk _ _ ha _ hafter
  refine ⟨notes ++ more, hnotes.trans hmore, ?_⟩
  rw [← List.append_assoc]
  exact hb

theorem Writes.mono {before : List Note} {x : Checking α} {Q R : α → List Note → Prop}
    (h : Writes declared before x Q) (hQR : ∀ a notes, Q a notes → R a notes) :
    Writes declared before x R := by
  intro s hs
  obtain ⟨notes, hnotes, ha⟩ := h s hs
  exact ⟨notes, hnotes, hQR _ _ ha⟩

/-- What a step writes down from nothing, it writes down after other notes. -/
theorem Writes.after {before : List Note} {x : Checking α} {Q R : α → List Note → Prop}
    (h : Writes declared [] x Q) (hQR : ∀ a notes, Q a notes → R a (before ++ notes)) :
    Writes declared before x R := by
  intro s hs
  obtain ⟨notes, hnotes, ha⟩ := h s hs
  exact ⟨notes, hnotes, hQR _ _ ha⟩

/-- A step only reports errors, in some places, and gives a value with some property. -/
def Reports (declared : Store) (P : NodeId → Prop) (x : Checking α) (Q : α → Prop) : Prop :=
  Writes declared [] x fun a notes => (∀ n ∈ notes, n.FaultIn P) ∧ Q a

/-- A step only reports errors, in some places. -/
def Quiet (declared : Store) (P : NodeId → Prop) (x : Checking α) : Prop :=
  Reports declared P x fun _ => True

theorem Reports.pure {Q : α → Prop} {a : α} (h : Q a) : Reports declared P (pure a) Q :=
  Writes.pure ⟨by simp, h⟩

theorem Reports.bind {x : Checking α} {k : α → Checking β} {Q : α → Prop} {R : β → Prop}
    (hx : Reports declared P x Q) (hk : ∀ a, Q a → Reports declared P (k a) R) :
    Reports declared P (x >>= k) R := by
  refine Writes.bind hx fun a notes h => (hk a h.2).after fun b more h' => ⟨?_, h'.2⟩
  exact List.forall_mem_append.mpr ⟨h.1, h'.1⟩

theorem Reports.mono {x : Checking α} {Q R : α → Prop} (h : Reports declared P x Q)
    (hQR : ∀ a, Q a → R a) : Reports declared P x R :=
  Writes.mono h fun _ _ h => ⟨h.1, hQR _ h.2⟩

theorem Reports.quiet {x : Checking α} {Q : α → Prop} (h : Reports declared P x Q) :
    Quiet declared P x :=
  h.mono fun _ _ => trivial

theorem Quiet.pure (a : α) : Quiet declared P (pure a) := Reports.pure trivial

theorem Quiet.bind_reports {x : Checking α} {k : α → Checking β} {R : β → Prop}
    (hx : Quiet declared P x) (hk : ∀ a, Reports declared P (k a) R) :
    Reports declared P (x >>= k) R :=
  Reports.bind hx fun a _ => hk a

theorem Quiet.bind {x : Checking α} {k : α → Checking β} (hx : Quiet declared P x)
    (hk : ∀ a, Quiet declared P (k a)) : Quiet declared P (x >>= k) :=
  hx.bind_reports hk

theorem quiet_mapM {f : α → Checking β} (hf : ∀ a, Quiet declared P (f a)) (as : List α) :
    Quiet declared P (as.mapM f) := by
  have hloop : ∀ (as : List α) (bs : List β), Quiet declared P (List.mapM.loop f as bs) := by
    intro as
    induction as with
    | nil => exact fun bs => .pure bs.reverse
    | cons a as ih => exact fun bs => (hf a).bind fun b => ih (b :: bs)
  exact hloop as []

/-! ## Reading and changing the state -/

theorem reports_get :
    Reports declared P get fun s : CheckState => declared.SameFunctions s.store :=
  fun _ hs => ⟨[], .silent rfl rfl rfl fun _ _ => rfl, by simp, hs⟩

theorem quiet_get : Quiet declared P (get : Checking CheckState) := reports_get.quiet

theorem quiet_setNextVar (n : Nat) : Quiet declared P (setNextVar n) :=
  fun _ _ => ⟨[], .silent rfl rfl rfl fun _ _ => rfl, by simp, trivial⟩

theorem quiet_setMapping (m : Mapping) : Quiet declared P (setMapping m) :=
  fun _ _ => ⟨[], .silent rfl rfl rfl fun _ _ => rfl, by simp, trivial⟩

theorem quiet_setStore {store : Store} (hstore : declared.SameFunctions store) :
    Quiet declared P (setStore store) :=
  fun _ hs => ⟨[], .silent rfl rfl rfl fun h name => (hstore h name).trans (hs h name).symm,
    by simp, trivial⟩

theorem quiet_report {id : NodeId} (hid : P id) {f : Fault} (hf : f.isConflict = false) :
    Quiet declared P (report id f) :=
  fun _ _ => ⟨[.fault id f], ⟨⟨rfl, rfl, rfl⟩, fun _ _ => rfl⟩,
    by simpa [Note.FaultIn] using ⟨hid, hf⟩, trivial⟩

theorem writes_setType (before : List Note) (e : Expr) (t : Ty) :
    Writes declared before (setType e t) fun _ notes => notes = before ++ [.type e t] := by
  intro s _
  obtain ⟨s', -, -, hstore, -, heq⟩ := s.setType_eq e t
  refine ⟨[.type e t], ⟨⟨rfl, rfl, rfl⟩, fun h name => ?_⟩, rfl⟩
  show (s.setType e t).store.findFunction? h name = _
  rw [heq, ← hstore]

theorem writes_setReference (before : List Note) (e : Expr) (r : Reference) :
    Writes declared before (setReference e r) fun _ notes =>
      notes = before ++ [.reference e r] := by
  intro s _
  obtain ⟨s', -, -, hstore, -, heq⟩ := s.setReference_eq e r
  refine ⟨[.reference e r], ⟨⟨rfl, rfl, rfl⟩, fun h name => ?_⟩, rfl⟩
  show (s.setReference e r).store.findFunction? h name = _
  rw [heq, ← hstore]

/-! ## Operations -/

theorem quiet_reportUndeclared (env : Env) {id : NodeId} (hid : P id) (name : String) :
    Quiet declared P (reportUndeclared env id name) :=
  quiet_report hid rfl

theorem quiet_typeOf (id : NodeId) : Quiet declared P (typeOf id) :=
  quiet_get.bind fun _ => .pure _

theorem quiet_freshVar : Quiet declared P freshVar :=
  quiet_get.bind fun _ => (quiet_setNextVar _).bind fun _ => .pure _

theorem quiet_resolve (t : Ty) : Quiet declared P (resolve t) := quiet_get.bind fun _ => .pure _

theorem quiet_resolveFully (t : Ty) : Quiet declared P (resolveFully t) :=
  quiet_get.bind fun _ => .pure _

theorem quiet_keep : ∀ m : Option Mapping, Quiet declared P (keep m)
  | some m => (quiet_setMapping m).bind fun _ => .pure true
  | none => .pure false

theorem quiet_unify (a b : Ty) : Quiet declared P (unify a b) :=
  quiet_get.bind fun _ => quiet_keep _

theorem quiet_unifyAll (as bs : List Ty) : Quiet declared P (unifyAll as bs) :=
  quiet_get.bind fun _ => quiet_keep _

/-! ## Looking up and scopes -/

/-- Looking up an identifier leaves the functions alone. -/
theorem sameFunctions_lookupIdent (env : Env) {s : Store} (hs : declared.SameFunctions s)
    (name : String) : declared.SameFunctions (env.lookupIdent s name).2 := by
  unfold Env.lookupIdent
  rcases env.lookupFrom_snd s (env.container.candidates name) with heq | ⟨v, -, -, heq⟩
  · rw [heq]
    exact hs
  · rw [heq]
    exact fun h name => (s.findFunction?_addIdent _ v h name).trans (hs h name)

theorem quiet_lookupIdent (env : Env) (name : String) :
    Quiet declared P (lookupIdent env name) :=
  reports_get.bind fun _ hs => (quiet_setStore (sameFunctions_lookupIdent env hs name)).bind
    fun _ => .pure _

/-- Only a node that spells a name may mean an identifier. -/
theorem reports_lookupQualified (env : Env) (e : Expr) :
    Reports declared P (lookupQualified env e) fun v =>
      ∀ w ∈ v, e.qualifiedName?.isSome = true := by
  unfold lookupQualified
  split
  · next name hname =>
    exact Reports.mono (quiet_lookupIdent env name) fun _ _ _ _ => Option.isSome_of_eq_some hname
  · exact .pure (by simp)

theorem quiet_declareLocal (env : Env) (name : String) (t : Ty) :
    Quiet declared P (declareLocal env name t) :=
  reports_get.bind fun s hs => quiet_setStore fun h n =>
    (s.store.findFunction?_addIdent _ _ h n).trans (hs h n)

theorem Env.Nested.enterScope {root env : Env} (henv : Env.Nested declared root env) {s : Store}
    (hs : declared.SameFunctions s) : Env.Nested declared root (env.enterScope s).1 where
  functions name := by
    have hpush : (env.enterScope s).2.findFunction? (env.enterScope s).1.scopes name =
        s.findFunction? (env.enterScope s).1.scopes name := s.sameFunctions_push env.scopes _ name
    rw [← hs, ← hpush, env.findFunction?_enterScope, hs, henv.functions]
  options := henv.options

theorem reports_enterScope {root env : Env} (henv : Env.Nested declared root env) :
    Reports declared P (enterScope env) fun inner => Env.Nested declared root inner := by
  refine reports_get.bind fun s hs => (quiet_setStore fun h name => ?_).bind_reports fun _ =>
    .pure (Env.Nested.enterScope henv hs)
  exact (s.store.sameFunctions_push env.scopes h name).trans (hs h name)

/-- A function that is found is one that was declared. -/
theorem reports_lookupFunction {root env : Env} (henv : Env.Nested declared root env)
    (name : String) :
    Reports declared P (lookupFunction env name) fun f => ∀ g ∈ f, root.Knows declared g := by
  refine reports_get.bind fun s hs => .pure fun g hg => ?_
  obtain ⟨candidate, -, hfound⟩ := List.exists_of_findSome?_eq_some hg
  refine ⟨candidate, ?_⟩
  rw [← henv.functions, ← hs]
  exact (Option.filter_eq_some_iff.mp hfound).1

theorem reports_lookupNamespaced {root env : Env} (henv : Env.Nested declared root env)
    (target : Option Expr) (function : String) :
    Reports declared P (lookupNamespaced env target function) fun f => ∀ g ∈ f,
      root.Knows declared g ∧ ∀ r ∈ target, r.qualifiedName?.isSome = true := by
  unfold lookupNamespaced
  split
  · next qualifier hqualifier =>
    refine (reports_lookupFunction henv _).mono fun f hf g hg => ⟨hf g hg, fun r hr => ?_⟩
    rw [Option.mem_def.mp hr, Option.bind_some] at hqualifier
    exact Option.isSome_of_eq_some hqualifier
  · exact .pure (by simp)

/-! ## Overload resolution -/

theorem reports_tryOverload (argTypes : List Ty) {found : Option (Ty × Reference)}
    {os : List Overload} (hfound : ∀ p ∈ found, p.2.Selects os) (o : Overload) :
    Reports declared P (tryOverload argTypes found o)
      fun found => ∀ p ∈ found, p.2.Selects (os ++ [o]) := by
  refine quiet_get.bind_reports fun s => (quiet_setNextVar _).bind_reports fun _ =>
    (quiet_unifyAll _ _).bind_reports ?_
  rintro (_ | _)
  · exact .pure fun p hp => (hfound p hp).mono (List.sublist_append_left _ _)
  · refine (quiet_resolve _).bind_reports fun t => ?_
    rcases found with _ | ⟨current, reference⟩
    · refine .pure fun p hp => ?_
      obtain rfl := Option.some.inj hp
      exact .ofOverload (by simp)
    · refine .pure fun p hp => ?_
      obtain rfl := Option.some.inj hp
      exact (hfound _ rfl).addOverload o

/-- What is found after trying overloads is among those that were tried. -/
theorem reports_tryOverloads (argTypes : List Ty) (rest : List Overload) :
    ∀ {found : Option (Ty × Reference)} {os : List Overload}, (∀ p ∈ found, p.2.Selects os) →
      Reports declared P (rest.foldlM (tryOverload argTypes) found)
        fun found => ∀ p ∈ found, p.2.Selects (os ++ rest) := by
  induction rest with
  | nil =>
    intro found os hfound
    rw [List.append_nil]
    exact .pure hfound
  | cons o rest ih =>
    intro found os hfound
    rw [List.foldlM_cons, List.append_cons]
    exact (reports_tryOverload argTypes hfound o).bind fun _ h => ih h

theorem quiet_requireBools : ∀ {args : List (NodeId × Ty)}, (∀ a ∈ args, P a.1) →
    Quiet declared P (requireBools args)
  | [], _ => .pure true
  | (id, t) :: rest, hargs => by
    obtain ⟨hid, hrest⟩ := List.forall_mem_cons.mp hargs
    refine (quiet_unify t .bool).bind ?_
    rintro (_ | _)
    · exact (quiet_report hid rfl).bind fun _ => (quiet_requireBools hrest).bind fun _ => .pure _
    · exact (quiet_requireBools hrest).bind fun _ => .pure _

theorem quiet_reportNoMatch {id : NodeId} (hid : P id) (f : FunctionDecl) (argTypes : List Ty)
    (isMember : Bool) : Quiet declared P (reportNoMatch id f argTypes isMember) :=
  (quiet_mapM quiet_resolveFully argTypes).bind fun _ => quiet_report hid rfl

/-- **What a call is resolved to** are overloads that it may use. -/
theorem reports_resolveOverload (env : Env) {id : NodeId} (hid : P id) (f : FunctionDecl)
    {target : Option NodeId} {args : List NodeId} (hargs : ∀ i ∈ target.toList ++ args, P i) :
    Reports declared P (resolveOverload env id f target args)
      fun found => ∀ p ∈ found, p.2.Selects (usable env f target.isSome) := by
  refine (quiet_mapM quiet_typeOf _).bind_reports fun argTypes => ?_
  split
  · dsimp only
    split
    · next o rest husable =>
      refine (quiet_requireBools fun a ha => hargs _ (List.of_mem_zip ha).1).bind_reports ?_
      rintro (_ | _)
      · exact .pure (by simp)
      · refine .pure fun p hp => ?_
        obtain rfl := Option.some.inj hp
        rw [husable]
        exact .ofOverload List.mem_cons_self
    · exact (quiet_reportNoMatch hid _ _ _).bind_reports fun _ => .pure (by simp)
  · have hnone : ∀ p ∈ (none : Option (Ty × Reference)), p.2.Selects [] := by simp
    refine (reports_tryOverloads argTypes (usable env f target.isSome) hnone).bind ?_
    rintro (_ | found) hfound
    · exact (quiet_reportNoMatch hid _ _ _).bind_reports fun _ => .pure (by simp)
    · exact .pure hfound

/-! ## Typing rules -/

section Rules

variable {id : NodeId} (hid : P id)

include hid

theorem quiet_fieldType (env : Env) (message field : String) :
    Quiet declared P (fieldType env id message field) := by
  unfold fieldType
  split
  · exact (quiet_report hid rfl).bind fun _ => .pure _
  · split
    · exact .pure _
    · exact (quiet_report hid rfl).bind fun _ => .pure _

theorem quiet_selectFrom (env : Env) (target : Ty) (field : String) :
    Quiet declared P (selectFrom env id target field) := by
  unfold selectFrom
  split
  · exact .pure _
  · exact (quiet_fieldType hid _ _ _).bind fun _ => .pure _
  · exact (quiet_unify _ _).bind fun _ => .pure _
  · split
    · exact (quiet_report hid rfl).bind fun _ => .pure _
    · exact .pure _

theorem quiet_selectField (env : Env) (operand : NodeId) (field : String) (optional : Bool) :
    Quiet declared P (selectField env id operand field optional) :=
  (quiet_typeOf _).bind fun _ => (quiet_resolve _).bind fun _ =>
    (quiet_selectFrom hid _ _ _).bind fun _ => .pure _

theorem quiet_unwrapOptional (t : Ty) : Quiet declared P (unwrapOptional id t) := by
  refine (quiet_resolve t).bind fun t => ?_
  split
  · exact .pure _
  · split
    · exact (quiet_report hid rfl).bind fun _ => .pure _
    · exact .pure _

theorem quiet_entryType (optional : Bool) : Quiet declared P (entryType id optional) := by
  refine (quiet_typeOf id).bind fun t => ?_
  split
  · exact quiet_unwrapOptional hid _
  · exact .pure _

theorem quiet_joinTypes (env : Env) (previous : Option Ty) (current : Ty) :
    Quiet declared P (joinTypes env id previous current) := by
  rcases previous with _ | previous
  · exact .pure _
  · refine (quiet_unify _ _).bind fun unified => ?_
    split
    · exact .pure _
    · split
      · exact (quiet_report hid rfl).bind fun _ => .pure _
      · exact .pure _

theorem quiet_literalTarget (v : Variable) : Quiet declared P (literalTarget id v) := by
  unfold literalTarget
  split
  · exact .pure _
  · split
    · exact .pure _
    · split
      · exact .pure _
      · exact (quiet_report hid rfl).bind fun _ => .pure _
  · exact (quiet_report hid rfl).bind fun _ => .pure _

theorem quiet_iterationTypes (range : Ty) (twoVars : Bool) :
    Quiet declared P (iterationTypes id range twoVars) := by
  unfold iterationTypes
  split
  · exact .pure _
  · exact .pure _
  · exact (quiet_unify _ _).bind fun _ => .pure _
  · exact (quiet_unify _ _).bind fun _ => .pure _
  · exact (quiet_unify _ _).bind fun _ => .pure _
  · exact (quiet_report hid rfl).bind fun _ => .pure _

theorem quiet_requireType (expected : Ty) : Quiet declared P (requireType id expected) := by
  refine (quiet_typeOf _).bind fun actual => (quiet_unify _ _).bind fun unified => ?_
  split
  · exact quiet_report hid rfl
  · exact .pure _

end Rules

theorem quiet_checkInit (env : Env) {f : FieldInit} (hid : P f.id) (hvalue : P f.value.id)
    (message : String) (target : Ty) : Quiet declared P (checkInit env f message target) := by
  have hrest : ∀ declaredType : Ty, Quiet declared P
      (do
        let given ← entryType f.value.id f.optional
        if !(← unify declaredType given) then
          report f.id (.fieldTypeMismatch f.field declaredType.display given.display)) := by
    intro declaredType
    refine (quiet_entryType hvalue _).bind fun given => (quiet_unify _ _).bind fun unified => ?_
    split
    · exact quiet_report hid rfl
    · exact .pure _
  unfold checkInit
  split
  · exact (Quiet.pure _).bind fun declaredType => hrest declaredType
  · exact (quiet_fieldType hid _ _ _).bind fun _ => (Quiet.pure _).bind fun declaredType =>
      hrest declaredType

end Checking
end CelTyping
